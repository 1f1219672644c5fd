import CosmosEvm.Statedb.Profile

namespace CosmosEvm.Statedb

variable {σ : Type}

def StateDB.slot (env : Env σ) (s : StateDB σ) (addr : Address) (key : Hash) : Hash :=
  (((s.view env).account addr).map (·.state key)).getD (env.keeper.getState s.ctx.store addr key)

def StateDB.written (s : StateDB σ) (addr : Address) (key : Hash) : Option Hash :=
  (s.stateObjects.lookup addr).bind fun obj => obj.dirtyStorage.lookup key

def Env.Housed (env : Env σ) (store : σ) : Prop :=
  ∀ addr, env.keeper.getAccount store addr = none → ∀ key, env.keeper.getState store addr key = zeroHash

def setSlot {α : Type} (values : Address → Hash → α) (addr : Address) (key : Hash) (value : α) :
    Address → Hash → α :=
  Function.update values addr (Function.update (values addr) key value)

section SetSlot

variable {α : Type} (values : Address → Hash → α) {addr other : Address} {key key' : Hash} {value : α}

theorem setSlot_self : setSlot values addr key value addr key = value := by
  rw [setSlot, Function.update_self, Function.update_self]

theorem setSlot_of_ne (hne : (other, key') ≠ (addr, key)) :
    setSlot values addr key value other key' = values other key' := by
  unfold setSlot
  by_cases heq : other = addr
  · subst heq
    have hkey : key' ≠ key := fun heq => hne (by rw [heq])
    rw [Function.update_self, Function.update_of_ne hkey]
  · rw [Function.update_of_ne heq]

theorem setSlot_eq_self (hvalue : values addr key = value) : setSlot values addr key value = values := by
  have hrow : Function.update (values addr) key value = values addr :=
    Function.update_eq_self_iff.mpr hvalue.symm
  rw [setSlot, hrow, Function.update_eq_self]

end SetSlot

variable {env : Env σ} {s s' : StateDB σ} {addr : Address}

theorem written_setStateObject (s : StateDB σ) (addr : Address) (obj : StateObject) :
    (s.setStateObject addr obj).written =
      Function.update s.written addr fun key => obj.dirtyStorage.lookup key := by
  funext other key
  unfold StateDB.written StateDB.setStateObject
  by_cases heq : other = addr
  · subst heq
    rw [Finmap.lookup_insert, Function.update_self]
    rfl
  · rw [Finmap.lookup_insert_of_ne _ heq, Function.update_of_ne heq]

theorem slot_setStateObject (env : Env σ) (s : StateDB σ) (addr : Address) (obj : StateObject) :
    (s.setStateObject addr obj).slot env =
      Function.update (s.slot env) addr (obj.view env s.ctx.store addr).state := by
  funext other key
  unfold StateDB.slot
  rw [view_setStateObject]
  by_cases heq : other = addr
  · subst heq
    rw [View.setAccount_account_self, Function.update_self]
    rfl
  · rw [View.setAccount_account_of_ne _ _ heq, Function.update_of_ne heq]
    rfl

structure StateObject.Holds (env : Env σ) (s : StateDB σ) (addr : Address) (obj : StateObject) : Prop where
  state_eq : (obj.view env s.ctx.store addr).state = s.slot env addr
  written_eq : ∀ key, obj.dirtyStorage.lookup key = s.written addr key

structure Touches (env : Env σ) (addr : Address) (s s' : StateDB σ) : Prop where
  ctx_eq : s'.ctx = s.ctx
  slot_eq : s'.slot env = s.slot env
  written_eq : s'.written = s.written
  dirties : ∀ {other}, other ∈ s'.journal.dirties → other = addr ∨ other ∈ s.journal.dirties

theorem Touches.refl (env : Env σ) (addr : Address) (s : StateDB σ) : Touches env addr s s :=
  ⟨rfl, rfl, rfl, .inr⟩

theorem Touches.holds (htouches : Touches env addr s s') {obj : StateObject} (hobj : obj.Holds env s addr) :
    obj.Holds env s' addr where
  state_eq := by
    rw [htouches.ctx_eq, htouches.slot_eq]
    exact hobj.state_eq
  written_eq key := by
    rw [htouches.written_eq]
    exact hobj.written_eq key

theorem Touches.setStateObject (htouches : Touches env addr s s') {obj : StateObject}
    (hobj : obj.Holds env s addr) : Touches env addr s (s'.setStateObject addr obj) where
  ctx_eq := htouches.ctx_eq
  slot_eq := by
    rw [slot_setStateObject, (htouches.holds hobj).state_eq, Function.update_eq_self, htouches.slot_eq]
  written_eq := by
    rw [written_setStateObject, htouches.written_eq]
    exact Function.update_eq_self_iff.mpr (funext hobj.written_eq)
  dirties := htouches.dirties

theorem Touches.append (htouches : Touches env addr s s') {entry : JournalEntry}
    (hentry : entry.dirtied = some addr) : Touches env addr s (s'.append entry) where
  ctx_eq := htouches.ctx_eq
  slot_eq := htouches.slot_eq
  written_eq := htouches.written_eq
  dirties hmem := by
    rcases Dirties.mem_increment.mp hmem with hself | hmem
    · rw [hentry] at hself
      exact .inl (Option.some.inj hself).symm
    · exact htouches.dirties hmem

theorem Touches.journaled (htouches : Touches env addr s s') {entry : JournalEntry}
    (hentry : entry.dirtied = some addr) {obj : StateObject} (hobj : obj.Holds env s addr) :
    Touches env addr s (s'.journaled entry addr obj) :=
  (htouches.append hentry).setStateObject hobj

theorem getState_eq_slot (hhoused : env.Housed s.ctx.store) (addr : Address) (key : Hash) :
    (s.getState env addr key).1 = s.slot env addr key := by
  rw [(getState_spec env s addr key).1]
  unfold StateDB.slot
  cases haccount : (s.view env).account addr with
  | some account => rfl
  | none =>
    have hmissing : env.keeper.getAccount s.ctx.store addr = none := by
      cases hlookup : s.stateObjects.lookup addr with
      | some obj =>
        rw [view_account_of_lookup env hlookup] at haccount
        cases haccount
      | none =>
        rw [view_account_of_not_loaded env hlookup] at haccount
        exact Option.map_eq_none_iff.mp haccount
    exact (hhoused addr hmissing key).symm

theorem holds_of_lookup {obj : StateObject} (env : Env σ) (hlookup : s.stateObjects.lookup addr = some obj) :
    obj.Holds env s addr where
  state_eq := by
    funext key
    unfold StateDB.slot
    rw [view_account_of_lookup env hlookup]
    rfl
  written_eq key := by
    unfold StateDB.written
    rw [hlookup]
    rfl

theorem holds_newObject (account : Account) (hlookup : s.stateObjects.lookup addr = none) :
    (newObject account).Holds env s addr where
  state_eq := by
    funext key
    unfold StateDB.slot
    rw [view_account_of_not_loaded env hlookup]
    unfold Env.loadedView
    cases env.keeper.getAccount s.ctx.store addr <;> rfl
  written_eq key := by
    unfold StateDB.written
    rw [hlookup]
    exact Finmap.lookup_empty key

theorem getStateObject_touches (env : Env σ) (s : StateDB σ) (addr : Address) :
    (s.getStateObject env addr = (none, s) ∧ s.stateObjects.lookup addr = none ∧
      env.keeper.getAccount s.ctx.store addr = none) ∨
    ∃ obj s', s.getStateObject env addr = (some obj, s') ∧ Touches env addr s s' ∧
      obj.Holds env s addr := by
  unfold StateDB.getStateObject
  cases hlookup : s.stateObjects.lookup addr with
  | some obj => exact .inr ⟨obj, s, rfl, .refl env addr s, holds_of_lookup env hlookup⟩
  | none =>
    cases haccount : env.keeper.getAccount s.ctx.store addr with
    | none => exact .inl ⟨rfl, rfl, rfl⟩
    | some account =>
      have hobj : (newObject account).Holds env s addr := holds_newObject account hlookup
      exact .inr ⟨_, _, rfl, (Touches.refl env addr s).setStateObject hobj, hobj⟩

theorem getOrNewStateObject_touches (env : Env σ) (s : StateDB σ) (addr : Address) :
    ∃ obj s', s.getOrNewStateObject env addr = (obj, s') ∧ Touches env addr s s' ∧
      obj.Holds env s addr := by
  unfold StateDB.getOrNewStateObject StateDB.createObject
  rcases getStateObject_touches env s addr with ⟨hget, hlookup, -⟩ | ⟨obj, s', hget, htouches, hobj⟩
  · have hobj : (newObject env.emptyAccount).Holds env s addr := holds_newObject env.emptyAccount hlookup
    simp only [hget]
    exact ⟨_, _, rfl, (Touches.refl env addr s).journaled rfl hobj, hobj⟩
  · simp only [hget]
    exact ⟨obj, s', rfl, htouches, hobj⟩

theorem StateObject.Holds.getState {obj : StateObject} (hobj : obj.Holds env s addr) (key : Hash) :
    (obj.getState env s.ctx.store addr key).1 = s.slot env addr key ∧
      (obj.getState env s.ctx.store addr key).2.Holds env s addr := by
  obtain ⟨hvalue, hview⟩ := StateObject.getState_spec env s.ctx.store addr obj key
  have hdirty : (obj.getState env s.ctx.store addr key).2.dirtyStorage = obj.dirtyStorage := by
    unfold StateObject.getState StateObject.getCommittedState
    split
    · rfl
    · split <;> rfl
  refine ⟨?_, ⟨?_, fun other => ?_⟩⟩
  · rw [hvalue, hobj.state_eq]
  · rw [hview]
    exact hobj.state_eq
  · rw [hdirty]
    exact hobj.written_eq other

section

variable (env : Env σ) (s : StateDB σ) (addr : Address)

theorem touches_getNonce : Touches env addr s (s.getNonce env addr).2 := by
  unfold StateDB.getNonce
  rcases getStateObject_touches env s addr with ⟨hget, -⟩ | ⟨obj, s', hget, htouches, -⟩
  · rw [hget]
    exact .refl env addr s
  · rw [hget]
    exact htouches

theorem touches_getState (key : Hash) : Touches env addr s (s.getState env addr key).2 := by
  unfold StateDB.getState
  rcases getStateObject_touches env s addr with ⟨hget, -⟩ | ⟨obj, s', hget, htouches, hobj⟩
  · simp only [hget]
    exact .refl env addr s
  · simp only [hget]
    rw [htouches.ctx_eq]
    exact htouches.setStateObject (hobj.getState key).2

theorem touches_setNonce (nonce : UInt64) : Touches env addr s (s.setNonce env addr nonce) := by
  obtain ⟨obj, s', hget, htouches, hobj⟩ := getOrNewStateObject_touches env s addr
  unfold StateDB.setNonce
  simp only [hget]
  exact htouches.journaled rfl ⟨hobj.state_eq, hobj.written_eq⟩

theorem touches_setCode (code : Option Bytes) : Touches env addr s (s.setCode env addr code).2 := by
  obtain ⟨obj, s', hget, htouches, hobj⟩ := getOrNewStateObject_touches env s addr
  unfold StateDB.setCode
  simp only [hget]
  exact htouches.journaled rfl ⟨hobj.state_eq, hobj.written_eq⟩

theorem touches_addBalance (amount : BitVec 256) : Touches env addr s (s.addBalance env addr amount).2 := by
  obtain ⟨obj, s', hget, htouches, hobj⟩ := getOrNewStateObject_touches env s addr
  unfold StateDB.addBalance StateDB.setBalance
  simp only [hget]
  split
  · exact htouches
  · exact htouches.journaled rfl ⟨hobj.state_eq, hobj.written_eq⟩

theorem touches_subBalance (amount : BitVec 256) : Touches env addr s (s.subBalance env addr amount).2 := by
  obtain ⟨obj, s', hget, htouches, hobj⟩ := getOrNewStateObject_touches env s addr
  unfold StateDB.subBalance StateDB.setBalance
  simp only [hget]
  split
  · exact htouches
  · exact htouches.journaled rfl ⟨hobj.state_eq, hobj.written_eq⟩

theorem setState_cases (key value : Hash) :
    s.slot env addr key = value ∧ Touches env addr s (s.setState env addr key value).2 ∨
    ∃ t, Touches env addr s t ∧ addr ∈ t.journal.dirties ∧
      ∃ obj : StateObject, obj.Holds env s addr ∧
        (s.setState env addr key value).2 = t.setStateObject addr (obj.setState key value) := by
  obtain ⟨obj, s', hget, htouches, hobj⟩ := getOrNewStateObject_touches env s addr
  obtain ⟨hvalue, hread⟩ := hobj.getState key
  unfold StateDB.setState
  simp only [hget]
  rw [htouches.ctx_eq, hvalue]
  split
  · rename_i hsame
    exact .inl ⟨hsame, htouches.setStateObject hread⟩
  · refine .inr ⟨_, htouches.append rfl, ?_, _, hread, rfl⟩
    exact Dirties.mem_increment.mpr (.inl rfl)

end

theorem slot_setState {t : StateDB σ} (htouches : Touches env addr s t) {obj : StateObject}
    (hobj : obj.Holds env s addr) (key value : Hash) :
    (t.setStateObject addr (obj.setState key value)).slot env =
      setSlot (s.slot env) addr key value := by
  rw [slot_setStateObject, StateObject.view_setState, htouches.slot_eq, (htouches.holds hobj).state_eq,
    htouches.slot_eq]
  rfl

theorem written_setState {t : StateDB σ} (htouches : Touches env addr s t) {obj : StateObject}
    (hobj : obj.Holds env s addr) (key value : Hash) :
    (t.setStateObject addr (obj.setState key value)).written =
      setSlot s.written addr key (some value) := by
  rw [written_setStateObject, htouches.written_eq]
  unfold setSlot
  congr 1
  funext other
  unfold StateObject.setState
  by_cases heq : other = key
  · subst heq
    rw [Finmap.lookup_insert, Function.update_self]
  · rw [Finmap.lookup_insert_of_ne _ heq, Function.update_of_ne heq]
    exact hobj.written_eq other

end CosmosEvm.Statedb
