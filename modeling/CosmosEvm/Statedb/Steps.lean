import CosmosEvm.Statedb.View

/-!
# What each operation logs

Every operation leaves entries in the journal that undo exactly what it changed on the view, and the states
in between are good ones.
-/

namespace CosmosEvm.Statedb

open UndoLog

variable {σ : Type}

def Env.keeperBalance (env : Env σ) (store : σ) (addr : Address) : BitVec 256 :=
  ((env.keeper.getAccount store addr).map Account.balance).getD 0

def View.balance (v : View σ) (addr : Address) : BitVec 256 :=
  ((v.account addr).map AccountView.balance).getD 0

theorem View.balance_congr {v v' : View σ} (haccount : v.account = v'.account) :
    v.balance = v'.balance := by
  unfold View.balance
  rw [haccount]

structure View.Good (env : Env σ) (store : σ) (v : View σ) : Prop where
  accessList : v.accessList.WellFormed
  count_pos : ∀ {addr count}, v.dirties.lookup addr = some count → 0 < count
  exists_of_dirty : ∀ {addr}, addr ∈ v.dirties → (v.account addr).isSome
  balance_of_clean : ∀ {addr}, addr ∉ v.dirties → v.balance addr = env.keeperBalance store addr

namespace Dirties

variable {dirties : Dirties}

theorem mem_increment {addr : Address} {dirtied : Option Address} :
    addr ∈ dirties.increment dirtied ↔ dirtied = some addr ∨ addr ∈ dirties := by
  cases dirtied with
  | none => simp [increment]
  | some other => simp [increment, Finmap.mem_insert, eq_comm]

theorem increment_count_pos (hpos : ∀ {addr count}, dirties.lookup addr = some count → 0 < count)
    (dirtied : Option Address) {addr : Address} {count : ℤ}
    (hcount : (dirties.increment dirtied).lookup addr = some count) : 0 < count := by
  cases dirtied with
  | none => exact hpos hcount
  | some other =>
    unfold increment at hcount
    by_cases heq : addr = other
    · subst heq
      rw [Finmap.lookup_insert] at hcount
      cases hcount
      cases hlookup : dirties.lookup addr with
      | none => simp
      | some old =>
        have hold := hpos hlookup
        simp only [Option.getD_some]
        omega
    · rw [Finmap.lookup_insert_of_ne _ heq] at hcount
      exact hpos hcount

theorem decrement_increment (hpos : ∀ {addr count}, dirties.lookup addr = some count → 0 < count)
    (dirtied : Option Address) : (dirties.increment dirtied).decrement dirtied = dirties := by
  cases dirtied with
  | none => rfl
  | some addr =>
    simp only [increment, decrement, Finmap.lookup_insert, Option.getD_some, add_sub_cancel_right]
    apply Finmap.ext_lookup
    intro other
    by_cases heq : other = addr
    · subst heq
      cases hlookup : dirties.lookup other with
      | none => simp [Finmap.lookup_erase]
      | some count =>
        have hne : ¬ count = 0 := by
          have := hpos hlookup
          omega
        simp [hne, Finmap.lookup_insert]
    · split
      · rw [Finmap.lookup_erase_ne heq, Finmap.lookup_insert_of_ne _ heq]
      · rw [Finmap.lookup_insert_of_ne _ heq, Finmap.lookup_insert_of_ne _ heq]

end Dirties

structure Extends (env : Env σ) (s s' : StateDB σ) (entries : List JournalEntry) : Prop where
  entries_eq : s'.journal.entries = s.journal.entries ++ entries
  history : History (View.undoEntry env s.ctx.store) (View.Good env s.ctx.store) (s.view env) entries
    (s'.view env)
  ctx_eq : s'.ctx = s.ctx
  revisions_eq : s'.validRevisions = s.validRevisions
  next_eq : s'.nextRevisionID = s.nextRevisionID
  loaded : ∀ addr, addr ∈ s'.journal.dirties → addr ∈ s.journal.dirties ∨ addr ∈ s'.stateObjects
  keeps : ∀ addr, addr ∈ s.stateObjects → addr ∈ s'.stateObjects

variable {env : Env σ} {s s' s'' : StateDB σ}

abbrev StateDB.Good (env : Env σ) (s : StateDB σ) : Prop := (s.view env).Good env s.ctx.store

theorem Extends.good {entries : List JournalEntry} (hextends : Extends env s s' entries) :
    s'.Good env := by
  unfold StateDB.Good
  rw [hextends.ctx_eq]
  exact hextends.history.good

theorem Extends.trans {entries later : List JournalEntry} (hfirst : Extends env s s' entries)
    (hsecond : Extends env s' s'' later) : Extends env s s'' (entries ++ later) where
  entries_eq := by rw [hsecond.entries_eq, hfirst.entries_eq, List.append_assoc]
  history := by
    have hlater := hsecond.history
    rw [hfirst.ctx_eq] at hlater
    exact hfirst.history.trans hlater
  ctx_eq := hsecond.ctx_eq.trans hfirst.ctx_eq
  revisions_eq := hsecond.revisions_eq.trans hfirst.revisions_eq
  next_eq := hsecond.next_eq.trans hfirst.next_eq
  loaded addr hdirty := by
    rcases hsecond.loaded addr hdirty with hbefore | hafter
    · exact (hfirst.loaded addr hbefore).imp_right (hsecond.keeps addr)
    · exact .inr hafter
  keeps addr hmem := hsecond.keeps addr (hfirst.keeps addr hmem)

theorem Extends.of_loads (hgood : s.Good env) (hloads : Loads env s s') : Extends env s s' [] where
  entries_eq := by rw [hloads.frame, List.append_nil]
  history := by
    rw [hloads.view_eq]
    exact .nil hgood
  ctx_eq := hloads.ctx_eq
  revisions_eq := by rw [hloads.frame]
  next_eq := by rw [hloads.frame]
  loaded addr hdirty := by
    rw [hloads.frame] at hdirty
    exact .inl hdirty
  keeps := hloads.keeps

theorem Extends.refl (hgood : s.Good env) : Extends env s s [] := .of_loads hgood (.refl s)

structure Frame (s s' : StateDB σ) : Prop where
  ctx_eq : s'.ctx = s.ctx
  revisions_eq : s'.validRevisions = s.validRevisions
  next_eq : s'.nextRevisionID = s.nextRevisionID
  keeps : ∀ addr, addr ∈ s.stateObjects → addr ∈ s'.stateObjects

theorem Extends.of_entry {entry : JournalEntry} (hgood : s.Good env) (hframe : Frame s s')
    (hjournal : s'.journal = s.journal.append entry)
    (hloaded : ∀ addr, entry.dirtied = some addr → addr ∈ s'.stateObjects) (hgood' : s'.Good env)
    (hundo : entry.undo env s.ctx.store (s'.view env) =
      some { s.view env with dirties := s'.journal.dirties }) : Extends env s s' [entry] where
  entries_eq := by rw [hjournal]; rfl
  history := by
    unfold StateDB.Good at hgood'
    rw [hframe.ctx_eq] at hgood'
    refine .single hgood ?_ hgood'
    have hdirties : (s.journal.append entry).dirties.decrement entry.dirtied = s.journal.dirties :=
      Dirties.decrement_increment hgood.count_pos entry.dirtied
    simp only [View.undoEntry, hundo, Option.map_some, hjournal, hdirties]
    rfl
  ctx_eq := hframe.ctx_eq
  revisions_eq := hframe.revisions_eq
  next_eq := hframe.next_eq
  loaded addr hdirty := by
    rw [hjournal] at hdirty
    exact (Dirties.mem_increment.mp hdirty).symm.imp_right (hloaded addr)
  keeps := hframe.keeps

theorem View.Good.setAccount {store : σ} {v : View σ} (hgood : v.Good env store) {addr : Address}
    {account : AccountView} {dirtied : Option Address}
    (hdirtied : dirtied = some addr ∨ dirtied = none ∧ v.balance addr = account.balance) :
    View.Good env store { v.setAccount addr (some account) with
      dirties := v.dirties.increment dirtied } where
  accessList := hgood.accessList
  count_pos hcount := Dirties.increment_count_pos hgood.count_pos dirtied hcount
  exists_of_dirty {other} hdirty := by
    by_cases heq : other = addr
    · simp [View.setAccount, heq]
    · simp only [View.setAccount, Function.update_of_ne heq]
      rcases Dirties.mem_increment.mp hdirty with hother | hother
      · rcases hdirtied with rfl | ⟨rfl, _⟩
        · exact absurd (Option.some.inj hother).symm heq
        · simp at hother
      · exact hgood.exists_of_dirty hother
  balance_of_clean {other} hclean := by
    have hnot := mt Dirties.mem_increment.mpr hclean
    push Not at hnot
    have hold := hgood.balance_of_clean hnot.2
    by_cases heq : other = addr
    · subst heq
      rcases hdirtied with rfl | ⟨rfl, hbalance⟩
      · exact absurd rfl hnot.1
      · rw [← hold, hbalance]
        simp [View.balance, View.setAccount]
    · rw [← hold]
      simp [View.balance, View.setAccount, Function.update_of_ne heq]

theorem Extends.journaled {entry : JournalEntry} {addr : Address} {obj : StateObject}
    (hgood : s.Good env)
    (hdirtied : entry.dirtied = some addr ∨
      entry.dirtied = none ∧ (s.view env).balance addr = obj.account.balance)
    (hundo : ∀ dirties, entry.undo env s.ctx.store
      { (s.view env).setAccount addr (some (obj.view env s.ctx.store addr)) with dirties } =
        some { s.view env with dirties }) :
    Extends env s (s.journaled entry addr obj) [entry] := by
  have hview : (s.journaled entry addr obj).view env =
      { (s.view env).setAccount addr (some (obj.view env s.ctx.store addr)) with
        dirties := (s.view env).dirties.increment entry.dirtied } := by
    unfold StateDB.journaled
    rw [view_setStateObject]
    rfl
  apply Extends.of_entry hgood
  · exact ⟨rfl, rfl, rfl, fun _ hmem => Finmap.mem_insert.mpr (.inr hmem)⟩
  · rfl
  · intro other hother
    rcases hdirtied with hsome | ⟨hnone, _⟩
    · rw [hsome] at hother
      exact Finmap.mem_insert.mpr (.inl (Option.some.inj hother).symm)
    · rw [hnone] at hother
      simp at hother
  · unfold StateDB.Good
    rw [hview]
    exact hgood.setAccount hdirtied
  · rw [hview, hundo]
    rfl

def Steps (env : Env σ) (s s' : StateDB σ) : Prop := ∃ entries, Extends env s s' entries

theorem Steps.trans (hfirst : Steps env s s') (hsecond : Steps env s' s'') : Steps env s s'' := by
  obtain ⟨entries, hentries⟩ := hfirst
  obtain ⟨later, hlater⟩ := hsecond
  exact ⟨entries ++ later, hentries.trans hlater⟩

theorem Steps.good (hsteps : Steps env s s') : s'.Good env := by
  obtain ⟨_, hextends⟩ := hsteps
  exact hextends.good

theorem Steps.of_loads (hgood : s.Good env) (hloads : Loads env s s') : Steps env s s' :=
  ⟨[], .of_loads hgood hloads⟩

theorem View.updateAccount_setAccount {v : View σ} {addr : Address} {account account' : AccountView}
    {back : AccountView → AccountView} (haccount : v.account addr = some account)
    (hback : back account' = account) (dirties : Dirties) :
    View.updateAccount { v.setAccount addr (some account') with dirties } addr back =
      some { v with dirties } := by
  have hrestored := View.setAccount_eq_self v haccount
  simp only [View.updateAccount, View.setAccount, Function.update_self, Option.map_some, hback,
    Function.update_idem]
  refine congrArg some ?_
  calc
    _ = { v.setAccount addr (some account) with dirties } := rfl
    _ = _ := by rw [hrestored]

theorem steps_create {addr : Address} (hgood : s.Good env) (hlookup : s.stateObjects.lookup addr = none)
    (hkeeper : env.keeper.getAccount s.ctx.store addr = none) :
    Steps env s (s.journaled (.createObjectChange addr) addr (newObject env.emptyAccount)) := by
  have hloaded : env.loadedView s.ctx.store addr = none := by rw [Env.loadedView, hkeeper]; rfl
  have haccount := view_account_of_not_loaded env hlookup
  rw [hloaded] at haccount
  refine ⟨_, .journaled hgood (.inl rfl) fun dirties => ?_⟩
  have hrestored := View.setAccount_eq_self (s.view env) haccount
  simp only [JournalEntry.undo, hloaded, Option.isNone_none, if_true]
  refine congrArg some ?_
  calc
    _ = { (s.view env).setAccount addr none with dirties } := by simp [View.setAccount]
    _ = _ := by rw [hrestored]

theorem steps_reset {addr : Address} {prev : StateObject} (hgood : s.Good env)
    (hlookup : s.stateObjects.lookup addr = some prev) :
    Steps env s (s.journaled (.resetObjectChange addr prev) addr
      ((newObject env.emptyAccount).setBalance prev.account.balance)) := by
  have haccount := view_account_of_lookup env hlookup
  refine ⟨_, .journaled hgood (.inr ⟨rfl, ?_⟩) fun dirties => ?_⟩
  · simp only [View.balance, haccount]
    rfl
  · have hrestored := View.setAccount_eq_self (s.view env) haccount
    simp only [JournalEntry.undo, View.setAccount, Function.update_idem]
    refine congrArg some ?_
    calc
      _ = { (s.view env).setAccount addr (some (prev.view env s.ctx.store addr)) with dirties } := rfl
      _ = _ := by rw [hrestored]

theorem steps_destruct {addr : Address} {obj : StateObject} (hgood : s.Good env)
    (hlookup : s.stateObjects.lookup addr = some obj) :
    Steps env s (s.destruct addr obj) := by
  have hrestored := View.setAccount_eq_self (s.view env) (view_account_of_lookup env hlookup)
  refine ⟨_, .journaled hgood (.inl rfl) fun dirties => ?_⟩
  simp only [JournalEntry.undo, View.setAccount, Function.update_self, Option.map_some,
    Function.update_idem]
  refine congrArg some ?_
  calc
    _ = { (s.view env).setAccount addr (some (obj.view env s.ctx.store addr)) with dirties } := rfl
    _ = _ := by rw [hrestored]

theorem Steps.of_entry {entry : JournalEntry} (hgood : s.Good env) (hframe : Frame s s')
    (hjournal : s'.journal = s.journal.append entry) (hdirtied : entry.dirtied = none)
    (hobjects : s'.stateObjects = s.stateObjects) (haccessList : s'.accessList.WellFormed)
    (hundo : entry.undo env s.ctx.store (s'.view env) = some (s.view env)) : Steps env s s' := by
  have hdirties : s'.journal.dirties = s.journal.dirties := by
    rw [hjournal, Journal.append, hdirtied]
    rfl
  have haccount : (s'.view env).account = (s.view env).account := by
    simp only [StateDB.view, hobjects, hframe.ctx_eq]
  refine ⟨[entry], .of_entry hgood hframe hjournal (by simp [hdirtied]) ?_ ?_⟩
  · unfold StateDB.Good
    rw [hframe.ctx_eq]
    refine ⟨haccessList, fun hcount => ?_, fun hdirty => ?_, fun hclean => ?_⟩
    · rw [StateDB.view, hdirties] at hcount
      exact hgood.count_pos hcount
    · rw [StateDB.view, hdirties] at hdirty
      rw [haccount]
      exact hgood.exists_of_dirty hdirty
    · rw [StateDB.view, hdirties] at hclean
      rw [View.balance, haccount]
      exact hgood.balance_of_clean hclean
  · rw [hundo, hdirties]
    rfl

theorem frame_of_objects (hctx : s'.ctx = s.ctx) (hrevisions : s'.validRevisions = s.validRevisions)
    (hnext : s'.nextRevisionID = s.nextRevisionID) (hobjects : s'.stateObjects = s.stateObjects) :
    Frame s s' :=
  ⟨hctx, hrevisions, hnext, fun addr hmem => by rwa [hobjects]⟩

section

variable (hgood : s.Good env)

include hgood

theorem steps_setTransientState (addr : Address) (key value : Hash) :
    Steps env s (s.setTransientState addr key value) := by
  unfold StateDB.setTransientState
  simp only
  split
  · exact ⟨[], .refl hgood⟩
  · refine .of_entry hgood (frame_of_objects rfl rfl rfl rfl) rfl rfl rfl hgood.accessList ?_
    simp only [JournalEntry.undo, StateDB.view, StateDB.getTransientState, TransientStorage.get_set,
      Function.update_self, Function.update_idem, Function.update_eq_self]
    rfl

theorem steps_addLog (log : Log) : Steps env s (s.addLog log) := by
  refine .of_entry hgood (frame_of_objects rfl rfl rfl rfl) rfl rfl rfl hgood.accessList ?_
  simp only [JournalEntry.undo, StateDB.view, StateDB.addLog, List.append_eq_nil_iff,
    List.cons_ne_nil, and_false, if_false, List.dropLast_concat]
  rfl

theorem steps_addRefund (gas : UInt64) : Steps env s (s.addRefund gas) :=
  .of_entry hgood (frame_of_objects rfl rfl rfl rfl) rfl rfl rfl hgood.accessList rfl

theorem steps_subRefund {gas : UInt64} (hsub : s.subRefund gas = some s') : Steps env s s' := by
  unfold StateDB.subRefund at hsub
  split at hsub
  · simp at hsub
  · cases hsub
    exact .of_entry hgood (frame_of_objects rfl rfl rfl rfl) rfl rfl rfl hgood.accessList rfl

theorem steps_addAddressToAccessList (addr : Address) : Steps env s (s.addAddressToAccessList addr) := by
  unfold StateDB.addAddressToAccessList
  simp only
  split
  · rename_i hadded
    refine .of_entry hgood (frame_of_objects rfl rfl rfl rfl) rfl rfl rfl
      (hgood.accessList.addAddress addr) ?_
    simp only [JournalEntry.undo, StateDB.view, AccessList.deleteAddress_addAddress hadded]
    rfl
  · exact ⟨[], .refl hgood⟩

theorem steps_addSlot {addr : Address} {slot : Hash}
    (hadded : (s.accessList.addSlot addr slot).2 = (false, true)) :
    Steps env s { s.append (.accessListAddSlotChange addr slot) with
      accessList := (s.accessList.addSlot addr slot).1 } := by
  refine .of_entry hgood (frame_of_objects rfl rfl rfl rfl) rfl rfl rfl
    (hgood.accessList.addSlot addr slot) ?_
  have hwf : s.accessList.WellFormed := hgood.accessList
  simp only [JournalEntry.undo, StateDB.view, AccessList.deleteSlot_addSlot hwf hadded,
    Option.map_some]
  rfl

theorem steps_addSlotToAccessList (addr : Address) (slot : Hash) :
    Steps env s (s.addSlotToAccessList addr slot) := by
  cases hlookup : s.accessList.addresses.lookup addr with
  | none =>
    -- the address comes first, and its slot is then a slot of a known address
    have hsteps := steps_addAddressToAccessList hgood addr
    have hknown : s.addAddressToAccessList addr =
        { s.append (.accessListAddAccountChange addr) with
          accessList := (s.accessList.addAddress addr).1 } := by
      simp [StateDB.addAddressToAccessList, AccessList.addAddress, hlookup]
    have hslot : ((s.addAddressToAccessList addr).accessList.addSlot addr slot) =
        (s.accessList.addSlotMap addr slot, false, true) := by
      simp [hknown, AccessList.addAddress, AccessList.addSlot, AccessList.addSlotMap, hlookup,
        Finmap.lookup_insert, Finmap.insert_insert]
    have hadd : s.addSlotToAccessList addr slot =
        { (s.addAddressToAccessList addr).append (.accessListAddSlotChange addr slot) with
          accessList := ((s.addAddressToAccessList addr).accessList.addSlot addr slot).1 } := by
      rw [hslot, hknown]
      simp [StateDB.addSlotToAccessList, AccessList.addSlot, hlookup, StateDB.append]
    rw [hadd]
    exact hsteps.trans (steps_addSlot hsteps.good (by rw [hslot]))
  | some idx =>
    have hknown : (s.accessList.addSlot addr slot).2.1 = false := by
      unfold AccessList.addSlot
      simp only [hlookup]
      split
      · rfl
      · split <;> rfl
    unfold StateDB.addSlotToAccessList
    cases hslot : (s.accessList.addSlot addr slot).2.2 with
    | true =>
      have hsteps := steps_addSlot hgood (Prod.ext hknown hslot)
      simpa [hknown, hslot, StateDB.append] using hsteps
    | false =>
      have hsame : (s.accessList.addSlot addr slot).1 = s.accessList := by
        unfold AccessList.addSlot at hslot ⊢
        simp only [hlookup] at hslot ⊢
        split at hslot
        · simp at hslot
        · rename_i hne
          split at hslot
          · rename_i hmem
            simp [hne, hmem]
          · simp at hslot
      simp only [hknown, hslot, hsame]
      exact ⟨[], .refl hgood⟩

/-- A move is a few journaled changes, each of which its entry undoes. -/
theorem Move.steps (hmove : Move env s s') : Steps env s s' := by
  -- a change to the fields of an object, undone by setting them back
  have hchange : ∀ {addr : Address} {obj changed : StateObject} {entry : JournalEntry}
      {back : AccountView → AccountView}, s.stateObjects.lookup addr = some obj →
      (entry.dirtied = some addr ∨ entry.dirtied = none ∧ obj.account.balance = changed.account.balance) →
      (∀ v, entry.undo env s.ctx.store v = v.updateAccount addr back) →
      back (changed.view env s.ctx.store addr) = obj.view env s.ctx.store addr →
        Steps env s (s.journaled entry addr changed) := by
    intro addr obj changed entry back hlookup hdirtied hundo hback
    have haccount := view_account_of_lookup env hlookup
    refine ⟨_, .journaled hgood (hdirtied.imp_right fun hnone => ⟨hnone.1, ?_⟩) fun dirties => ?_⟩
    · rw [← hnone.2]
      simp only [View.balance, haccount]
      rfl
    · rw [hundo, View.updateAccount_setAccount haccount hback]
  cases hmove with
  | load hlookup hkeeper =>
    refine .of_loads hgood (.setStateObject ?_)
    rw [view_account_of_not_loaded env hlookup, Env.loadedView, hkeeper]
    rfl
  | loadCode hlookup =>
    refine .of_loads hgood (.setStateObject ?_)
    rw [view_account_of_lookup env hlookup, StateObject.view_loadCode]
  | loadState key hlookup =>
    refine .of_loads hgood (.setStateObject ?_)
    rw [view_account_of_lookup env hlookup, (StateObject.getState_spec env _ _ _ key).2]
  | loadCommittedState key hlookup =>
    refine .of_loads hgood (.setStateObject ?_)
    rw [view_account_of_lookup env hlookup, (StateObject.getCommittedState_spec env _ _ _ key).2]
  | create hlookup hkeeper => exact steps_create hgood hlookup hkeeper
  | reset hlookup => exact steps_reset hgood hlookup
  | createContract hlookup hnew =>
    refine hchange hlookup (.inr ⟨rfl, rfl⟩) (fun _ => rfl) ?_
    simp only [StateObject.view, hnew]
    rfl
  | setBalance amount hlookup => exact hchange hlookup (.inl rfl) (fun _ => rfl) rfl
  | setNonce nonce hlookup => exact hchange hlookup (.inl rfl) (fun _ => rfl) rfl
  | @setCode addr obj code hlookup =>
    refine hchange hlookup (.inl rfl) (fun _ => rfl) ?_
    -- the entry holds the loaded code, or none where the keeper has none
    rw [← StateObject.view_loadCode env s.ctx.store addr obj]
    simp only [StateObject.view_setCode, StateObject.loadCode]
    rfl
  | @setState addr obj key value hlookup =>
    obtain ⟨hprev, hview⟩ := StateObject.getState_spec env s.ctx.store addr obj key
    refine hchange hlookup (.inl rfl) (fun _ => rfl) ?_
    rw [← hview] at hprev ⊢
    simp only [StateObject.view_setState, Function.update_idem, hprev, Function.update_eq_self]
  | @auxiliary op _ hop hexec =>
    have htotal : ∀ {t : StateDB σ}, Steps env s t → some t = some s' → Steps env s s' :=
      fun hsteps heq => Option.some.inj heq ▸ hsteps
    cases op with
    | setTransientState addr key value =>
      exact htotal (steps_setTransientState hgood addr key value) hexec
    | addLog log => exact htotal (steps_addLog hgood log) hexec
    | addRefund gas => exact htotal (steps_addRefund hgood gas) hexec
    | subRefund gas => exact steps_subRefund hgood hexec
    | addAddressToAccessList addr => exact htotal (steps_addAddressToAccessList hgood addr) hexec
    | addSlotToAccessList addr slot => exact htotal (steps_addSlotToAccessList hgood addr slot) hexec
    | _ => exact hop.elim

theorem Moves.steps (hmoves : Moves env s s') : Steps env s s' := by
  induction hmoves with
  | refl => exact ⟨[], .refl hgood⟩
  | tail _ hlast ih => exact ih.trans (hlast.steps ih.good)

theorem steps_of_destructs {op : Op σ} (hop : op.Destructs) (hexec : s.exec env op = some s') :
    Steps env s s' := by
  rcases destructs_cases hop hexec with hmoves | ⟨middle, addr, obj, hmoves, hlookup, rfl⟩
  · exact hmoves.steps hgood
  · have hsteps := hmoves.steps hgood
    exact hsteps.trans (steps_destruct hsteps.good hlookup)

end

theorem above_exec {below : SnapshotStack σ} {cache cache' : CacheContext σ} {op : CacheOp σ}
    (habove : SnapshotStack.Above below cache.snapshotter)
    (hexec : op.exec below.layers.length cache = some cache') :
    SnapshotStack.Above below cache'.snapshotter := by
  cases op with
  | write change =>
    cases hexec
    exact habove.put _
  | emitEvents events =>
    cases hexec
    exact habove
  | cacheMultiStore =>
    cases hexec
    exact habove.push _
  | revertBranch depth =>
    obtain ⟨reverted, hrevert, rfl⟩ := Option.map_eq_some_iff.mp hexec
    exact habove.revertTo (by omega) hrevert

theorem above_run {below : SnapshotStack σ} {cache cache' : CacheContext σ} {ops : List (CacheOp σ)}
    (habove : SnapshotStack.Above below cache.snapshotter)
    (hrun : CacheOp.run below.layers.length cache ops = some cache') :
    SnapshotStack.Above below cache'.snapshotter := by
  induction ops generalizing cache with
  | nil =>
    cases hrun
    exact habove
  | cons op ops ih =>
    obtain ⟨middle, hexec, hrest⟩ := Option.bind_eq_some_iff.mp hrun
    exact ih (above_exec habove hexec) hrest

theorem recordPrecompileCall_eq (s : StateDB σ) : ∃ counter, (s.recordPrecompileCall).2 =
    { s.append (.precompileCallChange s.getCacheContext.1.snapshotter.layers.length
        s.getCacheContext.1.events) with
      cache := some { s.getCacheContext.1 with
        snapshotter := s.getCacheContext.1.snapshotter.snapshot }
      precompileCallsCounter := counter } := by
  refine ⟨s.precompileCallsCounter + 1, ?_⟩
  unfold StateDB.recordPrecompileCall StateDB.addPrecompileFn
  simp only
  split <;> rfl

theorem steps_of_cache {counter : UInt8} {cache : CacheContext σ} (hgood : s.Good env)
    (habove : SnapshotStack.Above s.getCacheContext.1.snapshotter cache.snapshotter) :
    Steps env s { s.append (.precompileCallChange s.getCacheContext.1.snapshotter.layers.length
        s.getCacheContext.1.events) with
      cache := some cache
      precompileCallsCounter := counter } := by
  refine .of_entry hgood (frame_of_objects rfl rfl rfl rfl) rfl rfl rfl hgood.accessList ?_
  have hrevert := habove.revertTo_eq
  simp only [JournalEntry.undo, StateDB.view, StateDB.getCacheContext, StateDB.append,
    Option.getD_some] at hrevert ⊢
  rw [hrevert]
  rfl

theorem runPrecompile_cases (env : Env σ) (s : StateDB σ) (body : Context σ → Except Err (Context σ)) :
    ∃ counter cache, (s.runPrecompile env body).2 =
        { s.append (.precompileCallChange s.getCacheContext.1.snapshotter.layers.length
            s.getCacheContext.1.events) with
          cache := some cache
          precompileCallsCounter := counter } ∧
      SnapshotStack.Above s.getCacheContext.1.snapshotter cache.snapshotter ∧
      ((s.runPrecompile env body).1 ≠ none ∧
          cache.snapshotter.current = s.getCacheContext.1.snapshotter.current ∨
        ∃ committed ctx, s.commitWithCtx env s.cacheCtx = .ok committed ∧ body committed = .ok ctx ∧
          (s.runPrecompile env body).1 = none ∧ cache.snapshotter.current = ctx.store) := by
  have hself := SnapshotStack.Above.push_self s.getCacheContext.1.snapshotter
    s.getCacheContext.1.snapshotter.current
  obtain ⟨counter, hrecorded⟩ := recordPrecompileCall_eq s
  have hkept := SnapshotStack.current_snapshot s.getCacheContext.1.snapshotter
  unfold StateDB.runPrecompile
  rcases hrecord : s.recordPrecompileCall with ⟨err, recorded⟩
  rw [hrecord] at hrecorded
  simp only at hrecorded
  subst hrecorded
  cases err with
  | some err => exact ⟨counter, _, rfl, hself, .inl ⟨Option.some_ne_none err, hkept⟩⟩
  | none =>
    simp only
    split
    · rename_i err _
      exact ⟨counter, _, rfl, hself, .inl ⟨Option.some_ne_none err, hkept⟩⟩
    rename_i done hdone
    obtain ⟨committed, hcommitted, hdone⟩ := Result.bind_eq_ok_iff.mp hdone
    obtain ⟨ctx, hbody, hdone⟩ := Result.bind_eq_ok_iff.mp hdone
    obtain ⟨written, hwritten, hcommitted⟩ := Result.bind_eq_ok_iff.mp hcommitted
    cases hcommitted
    cases hdone
    refine ⟨counter, _, rfl, (hself.put written.store).put ctx.store, .inr ⟨written, ctx, ?_, ?_, rfl, ?_⟩⟩
    · rw [← hwritten]
      change _ = s.commitWithCtx env ⟨s.getCacheContext.1.snapshotter.snapshot.current, _⟩
      rw [hkept]
      rfl
    · rw [← hbody]
      change _ = body ⟨(SnapshotStack.put _ written.store).current, written.events⟩
      rw [SnapshotStack.current_put]
    · exact SnapshotStack.current_put _ _

theorem steps_runPrecompile (hgood : s.Good env) (body : Context σ → Except Err (Context σ)) :
    Steps env s (s.runPrecompile env body).2 := by
  obtain ⟨counter, cache, hcall, habove, -⟩ := runPrecompile_cases env s body
  rw [hcall]
  exact steps_of_cache hgood habove

theorem steps_precompileCall {body : List (CacheOp σ)} (hgood : s.Good env)
    (hcall : s.precompileCall body = some s') : Steps env s s' := by
  have hself := SnapshotStack.Above.push_self s.getCacheContext.1.snapshotter
    s.getCacheContext.1.snapshotter.current
  obtain ⟨counter, hrecorded⟩ := recordPrecompileCall_eq s
  unfold StateDB.precompileCall at hcall
  rcases hrecord : s.recordPrecompileCall with ⟨err, recorded⟩
  rw [hrecord] at hrecorded hcall
  simp only at hrecorded
  subst hrecorded
  cases err with
  | some err =>
    cases hcall
    exact steps_of_cache hgood hself
  | none =>
    obtain ⟨cache, hrun, rfl⟩ := Option.map_eq_some_iff.mp hcall
    exact steps_of_cache hgood (above_run hself hrun)

end CosmosEvm.Statedb
