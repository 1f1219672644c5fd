import CosmosEvm.Statedb.Moves

/-!
# What a StateDB shows

A StateDB seen without its caches: for every account what its object says or, before one is loaded, what the
keeper says.
-/

namespace CosmosEvm.Statedb

variable {σ : Type}

structure AccountView where
  nonce : UInt64
  balance : BitVec 256
  codeHash : Hash
  code : Option Bytes
  selfDestructed : Bool
  newContract : Bool
  committed : Hash → Hash
  state : Hash → Hash

structure View (σ : Type) where
  account : Address → Option AccountView
  transient : Address → Hash → Hash
  accessList : AccessList
  logs : List Log
  refund : UInt64
  cache : SnapshotStack σ
  dirties : Dirties

def StateObject.committed (env : Env σ) (store : σ) (addr : Address) (obj : StateObject) (key : Hash) :
    Hash :=
  (obj.originStorage.lookup key).getD (env.keeper.getState store addr key)

def StateObject.view (env : Env σ) (store : σ) (addr : Address) (obj : StateObject) : AccountView where
  nonce := obj.account.nonce
  balance := obj.account.balance
  codeHash := obj.account.codeHash
  code := resolveCode env store obj.code obj.account.codeHash
  selfDestructed := obj.selfDestructed
  newContract := obj.newContract
  committed := obj.committed env store addr
  state key := (obj.dirtyStorage.lookup key).getD (obj.committed env store addr key)

def Env.loadedView (env : Env σ) (store : σ) (addr : Address) : Option AccountView :=
  (env.keeper.getAccount store addr).map fun account => (newObject account).view env store addr

def StateDB.view (env : Env σ) (s : StateDB σ) : View σ where
  account addr :=
    match s.stateObjects.lookup addr with
    | some obj => some (obj.view env s.ctx.store addr)
    | none => env.loadedView s.ctx.store addr
  transient := s.transientStorage.get
  accessList := s.accessList
  logs := s.logs
  refund := s.refund
  cache := s.getCacheContext.1.snapshotter
  dirties := s.journal.dirties

namespace View

def setAccount (v : View σ) (addr : Address) (account : Option AccountView) : View σ :=
  { v with account := Function.update v.account addr account }

def updateAccount (v : View σ) (addr : Address) (change : AccountView → AccountView) :
    Option (View σ) :=
  (v.account addr).map fun account => v.setAccount addr (some (change account))

@[simp]
theorem setAccount_account_self (v : View σ) (addr : Address) (account : Option AccountView) :
    (v.setAccount addr account).account addr = account := by
  simp [setAccount]

theorem setAccount_account_of_ne (v : View σ) {addr other : Address} (account : Option AccountView)
    (hne : other ≠ addr) : (v.setAccount addr account).account other = v.account other := by
  simp [setAccount, Function.update_of_ne hne]

theorem setAccount_eq_self (v : View σ) {addr : Address} {account : Option AccountView}
    (haccount : v.account addr = account) : v.setAccount addr account = v := by
  subst haccount
  simp [setAccount]

end View

/-- What a journal entry restores, on the view. Dropping a created object leaves no account only where
the keeper has none. -/
def JournalEntry.undo (env : Env σ) (store : σ) (v : View σ) : JournalEntry → Option (View σ)
  | .createObjectChange account =>
    if (env.loadedView store account).isNone then some (v.setAccount account none) else none
  | .resetObjectChange account prev =>
    some (v.setAccount account (some (prev.view env store account)))
  | .selfDestructChange account prev prevbalance =>
    some (v.setAccount account ((v.account account).map fun old =>
      { old with selfDestructed := prev, balance := prevbalance }))
  | .balanceChange account prev => v.updateAccount account fun old => { old with balance := prev }
  | .nonceChange account prev => v.updateAccount account fun old => { old with nonce := prev }
  | .storageChange account key prevalue =>
    v.updateAccount account fun old => { old with state := Function.update old.state key prevalue }
  | .transientStorageChange account key prevalue =>
    let storage := Function.update (v.transient account) key prevalue
    some { v with transient := Function.update v.transient account storage }
  | .codeChange account prevcode prevhash => v.updateAccount account fun old =>
    { old with
      codeHash := prevhash
      code := StateObject.resolveCode env store prevcode prevhash }
  | .refundChange prev => some { v with refund := prev }
  | .addLogChange => if v.logs = [] then none else some { v with logs := v.logs.dropLast }
  | .accessListAddAccountChange address =>
    some { v with accessList := v.accessList.deleteAddress address }
  | .accessListAddSlotChange address slot =>
    (v.accessList.deleteSlot address slot).map fun accessList => { v with accessList }
  | .precompileCallChange snapshot _ =>
    (v.cache.revertTo snapshot).map fun cache => { v with cache }
  | .createContractChange account =>
    v.updateAccount account fun old => { old with newContract := false }

def View.undoEntry (env : Env σ) (store : σ) (entry : JournalEntry) (v : View σ) :
    Option (View σ) :=
  (entry.undo env store v).map fun v => { v with dirties := v.dirties.decrement entry.dirtied }

section Load

variable {env : Env σ} {s : StateDB σ} {addr : Address}

theorem view_setStateObject (obj : StateObject) :
    (s.setStateObject addr obj).view env =
      (s.view env).setAccount addr (some (obj.view env s.ctx.store addr)) := by
  have haccount : ((s.setStateObject addr obj).view env).account =
      Function.update (s.view env).account addr (some (obj.view env s.ctx.store addr)) := by
    funext other
    by_cases heq : other = addr
    · subst heq
      simp [StateDB.view, StateDB.setStateObject, Finmap.lookup_insert]
    · simp [StateDB.view, StateDB.setStateObject, Finmap.lookup_insert_of_ne _ heq,
        Function.update_of_ne heq]
  unfold View.setAccount
  rw [← haccount]
  rfl

theorem view_account_of_lookup (env : Env σ) {obj : StateObject} (hlookup : s.stateObjects.lookup addr = some obj) :
    (s.view env).account addr = some (obj.view env s.ctx.store addr) := by
  simp only [StateDB.view, hlookup]

theorem view_account_of_not_loaded (env : Env σ) (hlookup : s.stateObjects.lookup addr = none) :
    (s.view env).account addr = env.loadedView s.ctx.store addr := by
  simp only [StateDB.view, hlookup]

structure Loads (env : Env σ) (s s' : StateDB σ) : Prop where
  view_eq : s'.view env = s.view env
  frame : s' = { s with stateObjects := s'.stateObjects }
  keeps : ∀ addr, addr ∈ s.stateObjects → addr ∈ s'.stateObjects

theorem Loads.refl (s : StateDB σ) : Loads env s s := ⟨rfl, rfl, fun _ h => h⟩

theorem Loads.trans {middle s' : StateDB σ} (hfirst : Loads env s middle)
    (hsecond : Loads env middle s') : Loads env s s' where
  view_eq := hsecond.view_eq.trans hfirst.view_eq
  frame := by rw [hsecond.frame, hfirst.frame]
  keeps addr hmem := hsecond.keeps addr (hfirst.keeps addr hmem)

theorem Loads.ctx_eq {s' : StateDB σ} (hloads : Loads env s s') : s'.ctx = s.ctx := by
  rw [hloads.frame]

theorem Loads.setStateObject {obj : StateObject}
    (hsame : (s.view env).account addr = some (obj.view env s.ctx.store addr)) :
    Loads env s (s.setStateObject addr obj) where
  view_eq := by rw [view_setStateObject, View.setAccount_eq_self _ hsame]
  frame := rfl
  keeps other hmem := Finmap.mem_insert.mpr (.inr hmem)

theorem getStateObject_spec (env : Env σ) (s : StateDB σ) (addr : Address) :
    Loads env s (s.getStateObject env addr).2 ∧
      (s.getStateObject env addr).1.map (StateObject.view env s.ctx.store addr) =
        (s.view env).account addr ∧
      (s.getStateObject env addr).2.stateObjects.lookup addr = (s.getStateObject env addr).1 := by
  unfold StateDB.getStateObject
  cases hlookup : s.stateObjects.lookup addr with
  | some obj => exact ⟨.refl s, (view_account_of_lookup env hlookup).symm, hlookup⟩
  | none =>
    have haccount := view_account_of_not_loaded env hlookup
    unfold Env.loadedView at haccount
    cases hload : env.keeper.getAccount s.ctx.store addr with
    | none =>
      rw [hload] at haccount
      exact ⟨.refl s, haccount.symm, hlookup⟩
    | some account =>
      rw [hload] at haccount
      refine ⟨.setStateObject haccount, haccount.symm, ?_⟩
      exact Finmap.lookup_insert _

end Load

namespace StateObject

variable (env : Env σ) (store : σ) (addr : Address) (obj : StateObject)

theorem resolveCode_resolveCode (code : Option Bytes) (codeHash : Hash) :
    resolveCode env store (resolveCode env store code codeHash) codeHash =
      resolveCode env store code codeHash := by
  cases code with
  | some code => rfl
  | none =>
    by_cases hempty : codeHash = env.emptyCodeHash
    · simp [resolveCode, hempty]
    · cases hcode : env.keeper.getCode store codeHash with
      | none => simp [resolveCode, hempty, hcode]
      | some code => simp [resolveCode, hempty, hcode]

theorem view_loadCode : (obj.loadCode env store).2.view env store addr = obj.view env store addr := by
  simp only [view, loadCode, resolveCode_resolveCode]
  rfl

theorem getCommittedState_spec (key : Hash) :
    (obj.getCommittedState env store addr key).1 = obj.committed env store addr key ∧
      (obj.getCommittedState env store addr key).2.view env store addr = obj.view env store addr := by
  unfold getCommittedState
  cases hlookup : obj.originStorage.lookup key with
  | some value => simp [committed, hlookup]
  | none =>
    let origin := obj.originStorage.insert key (env.keeper.getState store addr key)
    have hcommitted : committed env store addr { obj with originStorage := origin } =
        obj.committed env store addr := by
      funext other
      by_cases heq : other = key
      · subst heq
        simp [committed, origin, hlookup, Finmap.lookup_insert]
      · simp [committed, origin, Finmap.lookup_insert_of_ne _ heq]
    constructor
    · simp [committed, hlookup]
    · unfold view
      rw [hcommitted]

theorem getState_spec (key : Hash) :
    (obj.getState env store addr key).1 = (obj.view env store addr).state key ∧
      (obj.getState env store addr key).2.view env store addr = obj.view env store addr := by
  unfold getState
  cases hlookup : obj.dirtyStorage.lookup key with
  | some value => simp [view, hlookup]
  | none =>
    obtain ⟨hvalue, hview⟩ := getCommittedState_spec env store addr obj key
    refine ⟨?_, hview⟩
    simp [hvalue, view, hlookup]

theorem view_setState (key value : Hash) :
    (obj.setState key value).view env store addr =
      { obj.view env store addr with
        state := Function.update (obj.view env store addr).state key value } := by
  have hstate : ((obj.setState key value).view env store addr).state =
      Function.update (obj.view env store addr).state key value := by
    funext other
    by_cases heq : other = key
    · subst heq
      simp [view, setState, Finmap.lookup_insert]
    · simp [view, setState, Finmap.lookup_insert_of_ne _ heq, Function.update_of_ne heq, committed]
  rw [← hstate]
  rfl

theorem view_setNonce (nonce : UInt64) :
    (obj.setNonce nonce).view env store addr = { obj.view env store addr with nonce := nonce } := rfl

theorem view_setCode (codeHash : Hash) (code : Option Bytes) :
    (obj.setCode codeHash code).view env store addr =
      { obj.view env store addr with
        codeHash := codeHash
        code := resolveCode env store code codeHash } := rfl

end StateObject

section Revert

variable {env : Env σ} {s : StateDB σ} {addr : Address}

theorem getStateObject_cases (env : Env σ) (s : StateDB σ) (addr : Address) :
    (∃ s', s.getStateObject env addr = (none, s') ∧ (s.view env).account addr = none ∧
      Loads env s s') ∨
    ∃ obj s', s.getStateObject env addr = (some obj, s') ∧ Loads env s s' ∧
      (s.view env).account addr = some (obj.view env s.ctx.store addr) ∧
      s'.stateObjects.lookup addr = some obj := by
  obtain ⟨hloads, haccount, hlookup⟩ := getStateObject_spec env s addr
  rcases hget : s.getStateObject env addr with ⟨obj, s'⟩
  rw [hget] at hloads haccount hlookup
  cases obj with
  | none => exact .inl ⟨s', rfl, haccount.symm, hloads⟩
  | some obj => exact .inr ⟨obj, s', rfl, hloads, haccount.symm, hlookup⟩

theorem view_updateStateObject {change : StateObject → StateObject}
    {changeView : AccountView → AccountView}
    (hchange : ∀ obj : StateObject, (change obj).view env s.ctx.store addr =
      changeView (obj.view env s.ctx.store addr)) :
    (s.updateStateObject env addr change).map (StateDB.view env) =
      (s.view env).updateAccount addr changeView := by
  unfold StateDB.updateStateObject View.updateAccount
  rcases getStateObject_cases env s addr with ⟨s', hget, haccount, _⟩ |
    ⟨obj, s', hget, hloads, haccount, _⟩
  · simp [hget, haccount]
  · simp only [hget, haccount, Option.map_some]
    rw [view_setStateObject, hloads.view_eq, hloads.ctx_eq, hchange]

theorem view_erase : StateDB.view env { s with stateObjects := s.stateObjects.erase addr } =
    (s.view env).setAccount addr (env.loadedView s.ctx.store addr) := by
  have haccount : (StateDB.view env { s with stateObjects := s.stateObjects.erase addr }).account =
      Function.update (s.view env).account addr (env.loadedView s.ctx.store addr) := by
    funext other
    by_cases heq : other = addr
    · subst heq
      simp [StateDB.view, Finmap.lookup_erase]
    · simp [StateDB.view, Finmap.lookup_erase_ne heq, Function.update_of_ne heq]
  unfold View.setAccount
  rw [← haccount]
  rfl

/-- Reverting an entry on the StateDB is undoing it on the view. -/
theorem view_revert {entry : JournalEntry} {v : View σ}
    (hundo : entry.undo env s.ctx.store (s.view env) = some v) :
    (entry.revert env s).map (StateDB.view env) = some v := by
  rw [← hundo]
  cases entry with
  | createObjectChange account =>
    simp only [JournalEntry.undo] at hundo ⊢
    split at hundo
    · rename_i hnone
      simp [JournalEntry.revert, view_erase, Option.isNone_iff_eq_none.mp hnone]
    · simp at hundo
  | resetObjectChange account prev =>
    simp only [JournalEntry.revert, Option.map_some, view_setStateObject]
    rfl
  | selfDestructChange account prev prevbalance =>
    simp only [JournalEntry.revert, JournalEntry.undo]
    rcases getStateObject_cases env s account with ⟨s', hget, haccount, hloads⟩ |
      ⟨obj, s', hget, hloads, haccount, _⟩
    · simp [hget, haccount, hloads.view_eq, View.setAccount_eq_self]
    · simp only [hget, haccount, Option.map_some]
      rw [view_setStateObject, hloads.view_eq, hloads.ctx_eq]
      rfl
  | balanceChange account prev => exact view_updateStateObject fun _ => rfl
  | nonceChange account prev => exact view_updateStateObject fun _ => rfl
  | storageChange account key prevalue =>
    exact view_updateStateObject fun obj => StateObject.view_setState _ _ _ obj key prevalue
  | transientStorageChange account key prevalue =>
    simp only [JournalEntry.revert, JournalEntry.undo, Option.map_some, StateDB.view,
      TransientStorage.get_set]
    rfl
  | codeChange account prevcode prevhash => exact view_updateStateObject fun _ => rfl
  | refundChange prev => rfl
  | addLogChange =>
    by_cases hlogs : s.logs = []
    · simp [JournalEntry.revert, JournalEntry.undo, StateDB.view, hlogs]
    · simp only [JournalEntry.revert, JournalEntry.undo, StateDB.view, hlogs, if_false,
        Option.map_some]
      rfl
  | accessListAddAccountChange address => rfl
  | accessListAddSlotChange address slot =>
    simp only [JournalEntry.revert, JournalEntry.undo, Option.map_map]
    rfl
  | precompileCallChange snapshot events =>
    simp only [JournalEntry.revert, JournalEntry.undo, StateDB.revertMultiStore]
    cases hcache : s.cache with
    | none => simp [StateDB.view, StateDB.getCacheContext, hcache, SnapshotStack.revertTo]
    | some cache =>
      simp only [Option.map_map, StateDB.view, StateDB.getCacheContext, hcache, Option.getD_some]
      rfl
  | createContractChange account => exact view_updateStateObject fun _ => rfl

end Revert

section Observe

variable (env : Env σ) (s : StateDB σ) (addr : Address)

theorem getStateObject_map {α : Type} {read : StateObject → α} {readView : AccountView → α}
    (hread : ∀ obj : StateObject, read obj = readView (obj.view env s.ctx.store addr)) :
    (s.getStateObject env addr).1.map read = ((s.view env).account addr).map readView := by
  rw [← (getStateObject_spec env s addr).2.1, Option.map_map]
  cases (s.getStateObject env addr).1 with
  | none => rfl
  | some obj => exact congrArg some (hread obj)

theorem getCode_spec : (s.getCode env addr).1 = ((s.view env).account addr).bind (·.code) ∧
    Loads env s (s.getCode env addr).2 := by
  unfold StateDB.getCode
  rcases getStateObject_cases env s addr with ⟨s', hget, haccount, hloads⟩ |
    ⟨obj, s', hget, hloads, haccount, _⟩
  · simp only [hget, haccount]
    exact ⟨rfl, hloads⟩
  · simp only [hget, haccount]
    refine ⟨by rw [hloads.ctx_eq]; rfl, hloads.trans (.setStateObject ?_)⟩
    rw [StateObject.view_loadCode, hloads.view_eq, haccount, hloads.ctx_eq]

theorem getState_spec (key : Hash) :
    (s.getState env addr key).1 = (((s.view env).account addr).map (·.state key)).getD zeroHash ∧
      Loads env s (s.getState env addr key).2 := by
  unfold StateDB.getState
  rcases getStateObject_cases env s addr with ⟨s', hget, haccount, hloads⟩ |
    ⟨obj, s', hget, hloads, haccount, _⟩
  · simp only [hget, haccount]
    exact ⟨rfl, hloads⟩
  · obtain ⟨hvalue, hview⟩ := StateObject.getState_spec env s'.ctx.store addr obj key
    simp only [hget, haccount]
    refine ⟨by rw [hvalue, hloads.ctx_eq]; rfl, hloads.trans (.setStateObject ?_)⟩
    rw [hview, hloads.view_eq, haccount, hloads.ctx_eq]

theorem getCommittedState_spec (key : Hash) :
    (s.getCommittedState env addr key).1 =
        (((s.view env).account addr).map (·.committed key)).getD zeroHash ∧
      Loads env s (s.getCommittedState env addr key).2 := by
  unfold StateDB.getCommittedState
  rcases getStateObject_cases env s addr with ⟨s', hget, haccount, hloads⟩ |
    ⟨obj, s', hget, hloads, haccount, _⟩
  · simp only [hget, haccount]
    exact ⟨rfl, hloads⟩
  · obtain ⟨hvalue, hview⟩ := StateObject.getCommittedState_spec env s'.ctx.store addr obj key
    simp only [hget, haccount]
    refine ⟨by rw [hvalue, hloads.ctx_eq]; rfl, hloads.trans (.setStateObject ?_)⟩
    rw [hview, hloads.view_eq, haccount, hloads.ctx_eq]

def View.observe (env : Env σ) (v : View σ) : Observations σ where
  exist addr := (v.account addr).isSome
  empty addr := (v.account addr).all fun account =>
    account.nonce = 0 && account.balance = 0 && account.codeHash = env.emptyCodeHash
  balance addr := ((v.account addr).map (·.balance)).getD 0
  nonce addr := ((v.account addr).map (·.nonce)).getD 0
  code addr := (v.account addr).bind (·.code)
  codeSize addr := (((v.account addr).bind (·.code)).map List.length).getD 0
  codeHash addr := ((v.account addr).map (·.codeHash)).getD zeroHash
  selfDestructed addr := (v.account addr).any (·.selfDestructed)
  state addr key := ((v.account addr).map (·.state key)).getD zeroHash
  committedState addr key := ((v.account addr).map (·.committed key)).getD zeroHash
  transientState := v.transient
  addressInAccessList := v.accessList.containsAddress
  slotInAccessList := v.accessList.contains
  logs := v.logs
  refund := v.refund
  cacheStore := v.cache.current
  sortedDirties := FixedBytes.sorted v.dirties.keys

theorem observe_eq : s.observe env = (s.view env).observe env := by
  have hread : ∀ {α : Type} (addr : Address) (read : StateObject → α) (readView : AccountView → α),
      (∀ obj : StateObject, read obj = readView (obj.view env s.ctx.store addr)) →
        (s.getStateObject env addr).1.map read = ((s.view env).account addr).map readView :=
    fun addr _ _ => getStateObject_map env s addr
  unfold StateDB.observe View.observe
  congr 1
  · funext addr
    have h := congrArg Option.isSome (hread addr (fun _ => ()) (fun _ => ()) fun _ => rfl)
    simpa [StateDB.exist] using h
  · funext addr
    have h := congrArg (Option.all id) (hread addr (StateObject.empty env)
      (fun account => account.nonce = 0 && account.balance = 0 &&
        account.codeHash = env.emptyCodeHash) fun _ => rfl)
    simpa [Option.all_map, StateDB.empty] using h
  · funext addr
    exact congrArg (Option.getD · 0) (hread addr _ (·.balance) fun _ => rfl)
  · funext addr
    exact congrArg (Option.getD · 0) (hread addr _ (·.nonce) fun _ => rfl)
  · funext addr
    exact (getCode_spec env s addr).1
  · funext addr
    simp only [StateDB.getCodeSize, (getCode_spec env s addr).1]
  · funext addr
    exact congrArg (Option.getD · zeroHash) (hread addr _ (·.codeHash) fun _ => rfl)
  · funext addr
    have h := congrArg (Option.any id) (hread addr (·.selfDestructed) (·.selfDestructed) fun _ => rfl)
    simpa [Option.any_map, StateDB.hasSelfDestructed] using h
  · funext addr key
    exact (getState_spec env s addr key).1
  · funext addr key
    exact (getCommittedState_spec env s addr key).1

end Observe

end CosmosEvm.Statedb
