import CosmosEvm.Statedb.Revert

namespace CosmosEvm.Statedb

variable {σ : Type} {env : Env σ} {s s' : StateDB σ} {store : σ} {addr : Address}

/-- The operation neither reverts anything nor calls a precompile. -/
def Op.Onward : Op σ → Prop
  | .revertToSnapshot _ | .precompileCall _ => False
  | _ => True

open StateObject in
structure StateObject.Coherent (env : Env σ) (store : σ) (addr : Address) (obj : StateObject) : Prop where
  origin : ∀ {key value}, obj.originStorage.lookup key = some value →
    value = env.keeper.getState store addr key
  codeHash_of_dirty : obj.dirtyCode = true → obj.account.codeHash = env.keccak256 (obj.code.getD [])
  code_of_clean : obj.dirtyCode = false →
    resolveCode env store obj.code obj.account.codeHash =
      resolveCode env store none obj.account.codeHash
  codeHash_of_clean : obj.dirtyCode = false → obj.account.codeHash = env.emptyCodeHash ∨
    ∃ account, env.keeper.getAccount store addr = some account ∧
      obj.account.codeHash = account.codeHash

structure StateObject.Clean (env : Env σ) (store : σ) (addr : Address) (obj : StateObject) : Prop where
  account : ∃ account, env.keeper.getAccount store addr = some account
  dirtyStorage_eq : obj.dirtyStorage = ∅
  dirtyCode_eq : obj.dirtyCode = false
  selfDestructed_eq : obj.selfDestructed = false

structure Coherent (env : Env σ) (s : StateDB σ) : Prop where
  cache_eq : s.cache = none
  object : ∀ {addr obj}, s.stateObjects.lookup addr = some obj → obj.Coherent env s.ctx.store addr
  clean : ∀ {addr obj}, s.stateObjects.lookup addr = some obj → addr ∉ s.journal.dirties →
    obj.Clean env s.ctx.store addr

namespace StateObject

variable {obj : StateObject}

theorem coherent_newObject {account : Account}
    (hcodeHash : account.codeHash = env.emptyCodeHash ∨ ∃ account',
      env.keeper.getAccount store addr = some account' ∧ account.codeHash = account'.codeHash) :
    (newObject account).Coherent env store addr where
  origin hlookup := by simp [newObject] at hlookup
  codeHash_of_dirty hdirty := by simp [newObject] at hdirty
  code_of_clean _ := rfl
  codeHash_of_clean _ := hcodeHash

theorem Coherent.loadCode (hobj : obj.Coherent env store addr) :
    (obj.loadCode env store).2.Coherent env store addr where
  origin := hobj.origin
  codeHash_of_dirty hdirty := by
    change obj.account.codeHash = env.keccak256 ((resolveCode env store obj.code _).getD [])
    have hhash := hobj.codeHash_of_dirty hdirty
    cases hcode : obj.code with
    | some code => rw [hhash, hcode]; rfl
    | none =>
      -- no code was set, so the hash is that of the empty code and nothing is looked up
      have hempty : obj.account.codeHash = env.emptyCodeHash := by rw [hhash, hcode]; rfl
      simp [resolveCode, hempty, Env.emptyCodeHash]
  code_of_clean hclean := by
    change resolveCode env store (resolveCode env store obj.code obj.account.codeHash)
      obj.account.codeHash = _
    rw [resolveCode_resolveCode]
    exact hobj.code_of_clean hclean
  codeHash_of_clean := hobj.codeHash_of_clean

theorem Coherent.getCommittedState (hobj : obj.Coherent env store addr) (key : Hash) :
    (obj.getCommittedState env store addr key).2.Coherent env store addr := by
  unfold StateObject.getCommittedState
  split
  · exact hobj
  · refine ⟨fun {other value} hlookup => ?_, hobj.codeHash_of_dirty, hobj.code_of_clean,
      hobj.codeHash_of_clean⟩
    by_cases heq : other = key
    · subst heq
      rw [Finmap.lookup_insert] at hlookup
      exact (Option.some.inj hlookup).symm
    · rw [Finmap.lookup_insert_of_ne _ heq] at hlookup
      exact hobj.origin hlookup

theorem Coherent.getState (hobj : obj.Coherent env store addr) (key : Hash) :
    (obj.getState env store addr key).2.Coherent env store addr := by
  unfold StateObject.getState
  split
  · exact hobj
  · exact hobj.getCommittedState key

theorem Coherent.congr {obj' : StateObject} (hobj : obj.Coherent env store addr)
    (horigin : obj'.originStorage = obj.originStorage) (hcode : obj'.code = obj.code)
    (hdirty : obj'.dirtyCode = obj.dirtyCode) (hhash : obj'.account.codeHash = obj.account.codeHash) :
    obj'.Coherent env store addr := by
  refine ⟨?_, ?_, ?_, ?_⟩
  · rw [horigin]
    exact hobj.origin
  · rw [hcode, hdirty, hhash]
    exact hobj.codeHash_of_dirty
  · rw [hcode, hdirty, hhash]
    exact hobj.code_of_clean
  · rw [hdirty, hhash]
    exact hobj.codeHash_of_clean

theorem Coherent.setCode (hobj : obj.Coherent env store addr) (code : Option Bytes) :
    (obj.setCode (env.keccak256 (code.getD [])) code).Coherent env store addr where
  origin := hobj.origin
  codeHash_of_dirty _ := rfl
  code_of_clean hclean := by simp [StateObject.setCode] at hclean
  codeHash_of_clean hclean := by simp [StateObject.setCode] at hclean

theorem Clean.getCommittedState (hobj : obj.Clean env store addr) (key : Hash) :
    (obj.getCommittedState env store addr key).2.Clean env store addr := by
  unfold StateObject.getCommittedState
  split
  · exact hobj
  · exact ⟨hobj.account, hobj.dirtyStorage_eq, hobj.dirtyCode_eq, hobj.selfDestructed_eq⟩

theorem Clean.getState (hobj : obj.Clean env store addr) (key : Hash) :
    (obj.getState env store addr key).2.Clean env store addr := by
  unfold StateObject.getState
  split
  · exact hobj
  · exact hobj.getCommittedState key

end StateObject

theorem Coherent.setStateObject (hcoherent : Coherent env s) {obj : StateObject}
    (hobj : obj.Coherent env s.ctx.store addr)
    (hclean : addr ∉ s.journal.dirties → obj.Clean env s.ctx.store addr) :
    Coherent env (s.setStateObject addr obj) := by
  refine ⟨hcoherent.cache_eq, fun {other found} hlookup => ?_, fun {other found} hlookup hmem => ?_⟩
  all_goals
    by_cases heq : other = addr
    · subst heq
      rw [StateDB.setStateObject, Finmap.lookup_insert] at hlookup
      cases hlookup
      first | exact hobj | exact hclean hmem
    · rw [StateDB.setStateObject, Finmap.lookup_insert_of_ne _ heq] at hlookup
      first | exact hcoherent.object hlookup | exact hcoherent.clean hlookup hmem

theorem Coherent.append (hcoherent : Coherent env s) (entry : JournalEntry) :
    Coherent env (s.append entry) where
  cache_eq := hcoherent.cache_eq
  object := hcoherent.object
  clean hlookup hmem := hcoherent.clean hlookup fun hdirty =>
    hmem (Dirties.mem_increment.mpr (.inr hdirty))

theorem Coherent.journaled (hcoherent : Coherent env s) {entry : JournalEntry} {obj : StateObject}
    (hentry : entry.dirtied = some addr) (hobj : obj.Coherent env s.ctx.store addr) :
    Coherent env (s.journaled entry addr obj) :=
  (hcoherent.append entry).setStateObject hobj fun hmem =>
    absurd (Dirties.mem_increment.mpr (.inl hentry)) hmem

/-- A clean object shows what the keeper has: whatever changes an object makes it dirty. -/
theorem Coherent.move (hcoherent : Coherent env s) (hmove : Move env s s') : Coherent env s' := by
  cases hmove with
  | load hlookup haccount =>
    exact hcoherent.setStateObject (StateObject.coherent_newObject (.inr ⟨_, haccount, rfl⟩))
      fun _ => ⟨⟨_, haccount⟩, rfl, rfl, rfl⟩
  | loadCode hlookup =>
    have hobj := hcoherent.object hlookup
    refine hcoherent.setStateObject hobj.loadCode fun hmem => ?_
    have hclean := hcoherent.clean hlookup hmem
    exact ⟨hclean.account, hclean.dirtyStorage_eq, hclean.dirtyCode_eq, hclean.selfDestructed_eq⟩
  | loadState key hlookup =>
    have hobj := hcoherent.object hlookup
    exact hcoherent.setStateObject (hobj.getState key) fun hmem =>
      (hcoherent.clean hlookup hmem).getState key
  | loadCommittedState key hlookup =>
    have hobj := hcoherent.object hlookup
    exact hcoherent.setStateObject (hobj.getCommittedState key) fun hmem =>
      (hcoherent.clean hlookup hmem).getCommittedState key
  | create _ _ => exact hcoherent.journaled rfl (StateObject.coherent_newObject (.inl rfl))
  | reset hlookup =>
    -- the entry does not make the address dirty
    have hnew : ∀ balance addr,
        ((newObject env.emptyAccount).setBalance balance).Coherent env s.ctx.store addr :=
      fun _ _ => StateObject.coherent_newObject (.inl rfl)
    refine (hcoherent.append _).setStateObject (hnew _ _) fun hmem => ?_
    exact ⟨(hcoherent.clean hlookup hmem).account, rfl, rfl, rfl⟩
  | createContract hlookup _ =>
    have hobj := hcoherent.object hlookup
    refine (hcoherent.append _).setStateObject (hobj.congr rfl rfl rfl rfl) fun hmem => ?_
    have hclean := hcoherent.clean hlookup fun hdirty => hmem (Dirties.mem_increment.mpr (.inr hdirty))
    exact ⟨hclean.account, hclean.dirtyStorage_eq, hclean.dirtyCode_eq, hclean.selfDestructed_eq⟩
  | setBalance amount hlookup =>
    exact hcoherent.journaled rfl ((hcoherent.object hlookup).congr rfl rfl rfl rfl)
  | setNonce nonce hlookup =>
    exact hcoherent.journaled rfl ((hcoherent.object hlookup).congr rfl rfl rfl rfl)
  | setCode code hlookup =>
    exact hcoherent.journaled rfl ((hcoherent.object hlookup).loadCode.setCode code)
  | setState key value hlookup =>
    exact hcoherent.journaled rfl
      (((hcoherent.object hlookup).getState key).congr rfl rfl rfl rfl)
  | auxiliary hop hexec =>
    have hsame := sameAccounts_of_auxiliary hop hexec
    refine ⟨hsame.cache_eq.trans hcoherent.cache_eq, ?_, ?_⟩
    · rw [hsame.objects_eq, hsame.ctx_eq]
      exact hcoherent.object
    · rw [hsame.objects_eq, hsame.ctx_eq, hsame.dirties_eq]
      exact hcoherent.clean

theorem Coherent.exec (hcoherent : Coherent env s) {op : Op σ} (hop : op.Onward)
    (hexec : s.exec env op = some s') : Coherent env s' := by
  -- an operation that destructs is a chain of moves, after which an object may be destructed
  have hdestructs : op.Destructs → Coherent env s' := by
    intro hdestructs
    rcases destructs_cases hdestructs hexec with hmoves | ⟨middle, addr, obj, hmoves, hlookup, rfl⟩
    · exact Moves.invariant Coherent.move hmoves hcoherent
    · have hmiddle : Coherent env middle := Moves.invariant Coherent.move hmoves hcoherent
      exact hmiddle.journaled rfl ((hmiddle.object hlookup).congr rfl rfl rfl rfl)
  cases op with
  | snapshot =>
    cases hexec
    exact ⟨hcoherent.cache_eq, hcoherent.object, hcoherent.clean⟩
  | selfDestruct _ | selfDestruct6780 _ => exact hdestructs trivial
  | revertToSnapshot _ | precompileCall _ => exact hop.elim
  | _ =>
    refine Moves.invariant Coherent.move (moves_of_exec ?_ hexec) hcoherent
    trivial

theorem Coherent.run (hcoherent : Coherent env s) {ops : List (Op σ)} (hops : ∀ op ∈ ops, op.Onward)
    (hrun : s.run env ops = some s') : Coherent env s' :=
  StateDB.run_invariant Op.Onward _ (fun hop hcoherent => hcoherent.exec hop) hops hcoherent hrun

theorem Start.coherent (env : Env σ) {ctx : Context σ} (hstart : Start ctx s) : Coherent env s := by
  obtain ⟨-, hjournal, hobjects, -, -, hcache, -⟩ := hstart.spec
  exact ⟨hcache, by simp [hobjects], by simp [hobjects]⟩

end CosmosEvm.Statedb
