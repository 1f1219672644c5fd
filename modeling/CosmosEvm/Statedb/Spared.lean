import CosmosEvm.Statedb.Revert

namespace CosmosEvm.Statedb

open UndoLog

variable {σ : Type} {env : Env σ} {s s' : StateDB σ}

def Op.Spares : Op σ → Prop
  | .selfDestruct _ | .selfDestruct6780 _ | .precompileCall _ => False
  | _ => True

def JournalEntry.Spares : JournalEntry → Prop
  | .resetObjectChange _ prev => prev.selfDestructed = false
  | .selfDestructChange _ _ _ | .precompileCallChange _ _ => False
  | _ => True

structure Spared (s : StateDB σ) : Prop where
  cache_eq : s.cache = none
  object : ∀ {addr obj}, s.stateObjects.lookup addr = some obj → obj.selfDestructed = false
  entry : ∀ entry ∈ s.journal.entries, entry.Spares

theorem Spared.setStateObject (hspared : Spared s) (addr : Address) (obj : StateObject)
    (hobj : obj.selfDestructed = false) : Spared (s.setStateObject addr obj) where
  cache_eq := hspared.cache_eq
  object {other found} hlookup := by
    by_cases heq : other = addr
    · subst heq
      rw [StateDB.setStateObject, Finmap.lookup_insert] at hlookup
      exact Option.some.inj hlookup ▸ hobj
    · rw [StateDB.setStateObject, Finmap.lookup_insert_of_ne _ heq] at hlookup
      exact hspared.object hlookup
  entry := hspared.entry

theorem Spared.journaled (hspared : Spared s) (entry : JournalEntry) (addr : Address)
    (obj : StateObject) (hentry : entry.Spares) (hobj : obj.selfDestructed = false) :
    Spared (s.journaled entry addr obj) := by
  have happended : Spared (s.append entry) := by
    refine ⟨hspared.cache_eq, hspared.object, fun other hmem => ?_⟩
    rcases List.mem_append.mp hmem with hold | hnew
    · exact hspared.entry other hold
    · exact List.mem_singleton.mp hnew ▸ hentry
  exact happended.setStateObject addr obj hobj

theorem getCommittedState_selfDestructed (store : σ) (addr : Address) (obj : StateObject) (key : Hash) :
    (obj.getCommittedState env store addr key).2.selfDestructed = obj.selfDestructed := by
  unfold StateObject.getCommittedState
  split <;> rfl

theorem getState_selfDestructed (store : σ) (addr : Address) (obj : StateObject) (key : Hash) :
    (obj.getState env store addr key).2.selfDestructed = obj.selfDestructed := by
  unfold StateObject.getState
  split
  · rfl
  · exact getCommittedState_selfDestructed store addr obj key

theorem Spared.move (hspared : Spared s) (hmove : Move env s s') : Spared s' := by
  cases hmove with
  | load _ _ => exact hspared.setStateObject _ _ rfl
  | loadCode hlookup =>
    have hobj := hspared.object hlookup
    exact hspared.setStateObject _ _ hobj
  | loadState key hlookup =>
    refine hspared.setStateObject _ _ ?_
    rw [getState_selfDestructed]
    exact hspared.object hlookup
  | loadCommittedState key hlookup =>
    refine hspared.setStateObject _ _ ?_
    rw [getCommittedState_selfDestructed]
    exact hspared.object hlookup
  | create _ _ => exact hspared.journaled _ _ _ trivial rfl
  | reset hlookup => exact hspared.journaled _ _ _ (hspared.object hlookup) rfl
  | createContract hlookup _ =>
    have hobj := hspared.object hlookup
    exact hspared.journaled _ _ _ trivial hobj
  | setBalance amount hlookup =>
    have hobj := hspared.object hlookup
    exact hspared.journaled _ _ _ trivial hobj
  | setNonce nonce hlookup =>
    have hobj := hspared.object hlookup
    exact hspared.journaled _ _ _ trivial hobj
  | setCode code hlookup =>
    have hobj := hspared.object hlookup
    exact hspared.journaled _ _ _ trivial hobj
  | setState key value hlookup =>
    refine hspared.journaled _ _ _ trivial ?_
    rw [StateObject.setState, getState_selfDestructed]
    exact hspared.object hlookup
  | auxiliary hop hexec =>
    have hsame := sameAccounts_of_auxiliary hop hexec
    obtain ⟨entries, hentries, hauxiliary⟩ := hsame.entries
    refine ⟨hsame.cache_eq.trans hspared.cache_eq, fun hlookup => ?_, fun entry hmem => ?_⟩
    · rw [hsame.objects_eq] at hlookup
      exact hspared.object hlookup
    · rw [hentries] at hmem
      rcases List.mem_append.mp hmem with hold | hnew
      · exact hspared.entry entry hold
      · have haux := hauxiliary entry hnew
        cases entry <;> trivial

theorem Spared.updateStateObject (hspared : Spared s) {addr : Address} {change : StateObject → StateObject}
    (hupdate : s.updateStateObject env addr change = some s')
    (hchange : ∀ obj : StateObject, (change obj).selfDestructed = obj.selfDestructed) : Spared s' := by
  unfold StateDB.updateStateObject at hupdate
  rcases getStateObject_moves env s addr with ⟨hget, _⟩ | ⟨obj, loaded, hget, hmoves, hlookup⟩
  · simp [hget] at hupdate
  · simp only [hget] at hupdate
    cases hupdate
    have hloaded : Spared loaded := Moves.invariant Spared.move hmoves hspared
    refine hloaded.setStateObject _ _ ?_
    rw [hchange]
    exact hloaded.object hlookup

/-- Undoing an entry that destructs nothing brings back no destructed object. -/
theorem Spared.revert (hspared : Spared s) {entry : JournalEntry} (hentry : entry.Spares)
    (hrevert : entry.revert env s = some s') : Spared s' := by
  -- a change outside the accounts
  have hother : ∀ {t : StateDB σ}, t.cache = s.cache → t.stateObjects = s.stateObjects →
      t.journal = s.journal → Spared t := by
    intro t hcache hobjects hjournal
    exact ⟨hcache.trans hspared.cache_eq, fun h => hspared.object (hobjects ▸ h), hjournal ▸ hspared.entry⟩
  cases entry with
  | createObjectChange account =>
    cases hrevert
    refine ⟨hspared.cache_eq, fun {addr obj} hlookup => ?_, hspared.entry⟩
    by_cases heq : addr = account
    · subst heq
      simp [Finmap.lookup_erase] at hlookup
    · exact hspared.object ((Finmap.lookup_erase_ne heq).symm.trans hlookup)
  | resetObjectChange account prev =>
    cases hrevert
    exact hspared.setStateObject account prev hentry
  | balanceChange account prev | nonceChange account prev | storageChange account key prevalue
  | codeChange account prevcode prevhash | createContractChange account =>
    exact hspared.updateStateObject hrevert fun _ => rfl
  | transientStorageChange account key prevalue | refundChange prev | accessListAddAccountChange address =>
    cases hrevert
    exact hother rfl rfl rfl
  | addLogChange =>
    simp only [JournalEntry.revert] at hrevert
    split at hrevert
    · simp at hrevert
    · cases hrevert
      exact hother rfl rfl rfl
  | accessListAddSlotChange address slot =>
    obtain ⟨accessList, _, rfl⟩ := Option.map_eq_some_iff.mp hrevert
    exact hother rfl rfl rfl
  | selfDestructChange _ _ _ | precompileCallChange _ _ => exact hentry.elim

theorem Spared.revertToSnapshot (hspared : Spared s) {revid : ℕ}
    (hrevert : s.revertToSnapshot env revid = some s') : Spared s' := by
  obtain ⟨revision, t, -, -, hundo, rfl⟩ := revertToSnapshot_cases hrevert
  have hundone : Spared t := by
    refine undoAll_invariant (fun hentry hspared hundo => ?_)
      (fun entry hmem => hspared.entry entry (List.mem_of_mem_drop hmem)) hspared hundo
    obtain ⟨reverted, hrevert, rfl⟩ := Option.map_eq_some_iff.mp hundo
    have hreverted := hspared.revert hentry hrevert
    exact ⟨hreverted.cache_eq, hreverted.object, hreverted.entry⟩
  exact ⟨hundone.cache_eq, hundone.object,
    fun entry hmem => hundone.entry entry (List.mem_of_mem_take hmem)⟩

theorem Spared.exec (hspared : Spared s) {op : Op σ} (hop : op.Spares)
    (hexec : s.exec env op = some s') : Spared s' := by
  cases op with
  | snapshot =>
    cases hexec
    exact ⟨hspared.cache_eq, hspared.object, hspared.entry⟩
  | revertToSnapshot revid => exact hspared.revertToSnapshot hexec
  | selfDestruct _ | selfDestruct6780 _ | precompileCall _ => exact hop.elim
  | _ =>
    refine Moves.invariant Spared.move (moves_of_exec ?_ hexec) hspared
    trivial

theorem Spared.run (hspared : Spared s) {ops : List (Op σ)} (hops : ∀ op ∈ ops, op.Spares)
    (hrun : s.run env ops = some s') : Spared s' :=
  StateDB.run_invariant Op.Spares _ (fun hop hspared => hspared.exec hop) hops hspared hrun

theorem Start.spared {ctx : Context σ} (hstart : Start ctx s) : Spared s := by
  obtain ⟨-, hjournal, hobjects, -, -, hcache, -⟩ := hstart.spec
  exact ⟨hcache, by simp [hobjects], by simp [hjournal]⟩

end CosmosEvm.Statedb
