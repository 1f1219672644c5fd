import CosmosEvm.Statedb.Interleaving
import CosmosEvm.Vm.Nonces

namespace CosmosEvm.Vm.Keeper

open Result BankKeeper PreciseBank.Keeper Statedb

variable {S Acc : Type} {k : Keeper S Acc} {addressString : Address → String}
  {ctx ctx' : Ctx S} {s : StateDB (MultiStore S)}

theorem commitsSlots (hwired : k.Wired) (addressString : Address → String) :
    (k.env addressString).CommitsSlots k.Sound := by
  intro s ctx ctx' hloaded hspared hsound hcommit addr key
  have hlive : ∀ {addr obj}, s.stateObjects.lookup addr = some obj → obj.selfDestructed = false := by
    intro addr obj hlookup
    have hagrees := agrees_of_account (view_account_of_lookup (k.env addressString) hlookup)
    exact hagrees.destructed.trans (hspared addr)
  have hready : ∀ addr ∈ s.journal.sortedDirties, k.Ready s ctx addr := by
    intro addr hmem
    obtain ⟨obj, hlookup⟩ := Finmap.mem_iff.mp (hloaded addr (mem_sortedDirties.mp hmem))
    refine ⟨obj, hlookup, fun hdestructed => ?_⟩
    cases hdestructed.symm.trans (hlive hlookup)
  have hbacked : Backed k.bank ctx := Backed.of_store_eq hsound rfl
  have hrun := (local_commitAddress hwired s).run (nodup_sortedDirties s.journal) hready hbacked hcommit
  change getState ctx'.store addr key = if _ then (s.written addr key).getD (getState ctx.store addr key)
    else getState ctx.store addr key
  split
  · rename_i hdirty
    obtain ⟨before, after, hbefore, ⟨obj, hlookup, -⟩, hexec, hfrom, hto⟩ :=
      hrun.called addr (mem_sortedDirties.mpr hdirty)
    simp only [StateDB.commitAddress, hlookup] at hexec
    have hcommitted := commitObject_spec hwired hbefore (hlive hlookup) hexec
    have hwritten : s.written addr key = obj.dirtyStorage.lookup key := by
      unfold StateDB.written
      rw [hlookup]
      rfl
    rw [hto.getState_eq, hcommitted.getState_eq, hfrom.getState_eq, hwritten]
  · rename_i hclean
    refine (hrun.same_elsewhere addr.bytes fun hmem => hclean ?_).getState_eq key
    obtain ⟨other, hother, hbytes⟩ := List.mem_map.mp hmem
    rw [← FixedBytes.bytes_injective hbytes]
    exact mem_sortedDirties.mp hother

theorem synced_of_start (hbacked : Backed k.bank ctx) (hhoused : (k.env addressString).Housed ctx.store)
    (reserved : Region) (hstart : Start ctx s) :
    Synced (k.env addressString) k.Sound reserved ∅ s ((k.env addressString).values ctx.store) := by
  obtain ⟨-, hjournal, hobjects, -, -, -, hctx⟩ := hstart.spec
  have hwritten : ∀ addr key, s.written addr key = none := by
    intro addr key
    unfold StateDB.written
    rw [hobjects, Finmap.lookup_empty]
    rfl
  have hslot : ∀ addr key, s.slot (k.env addressString) addr key = getState ctx.store addr key := by
    intro addr key
    unfold StateDB.slot
    rw [view_account_of_not_loaded _ (by rw [hobjects, Finmap.lookup_empty]), hctx]
    unfold Env.loadedView
    cases (k.env addressString).keeper.getAccount ctx.store addr <;> rfl
  have hclean : ∀ addr, addr ∉ s.journal.dirties := by
    intro addr
    rw [hjournal]
    exact Finmap.notMem_empty
  refine ⟨hstart.since _, hctx ▸ hhoused, ?_, ?_, fun _ => hslot _ _, fun addr key => ?_,
    fun _ => hwritten _ _, fun hsome => absurd (hwritten _ _) hsome, ?_, ?_, fun _ => hclean _,
    Set.empty_subset _, Set.empty_subset _⟩
  · rw [hstart.profile_eq]
    exact hbacked.of_store_eq rfl
  · rw [hstart.profile_eq]
    exact fun _ => rfl
  · rw [hwritten, hstart.profile_eq]
    rfl
  · rw [hstart.profile_eq]
    exact fun _ => rfl
  · rw [hstart.profile_eq]
    exact fun _ => rfl

/-- What a message within a precompile does to `cacheCtx` when its execution sets a slot. -/
def runSlotMessage (k : Keeper S Acc) (addressString : Address → String) (addr : Address) (key value : Hash)
    (ctx : Ctx S) : Except Err (Ctx S) :=
  StateDB.commit (k.env addressString)
    ((Statedb.new ctx ⟨zeroHash, zeroHash, 0, 0⟩).setState (k.env addressString) addr key value).2

theorem runSlotMessage_spec (hwired : k.Wired) {addr : Address} {key value : Hash}
    (hsound : k.Sound ctx.store) (hrun : k.runSlotMessage addressString addr key value ctx = .ok ctx') :
    k.Sound ctx'.store ∧ ((k.env addressString).values ctx.store).SameOutside ⟨{(addr, key)}, ∅⟩
      ((k.env addressString).values ctx'.store) := by
  let env := k.env addressString
  let start := Statedb.new ctx ⟨zeroHash, zeroHash, 0, 0⟩
  have hnonces := commitsNonces hwired addressString
  have hstart : Start ctx start := .new _
  have hsince := hstart.since env
  have hset := hsince.steps ((moves_setState env start addr key value).steps hsince.good)
  have hquiet := quiet_setState env start addr key value
  have hprofile := hquiet.profile_eq.trans (hstart.profile_eq env)
  have hstore : (start.setState env addr key value).2.writeCache.store = ctx.store := by
    rw [store_writeCache env]
    exact congrArg (fun profile => profile.cache.current) hprofile
  have hsound' : k.Sound (start.setState env addr key value).2.writeCache.store := hstore ▸ hsound
  have hspared : ∀ other,
      ((start.setState env addr key value).2.view env).profile.destructed other = false := by
    rw [hprofile]
    exact fun _ => rfl
  have hwritten : ∀ {other key'}, (other, key') ≠ (addr, key) →
      (start.setState env addr key value).2.written other key' = none := by
    intro other key' hne
    rcases setState_cases env start addr key value with ⟨-, htouches⟩ | ⟨t, htouches, -, obj, hobj, hset⟩
    · rw [htouches.written_eq]
      rfl
    · rw [hset, written_setState htouches hobj, setSlot_of_ne _ hne]
      rfl
  refine ⟨hnonces.sound_commit hset.loaded hsound' hrun, ⟨fun {other key'} hmem => ?_, fun {other} _ => ?_⟩⟩
  · have hstored := commitsSlots hwired addressString hset.loaded hspared hsound' hrun other key'
    rw [hwritten hmem, hstore] at hstored
    exact hstored.trans (ite_id _)
  · change env.storedNonce ctx'.store other = env.storedNonce ctx.store other
    by_cases hdirty : other ∈ (start.setState env addr key value).2.journal.dirties
    · rw [hnonces.dirty hset.loaded hsound' hrun hdirty, hspared other]
      exact congrFun (congrArg Profile.nonce hprofile) other
    · rw [hnonces.clean hset.loaded hsound' hrun hdirty, hstore]

def slotMessage (hwired : k.Wired) (addressString : Address → String) (addr : Address) (key value : Hash) :
    Body (k.env addressString) k.Sound where
  run := k.runSlotMessage addressString addr key value
  region := ⟨{(addr, key)}, ∅⟩
  sound_run hsound hrun := (runSlotMessage_spec hwired hsound hrun).1
  within hsound hrun := (runSlotMessage_spec hwired hsound hrun).2

def sampleState : StateDB (MultiStore (AuthLedger Evmd.moduleAccounts)) :=
  Statedb.new Ante.fundedChain ⟨zeroHash, zeroHash, 0, 0⟩

theorem housed_fundedChain (addressString : Address → String) :
    ((Evmd.vmKeeper Evmd.sixDecimalsCoin).env addressString).Housed Ante.fundedChain.store := by
  intro addr _ key
  change bytesToHash (((∅ : Finmap fun _ : Address × Hash => Bytes).lookup (addr, key)).getD []) = zeroHash
  rw [Finmap.lookup_empty]
  decide

def sampleEnd {k : Keeper (AuthLedger Evmd.moduleAccounts) AuthAccount}
    (actions : List (Action (k.env fun _ => "") k.Sound)) (slots : List (Address × Hash)) (addr : Address) :
    Option (List Answer × List Hash × UInt64) := do
  let (answers, s) ← sampleState.perform actions
  let ctx ← (s.commit (k.env fun _ => "")).toOption
  return (answers, slots.map fun slot => getState ctx.store slot.1 slot.2, k.storedNonce ctx addr)

/-- Where the transaction writes nothing that is reserved for precompiles, and reads nothing that a
precompile has changed before, no value is lost: reads return the value last written, and `Commit` stores
the values last written. -/
theorem precompile_writes_kept (hwired : k.Wired) (hbacked : Backed k.bank ctx)
    (hhoused : (k.env addressString).Housed ctx.store) (hstart : Start ctx s) {reserved : Region}
    {actions : List (Action (k.env addressString) k.Sound)} (hguarded : Guarded reserved ∅ actions) :
    Kept s ((k.env addressString).values ctx.store) actions :=
  (synced_of_start hbacked hhoused reserved hstart).kept (commitsNonces hwired addressString)
    (commitsSlots hwired addressString) hguarded

/-- Two messages in precompiles write the slot of one contract, while the caller writes to its own account. -/
theorem precompile_writes_kept_apart :
    let k := Evmd.vmKeeper Evmd.sixDecimalsCoin
    let hwired := Evmd.vmKeeper_wired Evmd.sixDecimalsCoin
    let caller := bytesToAddress [0xa1]
    let contract := bytesToAddress [0xb0]
    let actions : List (Action (k.env fun _ => "") k.Sound) :=
      [.setState caller (bytesToHash [1]) (bytesToHash [7]),
        .call (slotMessage hwired _ contract (bytesToHash [2]) (bytesToHash [8])),
        .getState caller (bytesToHash [1]), .setNonce caller 5,
        .call (slotMessage hwired _ contract (bytesToHash [2]) (bytesToHash [9])), .getNonce caller]
    sampleEnd actions [(caller, bytesToHash [1]), (contract, bytesToHash [2])] caller =
        some ([.done, .done, .slot (bytesToHash [7]), .done, .done, .nonce 5],
          [bytesToHash [7], bytesToHash [9]], 5) ∧
      Kept sampleState ((k.env fun _ => "").values Ante.fundedChain.store) actions := by
  intro k hwired caller contract actions
  refine ⟨by decide +kernel, precompile_writes_kept hwired Ante.backed_fundedChain (housed_fundedChain _)
    (.new _) (show Guarded ⟨{(contract, bytesToHash [2])}, ∅⟩ ∅ actions from ?_)⟩
  have hne : (caller, bytesToHash [1]) ≠ (contract, bytesToHash [2]) := by decide
  refine ⟨⟨hne, Set.notMem_empty _⟩, ⟨subset_rfl, subset_rfl⟩, ?_, Set.notMem_empty _,
    ⟨subset_rfl, subset_rfl⟩, ?_, trivial⟩
  · rintro (hmem | hmem)
    · exact hmem
    · exact hne hmem
  · rintro ((hmem | hmem) | hmem) <;> exact hmem

/-- A precompile writes a slot that the transaction has written before. The transaction goes on to read its
own value, and `Commit` writes that value over the one of the precompile. -/
theorem precompile_write_lost :
    let k := Evmd.vmKeeper Evmd.sixDecimalsCoin
    let hwired := Evmd.vmKeeper_wired Evmd.sixDecimalsCoin
    let contract := bytesToAddress [0xb0]
    let slot := bytesToHash [2]
    let actions : List (Action (k.env fun _ => "") k.Sound) :=
      [.setState contract slot (bytesToHash [1]),
        .call (slotMessage hwired _ contract slot (bytesToHash [2])), .getState contract slot]
    let values := (k.env fun _ => "").values Ante.fundedChain.store
    sampleEnd actions [(contract, slot)] contract =
        some ([.done, .done, .slot (bytesToHash [1])], [bytesToHash [1]], 0) ∧
      (sampleState.expected values actions).1 = [.done, .done, .slot (bytesToHash [2])] ∧
      (sampleState.expected values actions).2.slot contract slot = bytesToHash [2] ∧
      ¬ Kept sampleState values actions := by
  intro k hwired contract slot actions values
  have hend : sampleEnd actions [(contract, slot)] contract =
      some ([.done, .done, .slot (bytesToHash [1])], [bytesToHash [1]], 0) := by
    decide +kernel
  have hanswers : (sampleState.expected values actions).1 = [.done, .done, .slot (bytesToHash [2])] := by
    decide +kernel
  refine ⟨hend, hanswers, by decide +kernel, fun hkept => ?_⟩
  obtain ⟨⟨answers, s⟩, hrun, hend⟩ := Option.bind_eq_some_iff.mp hend
  obtain ⟨ctx, -, hend⟩ := Option.bind_eq_some_iff.mp hend
  obtain ⟨hanswers', -⟩ := Prod.mk.inj (Option.some.inj hend)
  have hlast := (hkept answers s hrun).1
  rw [hanswers'] at hlast
  exact absurd (hlast.trans hanswers) (by decide)

end CosmosEvm.Vm.Keeper
