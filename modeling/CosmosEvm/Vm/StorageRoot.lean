import CosmosEvm.Vm.Conserve

namespace CosmosEvm

namespace Vm

structure StackTrie (Root : Type) where
  State : Type
  empty : State
  update : State → Bytes → Bytes → Option State
  hash : State → Root

-- The trie takes keys in ascending order with values that are not empty, and its hash is that of what it has
-- taken.
structure StackTrie.Lawful {Root : Type} (trie : StackTrie Root)
    (content : trie.State → List (Bytes × Bytes)) (root : List (Bytes × Bytes) → Root) : Prop where
  content_empty : content trie.empty = []
  update : ∀ {s : trie.State} {key value : Bytes}, (∀ entry ∈ content s, entry.1 < key) → value ≠ [] →
    ∃ s', trie.update s key value = some s' ∧ content s' = content s ++ [(key, value)]
  hash_eq : ∀ s : trie.State, trie.hash s = root (content s)

namespace Keeper

open Statedb

variable {S Acc : Type}

def storageEntries (store : MultiStore S) (addr : Address) : List (Hash × Hash) :=
  (storageKeys store addr).map fun key => (key, bytesToHash ((store.evm.storage.lookup (addr, key)).getD []))

def storageBytes (store : MultiStore S) (addr : Address) : List (Bytes × Bytes) :=
  (storageEntries store addr).map fun entry => (entry.1.bytes, entry.2.bytes)

/-- The loop of `ForEachStorage`, which ends when the callback returns false. -/
def visit {β : Type} (cb : β → Hash → Hash → β × Bool) : β → List (Hash × Hash) → β
  | acc, [] => acc
  | acc, (key, value) :: entries =>
    match cb acc key value with
    | (acc, true) => visit cb acc entries
    | (acc, false) => acc

def forEachStorage {β : Type} (store : MultiStore S) (addr : Address) (cb : β → Hash → Hash → β × Bool)
    (start : β) : β :=
  visit cb start (storageEntries store addr)

end Keeper

end Vm

namespace Statedb.StateDB

variable {S Root : Type}

def getStorageRoot (trie : Vm.StackTrie Root) (s : StateDB (MultiStore S)) (addr : Address) : Root :=
  trie.hash (Vm.Keeper.forEachStorage s.ctx.store addr (fun sr key value =>
    match trie.update sr key.bytes value.bytes with
    | none => (sr, false)
    | some sr => (sr, true)) trie.empty)

def isStorageEmpty (s : StateDB (MultiStore S)) (addr : Address) : Bool :=
  Vm.Keeper.forEachStorage s.ctx.store addr (fun _ _ _ => (false, false)) true

end Statedb.StateDB

namespace Vm.Keeper

open Result PreciseBank.Keeper Statedb

variable {S Acc Root : Type} {k : Keeper S Acc} {store store' : MultiStore S} {addr : Address}

theorem snd_storageEntries (hash : Hash) :
    bytesToHash ((store.evm.storage.lookup (addr, hash)).getD []) = getState store addr hash := by
  unfold getState
  cases store.evm.storage.lookup (addr, hash) with
  | none => rfl
  | some bytes => cases bytes <;> rfl

theorem storageEntries_eq_map (store : MultiStore S) (addr : Address) :
    storageEntries store addr = (storageKeys store addr).map fun key => (key, getState store addr key) :=
  List.map_congr_left fun key _ => by rw [snd_storageEntries]

theorem mem_of_getState_ne_zero {key : Hash} (hne : getState store addr key ≠ zeroHash) :
    (addr, key) ∈ store.evm.storage := by
  by_contra hmem
  refine hne ?_
  unfold getState
  rw [Finmap.lookup_eq_none.mpr hmem]

def StoredZero (store : MultiStore S) (addr : Address) (key : Hash) : Prop :=
  (addr, key) ∈ store.evm.storage ∧ getState store addr key = zeroHash

theorem getState_of_empty (hstorage : store.evm.storage = ∅) (key : Hash) :
    getState store addr key = zeroHash := by
  unfold getState
  rw [hstorage, Finmap.lookup_empty]

theorem getState_of_zero_singleton {slot : Hash}
    (hstorage : store.evm.storage = Finmap.singleton (addr, slot) zeroHash.bytes) (key : Hash) :
    getState store addr key = zeroHash := by
  by_cases hkey : key = slot
  · refine getState_of_lookup_bytes ?_
    rw [hstorage, hkey]
    exact Finmap.lookup_singleton_eq
  · unfold getState
    rw [hstorage, Finmap.lookup_eq_none.mpr]
    rw [Finmap.mem_singleton]
    exact fun heq => hkey (Prod.mk.inj heq).2

theorem getState_congr (hstorage : store.evm.storage = store'.evm.storage) (key : Hash) :
    getState store addr key = getState store' addr key := by
  unfold getState
  rw [hstorage]

theorem storedZero_congr {key : Hash}
    (hlookup : store'.evm.storage.lookup (addr, key) = store.evm.storage.lookup (addr, key)) :
    StoredZero store' addr key ↔ StoredZero store addr key := by
  unfold StoredZero getState
  rw [← Finmap.lookup_isSome, ← Finmap.lookup_isSome, hlookup]

theorem storedZero_of_lookup_bytes {key value : Hash}
    (hlookup : store.evm.storage.lookup (addr, key) = some value.bytes) :
    StoredZero store addr key ↔ value = zeroHash := by
  unfold StoredZero
  rw [getState_of_lookup_bytes hlookup]
  exact and_iff_right (Finmap.mem_of_lookup_eq_some hlookup)

theorem not_storedZero_of_lookup_none {key : Hash} (hlookup : store.evm.storage.lookup (addr, key) = none) :
    ¬ StoredZero store addr key :=
  fun hstored => Finmap.lookup_eq_none.mp hlookup hstored.1

theorem storageEntries_eq_iff (hsame : ∀ key, getState store addr key = getState store' addr key) :
    storageEntries store addr = storageEntries store' addr ↔
      ∀ key, StoredZero store addr key ↔ StoredZero store' addr key := by
  have hkeys : storageEntries store addr = storageEntries store' addr ↔
      ∀ key, (addr, key) ∈ store.evm.storage ↔ (addr, key) ∈ store'.evm.storage := by
    simp only [← mem_storageKeys, storageEntries_eq_map, hsame]
    constructor
    · intro heq key
      have hfst := congrArg (List.map Prod.fst) heq
      simp only [List.map_map, Function.comp_def, List.map_id'] at hfst
      rw [hfst]
    · intro hmem
      unfold storageKeys at hmem ⊢
      simp only [Finset.mem_sort] at hmem
      rw [Finset.ext hmem]
  rw [hkeys]
  unfold StoredZero
  constructor
  · intro hmem key
    rw [hmem, hsame]
  · intro hzero key
    by_cases hvalue : getState store addr key = zeroHash
    · have hiff := hzero key
      rw [← hsame key] at hiff
      simpa only [hvalue, and_true] using hiff
    · exact iff_of_true (mem_of_getState_ne_zero hvalue) (mem_of_getState_ne_zero (hsame key ▸ hvalue))

theorem content_visit {trie : StackTrie Root} {content : trie.State → List (Bytes × Bytes)}
    {root : List (Bytes × Bytes) → Root} (htrie : trie.Lawful content root) {entries : List (Hash × Hash)} (hsorted : entries.Pairwise (·.1 < ·.1))
    {sr : trie.State} (hbelow : ∀ taken ∈ content sr, ∀ entry ∈ entries, taken.1 < entry.1.bytes) :
    content (visit (fun sr (key value : Hash) =>
      match trie.update sr key.bytes value.bytes with
      | none => (sr, false)
      | some sr => (sr, true)) sr entries) =
        content sr ++ entries.map fun entry => (entry.1.bytes, entry.2.bytes) := by
  induction entries generalizing sr with
  | nil => exact (List.append_nil _).symm
  | cons entry entries ih =>
    obtain ⟨hhead, htail⟩ := List.pairwise_cons.mp hsorted
    have hvalue : entry.2.bytes ≠ [] := fun heq =>
      hash_bytes_length_ne_zero entry.2 (by rw [heq]; rfl)
    obtain ⟨sr', hupdate, hcontent⟩ := htrie.update (s := sr)
      (fun taken htaken => hbelow taken htaken entry (List.mem_cons_self ..)) hvalue
    have hbelow' : ∀ taken ∈ content sr', ∀ later ∈ entries, taken.1 < later.1.bytes := by
      intro taken htaken later hlater
      rw [hcontent, List.mem_append, List.mem_singleton] at htaken
      rcases htaken with htaken | rfl
      · exact hbelow taken htaken later (List.mem_cons_of_mem _ hlater)
      · exact hhead later hlater
    simp only [visit, hupdate]
    rw [ih htail hbelow', hcontent, List.append_assoc]
    rfl

theorem pairwise_storageEntries (store : MultiStore S) (addr : Address) :
    (storageEntries store addr).Pairwise (·.1 < ·.1) := by
  unfold storageEntries
  rw [List.pairwise_map]
  exact (Finset.sortedLT_sort _).pairwise

theorem storageBytes_injective :
    Function.Injective fun entries : List (Hash × Hash) =>
      entries.map fun entry => (entry.1.bytes, entry.2.bytes) := by
  refine List.map_injective_iff.mpr ?_
  rintro ⟨key, value⟩ ⟨key', value'⟩ heq
  obtain ⟨hkey, hvalue⟩ := Prod.mk.inj heq
  exact Prod.ext (FixedBytes.bytes_injective hkey) (FixedBytes.bytes_injective hvalue)

theorem getStorageRoot_eq {trie : StackTrie Root} {content : trie.State → List (Bytes × Bytes)}
    {root : List (Bytes × Bytes) → Root} (htrie : trie.Lawful content root) (s : StateDB (MultiStore S)) :
    s.getStorageRoot trie addr = root (storageBytes s.ctx.store addr) := by
  have hnothing : ∀ taken ∈ content trie.empty, ∀ entry ∈ storageEntries s.ctx.store addr,
      taken.1 < entry.1.bytes := by
    intro taken htaken
    rw [htrie.content_empty] at htaken
    cases htaken
  unfold StateDB.getStorageRoot forEachStorage
  rw [htrie.hash_eq, content_visit htrie (pairwise_storageEntries _ _) hnothing, htrie.content_empty]
  rfl

theorem isStorageEmpty_iff {s : StateDB (MultiStore S)} :
    s.isStorageEmpty addr = true ↔ storageEntries s.ctx.store addr = [] := by
  unfold StateDB.isStorageEmpty forEachStorage
  cases storageEntries s.ctx.store addr with
  | nil => exact iff_of_true rfl rfl
  | cons entry entries => exact iff_of_false (by simp [visit]) (List.cons_ne_nil _ _)

section Commit

variable {addressString : Address → String} {s : StateDB (MultiStore S)} {ctx' : Ctx S}

def Clears (s : StateDB (MultiStore S)) (addr : Address) (key : Hash) : Prop :=
  addr ∈ s.journal.dirties ∧ ∃ obj, s.stateObjects.lookup addr = some obj ∧ obj.selfDestructed = false ∧
    obj.dirtyStorage.lookup key = some zeroHash

def Spares (k : Keeper S Acc) (s : StateDB (MultiStore S)) (addr : Address) (key : Hash) : Prop :=
  addr ∈ s.journal.dirties → ∀ obj, s.stateObjects.lookup addr = some obj →
    if obj.selfDestructed then k.ak.getAccount s.writeCache.store.sdk addr.bytes = none
    else obj.dirtyStorage.lookup key = none

/-- A commit stores a zero word where a dirty object holds a zero write, and leaves the one that is there where
the object holds no write. -/
theorem storedZero_commitAddress (hwired : k.Wired) {before after : Ctx S}
    (hbacked : Backed k.bank before) (hok : s.commitAddress (k.env addressString) before addr = .ok after)
    (hdirty : addr ∈ s.journal.dirties)
    (hacct : k.ak.getAccount before.store.sdk addr.bytes = k.ak.getAccount s.writeCache.store.sdk addr.bytes)
    (key : Hash) :
    StoredZero after.store addr key ↔
      Clears s addr key ∨ Spares k s addr key ∧ StoredZero before.store addr key := by
  unfold StateDB.commitAddress at hok
  cases hlookup : s.stateObjects.lookup addr with
  | none => simp [hlookup] at hok
  | some obj =>
    simp only [hlookup] at hok
    simp only [Clears, Spares, hdirty, hlookup, Option.some.injEq, exists_eq_left', forall_eq', true_and,
      forall_const]
    cases hdestructed : obj.selfDestructed with
    | true =>
      simp only [commitObject, hdestructed, if_true, mapError_eq_ok_iff] at hok
      obtain ⟨-, -, hstorage⟩ := deleteAccount_local hwired hbacked hok
      have hslot := hstorage key
      rw [hacct] at hslot
      by_cases hnone : k.ak.getAccount s.writeCache.store.sdk addr.bytes = none
      · rw [if_pos hnone] at hslot
        simpa [hnone] using storedZero_congr hslot
      · rw [if_neg hnone] at hslot
        simpa [hnone] using not_storedZero_of_lookup_none hslot
    | false =>
      have hslot := (commitObject_spec hwired hbacked hdestructed hok).storage key
      cases hwrite : obj.dirtyStorage.lookup key with
      | some value =>
        rw [if_pos (Finmap.mem_of_lookup_eq_some hwrite), hwrite] at hslot
        simpa using storedZero_of_lookup_bytes hslot
      | none =>
        rw [if_neg (Finmap.lookup_eq_none.mp hwrite)] at hslot
        simpa using storedZero_congr hslot

theorem local_commitAddress_backed (hwired : k.Wired) (s : StateDB (MultiStore S)) :
    Local (s.commitAddress (k.env addressString)) FixedBytes.bytes (Backed k.bank) (fun _ _ => True)
      (SameAt k) where
  refl := SameAt.refl k
  trans := SameAt.trans
  ready_of_same _ _ := trivial
  invariant_step hbacked _ hok := (commitAddress_local hwired s hbacked hok).1
  same_step hbacked _ hok := (commitAddress_local hwired s hbacked hok).2

theorem storedZero_commit (hwired : k.Wired) (haccount : addr.bytes ≠ k.account.address)
    (hreserve : addr.bytes ≠ k.bank.reserve.address) (hbacked : Backed k.bank s.writeCache)
    (hcommit : s.commit (k.env addressString) = .ok ctx') (key : Hash) :
    StoredZero ctx'.store addr key ↔
      Clears s addr key ∨ Spares k s addr key ∧ StoredZero s.writeCache.store addr key := by
  have hcalls := (local_commitAddress_backed hwired s).run (nodup_sortedDirties _) (fun _ _ => trivial)
    hbacked hcommit
  by_cases hdirty : addr ∈ s.journal.dirties
  · obtain ⟨before, after, hbefore, -, hok, hsame, hsame'⟩ :=
      hcalls.called addr (mem_sortedDirties.mpr hdirty)
    rw [storedZero_congr (hsame'.storage rfl), storedZero_commitAddress hwired hbefore hok hdirty
      (hsame.getAccount_eq haccount hreserve), storedZero_congr (hsame.storage rfl)]
  · have hsame := hcalls.same_elsewhere addr.bytes fun hmem => by
      obtain ⟨other, hother, hbytes⟩ := List.mem_map.mp hmem
      exact hdirty (FixedBytes.bytes_injective hbytes ▸ mem_sortedDirties.mp hother)
    have hclears : ¬ Clears s addr key := fun hclears => hdirty hclears.1
    have hspares : Spares k s addr key := fun hmem => absurd hmem hdirty
    rw [storedZero_congr (hsame.storage rfl)]
    simp only [hclears, hspares, false_or, true_and]

end Commit

structure TxRun (σ : Type) where
  config : TxConfig
  ops : List (Op σ)

def committing {σ : Type} (env : Env σ) (ctx : Context σ) (tx : TxRun σ) : Option (StateDB σ × Context σ) :=
  ((new ctx tx.config).run env tx.ops).bind fun s => (s.commit env).toOption.map fun ctx' => (s, ctx')

theorem committing_eq_some {σ : Type} {env : Env σ} {ctx ctx' : Context σ} {tx : TxRun σ} {s : StateDB σ}
    (hgoes : committing env ctx tx = some (s, ctx')) :
    (new ctx tx.config).run env tx.ops = some s ∧ s.commit env = .ok ctx' := by
  obtain ⟨s', hrun, hcommit⟩ := Option.bind_eq_some_iff.mp hgoes
  obtain ⟨_, hok, heq⟩ := Option.map_eq_some_iff.mp hcommit
  obtain ⟨rfl, rfl⟩ := Prod.mk.inj heq
  exact ⟨hrun, toOption_eq_some_iff.mp hok⟩

/-- The state after a history of transactions, the last one first. The stores of a transaction that panics or
whose commit fails are dropped. -/
def afterTxs {σ : Type} (env : Env σ) (ctx : Context σ) : List (TxRun σ) → Context σ
  | [] => ctx
  | tx :: earlier => ((committing env (afterTxs env ctx earlier) tx).map Prod.snd).getD (afterTxs env ctx earlier)

/-- A history leaves a zero word in a slot: the last transaction that goes through has a write of zero to the
slot in an object that it commits, or it writes nothing to the slot and the zero word was there before. Before
its commit there stands what its precompile calls have written, if it makes any. -/
def LeavesZero (k : Keeper S Acc) (env : Env (MultiStore S)) (ctx : Ctx S) (addr : Address)
    (key : Hash) : List (TxRun (MultiStore S)) → Prop
  | [] => StoredZero ctx.store addr key
  | tx :: earlier =>
    match committing env (afterTxs env ctx earlier) tx with
    | none => LeavesZero k env ctx addr key earlier
    | some (s, _) => Clears s addr key ∨ Spares k s addr key ∧
      match s.cache with
      | none => LeavesZero k env ctx addr key earlier
      | some cache => StoredZero cache.snapshotter.current addr key

def BackedThroughout (k : Keeper S Acc) (env : Env (MultiStore S)) (ctx : Ctx S)
    (history : List (TxRun (MultiStore S))) : Prop :=
  ∀ tx earlier s ctx', tx :: earlier <:+ history →
    committing env (afterTxs env ctx earlier) tx = some (s, ctx') → Backed k.bank s.writeCache

variable {addressString : Address → String}

theorem storedZero_afterTxs (hwired : k.Wired) (haccount : addr.bytes ≠ k.account.address)
    (hreserve : addr.bytes ≠ k.bank.reserve.address) {ctx : Ctx S}
    {history : List (TxRun (MultiStore S))}
    (hbacked : BackedThroughout k (k.env addressString) ctx history) (key : Hash) :
    StoredZero (afterTxs (k.env addressString) ctx history).store addr key ↔
      LeavesZero k (k.env addressString) ctx addr key history := by
  induction history with
  | nil => exact Iff.rfl
  | cons tx earlier ih =>
    have hearlier := ih fun tx' before s ctx' hsuffix =>
      hbacked tx' before s ctx' (hsuffix.trans (List.suffix_cons tx earlier))
    unfold afterTxs LeavesZero
    cases hgoes : committing (k.env addressString) (afterTxs (k.env addressString) ctx earlier) tx with
    | none => exact hearlier
    | some outcome =>
      obtain ⟨s, ctx'⟩ := outcome
      have hbefore := hbacked tx earlier s ctx' (List.suffix_refl _) hgoes
      obtain ⟨hrun, hcommit⟩ := committing_eq_some hgoes
      have hctx := (Start.since_run (.new tx.config) hrun).ctx_eq
      refine (storedZero_commit hwired haccount hreserve hbefore hcommit key).trans
        (or_congr_right (and_congr_right fun _ => ?_))
      unfold StateDB.writeCache
      cases s.cache with
      | none => exact hctx ▸ hearlier
      | some cache => exact Iff.rfl

theorem backed_afterTxs_of_spares (hwired : k.Wired) {ctx : Ctx S}
    (hbacked : Backed k.bank ctx) {history : List (TxRun (MultiStore S))}
    (hspares : ∀ tx ∈ history, ∀ op ∈ tx.ops, op.Spares) :
    Backed k.bank (afterTxs (k.env addressString) ctx history) ∧
      BackedThroughout k (k.env addressString) ctx history := by
  induction history with
  | nil => exact ⟨hbacked, fun _ _ _ _ hsuffix => nomatch List.suffix_nil.mp hsuffix⟩
  | cons tx earlier ih =>
    obtain ⟨hafter, hthrough⟩ := ih fun tx' hmem => hspares tx' (List.mem_cons_of_mem tx hmem)
    have hstep : ∀ s ctx', committing (k.env addressString) (afterTxs (k.env addressString) ctx earlier) tx =
        some (s, ctx') → Backed k.bank s.writeCache ∧ Backed k.bank ctx' := by
      intro s ctx' hgoes
      obtain ⟨hrun, hcommit⟩ := committing_eq_some hgoes
      have hspared := (Start.spared (.new tx.config)).run (hspares tx List.mem_cons_self) hrun
      have hbefore : Backed k.bank s.writeCache := by
        rw [writeCache_of_spared hspared, (Start.since_run (.new tx.config) hrun).ctx_eq]
        exact hafter
      exact ⟨hbefore, ((local_commitAddress_backed hwired s).run (nodup_sortedDirties _)
        (fun _ _ => trivial) hbefore hcommit).invariant_end⟩
    constructor
    · unfold afterTxs
      cases hgoes : committing (k.env addressString) (afterTxs (k.env addressString) ctx earlier) tx with
      | none => exact hafter
      | some outcome => exact (hstep outcome.1 outcome.2 hgoes).2
    · intro tx' before s ctx' hsuffix hgoes
      rcases List.suffix_cons_iff.mp hsuffix with heq | hsuffix
      · obtain ⟨rfl, rfl⟩ := List.cons.inj heq
        exact (hstep s ctx' hgoes).1
      · exact hthrough tx' before s ctx' hsuffix hgoes

theorem getState_new {ctx : Ctx S} (config : TxConfig)
    (haccount : (k.getAccount ctx.store addr).isSome = true) (key : Hash) :
    ((new ctx config).getState (k.env addressString) addr key).1 = getState ctx.store addr key := by
  obtain ⟨account, haccount⟩ := Option.isSome_iff_exists.mp haccount
  have hobj : (new ctx config).getStateObject (k.env addressString) addr =
      (some (newObject account), (new ctx config).setStateObject addr (newObject account)) := by
    have hkeeper : (k.env addressString).keeper.getAccount ctx.store addr = some account := haccount
    simp [StateDB.getStateObject, new, hkeeper]
  unfold StateDB.getState
  rw [hobj]
  rfl

def listTrie : StackTrie (List (Bytes × Bytes)) where
  State := List (Bytes × Bytes)
  empty := []
  update taken key value := some (taken ++ [(key, value)])
  hash := id

theorem listTrie_lawful : listTrie.Lawful id id where
  content_empty := rfl
  update _ _ := ⟨_, rfl, rfl⟩
  hash_eq _ := rfl

/-- After two histories that leave the same values in every slot of a contract, its storage root and its
emptiness agree exactly when the histories leave zero words in the same slots. Slots that all read zero make the
empty root exactly when the history leaves a zero word in none of them. -/
theorem storageRoot_agrees_iff (hwired : k.Wired) {trie : StackTrie Root}
    {content : trie.State → List (Bytes × Bytes)} {root : List (Bytes × Bytes) → Root}
    (htrie : trie.Lawful content root) (config : TxConfig) {ctx ctx' : Ctx S}
    {txs txs' : List (TxRun (MultiStore S))} (haccount : addr.bytes ≠ k.account.address)
    (hreserve : addr.bytes ≠ k.bank.reserve.address)
    (hbacked : BackedThroughout k (k.env addressString) ctx txs)
    (hbacked' : BackedThroughout k (k.env addressString) ctx' txs')
    (hleft : (k.getAccount (afterTxs (k.env addressString) ctx txs).store addr).isSome = true)
    (hright : (k.getAccount (afterTxs (k.env addressString) ctx' txs').store addr).isSome = true)
    (hroot : Set.InjOn root {[], storageBytes (afterTxs (k.env addressString) ctx txs).store addr,
      storageBytes (afterTxs (k.env addressString) ctx' txs').store addr}) :
    let left := new (afterTxs (k.env addressString) ctx txs) config
    let right := new (afterTxs (k.env addressString) ctx' txs') config
    ((∀ key, (left.getState (k.env addressString) addr key).1 =
        (right.getState (k.env addressString) addr key).1) →
      ((left.getStorageRoot trie addr = right.getStorageRoot trie addr ∧
          left.isStorageEmpty addr = right.isStorageEmpty addr) ↔
        ∀ key, LeavesZero k (k.env addressString) ctx addr key txs ↔
          LeavesZero k (k.env addressString) ctx' addr key txs')) ∧
    ((∀ key, (left.getState (k.env addressString) addr key).1 = zeroHash) →
      ((left.getStorageRoot trie addr = trie.hash trie.empty ∧ left.isStorageEmpty addr = true) ↔
        ∀ key, ¬ LeavesZero k (k.env addressString) ctx addr key txs)) := by
  intro left right
  have hread : ∀ key, (left.getState (k.env addressString) addr key).1 = getState left.ctx.store addr key :=
    getState_new config hleft
  have hread' : ∀ key, (right.getState (k.env addressString) addr key).1 =
      getState right.ctx.store addr key := getState_new config hright
  simp only [← storedZero_afterTxs hwired haccount hreserve hbacked,
    ← storedZero_afterTxs hwired haccount hreserve hbacked', isStorageEmpty_iff, htrie.hash_eq trie.empty,
    htrie.content_empty, getStorageRoot_eq htrie]
  refine ⟨fun hsame => ?_, fun hzero => ?_⟩
  · simp only [hread, hread'] at hsame
    rw [hroot.eq_iff (by simp [left, new]) (by simp [right, new]), storageBytes, storageBytes,
      storageBytes_injective.eq_iff, storageEntries_eq_iff hsame]
    refine and_iff_left_of_imp fun hstored => ?_
    rw [Bool.eq_iff_iff, isStorageEmpty_iff, isStorageEmpty_iff, (storageEntries_eq_iff hsame).mpr hstored]
  · simp only [hread] at hzero
    have hempty : storageEntries left.ctx.store addr = [] ↔ ∀ key, ¬ StoredZero left.ctx.store addr key := by
      unfold storageEntries StoredZero
      rw [List.map_eq_nil_iff, List.eq_nil_iff_forall_not_mem]
      simp only [mem_storageKeys, hzero, and_true]
    rw [hroot.eq_iff (by simp [left, new]) (by simp), storageBytes, List.map_eq_nil_iff, hempty, and_self]
    exact Iff.rfl

/-- A slot that takes its value at once and one that takes it after another value. -/
theorem storageRoot_agrees_overwritten :
    let k := Evmd.vmKeeper Evmd.sixDecimalsCoin
    let env := k.env fun _ => ""
    let addr := bytesToAddress [7]
    let slot := bytesToHash [2]
    let config : TxConfig := ⟨zeroHash, zeroHash, 0, 0⟩
    let create : TxRun (MultiStore (AuthLedger Evmd.moduleAccounts)) :=
      ⟨config, [.createContract addr, .setNonce addr 1, .setCode addr (some [96]), .setState addr slot slot]⟩
    let write : TxRun (MultiStore (AuthLedger Evmd.moduleAccounts)) :=
      ⟨config, [.setState addr slot (bytesToHash [5])]⟩
    let create' : TxRun (MultiStore (AuthLedger Evmd.moduleAccounts)) :=
      ⟨config, [.createContract addr, .setNonce addr 1, .setCode addr (some [96]),
        .setState addr slot (bytesToHash [5])]⟩
    let ctx := Evmd.genesisChain [(addr.bytes, [⟨"utest", 5⟩])]
    let left := new (afterTxs env ctx [write, create]) config
    let right := new (afterTxs env ctx [create']) config
    left.getStorageRoot listTrie addr = right.getStorageRoot listTrie addr ∧
      left.isStorageEmpty addr = right.isStorageEmpty addr := by
  intro k env addr slot config create write create' ctx left right
  have hstorage : left.ctx.store.evm.storage = right.ctx.store.evm.storage := by decide +kernel
  have hleft : (k.getAccount left.ctx.store addr).isSome = true := by decide +kernel
  have hright : (k.getAccount right.ctx.store addr).isSome = true := by decide +kernel
  have hread : ∀ key, (left.getState env addr key).1 = getState left.ctx.store addr key :=
    getState_new config hleft
  have hread' : ∀ key, (right.getState env addr key).1 = getState right.ctx.store addr key :=
    getState_new config hright
  have hsame : ∀ key, (left.getState env addr key).1 = (right.getState env addr key).1 := by
    intro key
    rw [hread, hread', getState_congr hstorage]
  have hzero : ∀ key, StoredZero left.ctx.store addr key ↔ StoredZero right.ctx.store addr key :=
    fun key => storedZero_congr (by rw [hstorage])
  have hwired : k.Wired := Evmd.vmKeeper_wired _
  have hchain := Evmd.backed_genesisChain Evmd.sixDecimalsCoin [(addr.bytes, [⟨"utest", 5⟩])]
    (by decide +kernel)
  have hbacked : BackedThroughout k env ctx [write, create] := by
    refine (backed_afterTxs_of_spares hwired hchain ?_).2
    simp [write, create, Op.Spares]
  have hbacked' : BackedThroughout k env ctx [create'] := by
    refine (backed_afterTxs_of_spares hwired hchain ?_).2
    simp [create', Op.Spares]
  have haccount : addr.bytes ≠ k.account.address := by decide +kernel
  have hreserve : addr.bytes ≠ k.bank.reserve.address := by decide +kernel
  refine ((storageRoot_agrees_iff hwired listTrie_lawful config haccount hreserve hbacked hbacked' hleft hright
    Function.injective_id.injOn).1 hsame).mpr fun key => ?_
  rw [← storedZero_afterTxs hwired haccount hreserve hbacked,
    ← storedZero_afterTxs hwired haccount hreserve hbacked']
  exact hzero key

/-- A slot is set and cleared again. It reads zero like one that was never written, but the contract's storage
is not empty and its root is not the empty one. -/
theorem cleared_slot_not_empty :
    let k := Evmd.vmKeeper Evmd.sixDecimalsCoin
    let env := k.env fun _ => ""
    let addr := bytesToAddress [7]
    let slot := bytesToHash [2]
    let config : TxConfig := ⟨zeroHash, zeroHash, 0, 0⟩
    let create : TxRun (MultiStore (AuthLedger Evmd.moduleAccounts)) :=
      ⟨config, [.createContract addr, .setNonce addr 1, .setCode addr (some [96])]⟩
    let set : TxRun (MultiStore (AuthLedger Evmd.moduleAccounts)) := ⟨config, [.setState addr slot slot]⟩
    let clear : TxRun (MultiStore (AuthLedger Evmd.moduleAccounts)) := ⟨config, [.setState addr slot zeroHash]⟩
    let ctx := Evmd.genesisChain [(addr.bytes, [⟨"utest", 5⟩])]
    let left := new (afterTxs env ctx [clear, set, create]) config
    let right := new (afterTxs env ctx [create]) config
    (∀ key, (left.getState env addr key).1 = zeroHash ∧ (right.getState env addr key).1 = zeroHash) ∧
      left.isStorageEmpty addr = false ∧ right.isStorageEmpty addr = true ∧
      left.getStorageRoot listTrie addr ≠ right.getStorageRoot listTrie addr := by
  intro k env addr slot config create set clear ctx left right
  have hleft : (k.getAccount left.ctx.store addr).isSome = true := by decide +kernel
  have hright : (k.getAccount right.ctx.store addr).isSome = true := by decide +kernel
  have hstorage : left.ctx.store.evm.storage = Finmap.singleton (addr, slot) zeroHash.bytes := by
    decide +kernel
  have hstorage' : right.ctx.store.evm.storage = ∅ := by decide +kernel
  have hread : ∀ key, (left.getState env addr key).1 = getState left.ctx.store addr key :=
    getState_new config hleft
  have hread' : ∀ key, (right.getState env addr key).1 = getState right.ctx.store addr key :=
    getState_new config hright
  refine ⟨fun key => ⟨?_, ?_⟩, by decide +kernel, by decide +kernel, by decide +kernel⟩
  · rw [hread]
    exact getState_of_zero_singleton hstorage key
  · rw [hread']
    exact getState_of_empty hstorage' key

end Vm.Keeper

end CosmosEvm
