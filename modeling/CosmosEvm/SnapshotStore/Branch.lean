import CosmosEvm.SnapshotStore.Multi
import Mathlib.Data.List.Forall2

namespace CosmosEvm.SnapshotKv.Store

variable {Key Value : Type} {cache : CacheKv Key Value} {below s s' : Store cache}

structure Above (below s : Store cache) : Prop where
  parent_eq : s.parent = below.parent
  raw : SnapshotStack.Above below.raw s.raw

theorem Above.snapshot_self (s : Store cache) : Above s s.snapshot :=
  ⟨rfl, .push_self s.raw cache.newStore⟩

theorem Above.snapshot (habove : Above below s) : Above below s.snapshot :=
  ⟨habove.parent_eq, habove.raw.push cache.newStore⟩

theorem Above.put (habove : Above below s) (key : Key) (value : Option Value) :
    Above below (s.put key value) := by
  have hlt : below.cacheStores.length < s.cacheStores.length := habove.raw.lt_length
  unfold SnapshotKv.Store.put
  cases hlast : s.cacheStores.getLast? with
  | none =>
    rw [List.getLast?_eq_none_iff.mp hlast] at hlt
    simp at hlt
  | some top =>
    have hput := habove.raw.put (cache.put top key value)
    obtain ⟨layers, hlayers⟩ := List.getLast?_eq_some_iff.mp hlast
    obtain ⟨first, rest, hcons⟩ := List.exists_cons_of_length_pos (Nat.zero_lt_of_lt hlt)
    refine ⟨habove.parent_eq, ?_⟩
    have hraw : (s.raw.put (cache.put top key value)) =
        ⟨s.initialStore, s.cacheStores.dropLast ++ [cache.put top key value]⟩ := by
      simp only [SnapshotStack.put, SnapshotKv.Store.raw, hcons]
    rw [hraw] at hput
    exact hput

theorem revertToSnapshot_eq_some {target : ℤ} (hrevert : s.revertToSnapshot target = some s') :
    0 ≤ target ∧ s.raw.revertTo target.toNat = some s'.raw ∧ s'.parent = s.parent := by
  unfold revertToSnapshot at hrevert
  split at hrevert
  · simp at hrevert
  · cases hrevert
    refine ⟨by omega, ?_, rfl⟩
    unfold SnapshotStack.revertTo raw
    rw [if_pos (by simp only; omega)]

theorem Above.revertToSnapshot (habove : Above below s) {target : ℤ}
    (htarget : (below.cacheStores.length : ℤ) < target)
    (hrevert : s.revertToSnapshot target = some s') : Above below s' := by
  obtain ⟨hnonneg, hraw, hparent⟩ := revertToSnapshot_eq_some hrevert
  refine ⟨hparent.trans habove.parent_eq, habove.raw.revertTo ?_ hraw⟩
  change below.cacheStores.length < target.toNat
  omega

theorem Above.revertToSnapshot_eq (habove : Above below s) :
    s.revertToSnapshot below.cacheStores.length = some below := by
  have hlt : below.cacheStores.length < s.cacheStores.length := habove.raw.lt_length
  have htake : s.cacheStores.take below.cacheStores.length = below.cacheStores := habove.raw.take_eq
  have hinitial : s.initialStore = below.initialStore := habove.raw.initial_eq
  unfold SnapshotKv.Store.revertToSnapshot
  rw [if_neg (by omega)]
  simp [htake, hinitial, habove.parent_eq]

end CosmosEvm.SnapshotKv.Store

namespace CosmosEvm.SnapshotMulti

variable {StoreKey Key Value : Type} {cache : CacheKv Key Value}

/-- The operation leaves the snapshot of the given index alone: no `Write`, and no revert to it or
below. -/
def Op.StaysAbove (index : ℤ) : Op StoreKey Key Value → Prop
  | .revertToSnapshot target => index < target
  | .write => False
  | _ => True

namespace Store

variable {below s s' : Store StoreKey cache}

def Above (below s : Store StoreKey cache) : Prop :=
  List.Forall₂ (fun old new => new.1 = old.1 ∧ SnapshotKv.Store.Above old.2 new.2)
    below.stores s.stores

theorem Above.snapshot_self (s : Store StoreKey cache) : Above s s.snapshot.1 := by
  unfold Above snapshot mapStores
  rw [List.forall₂_map_right_iff, List.forall₂_same]
  exact fun entry _ => ⟨rfl, .snapshot_self entry.2⟩

theorem Above.snapshot (habove : Above below s) : Above below s.snapshot.1 := by
  unfold Above Store.snapshot mapStores
  rw [List.forall₂_map_right_iff]
  exact habove.imp fun _ _ h => ⟨h.1, h.2.snapshot⟩

theorem Above.put [DecidableEq StoreKey] (habove : Above below s) {storeKey : StoreKey} {key : Key}
    {value : Option Value} (hput : s.put storeKey key value = some s') : Above below s' := by
  unfold Store.put at hput
  split at hput
  · cases hput
    unfold Above
    rw [List.forall₂_map_right_iff]
    refine habove.imp fun old new h => ⟨h.1, ?_⟩
    simp only
    split
    · exact h.2.put key value
    · exact h.2
  · simp at hput

theorem forall₂_revertStores {target : ℤ} {stores reverted : List
    (StoreKey × SnapshotKv.Store cache)} (hrevert : revertStores target stores = some reverted) :
    List.Forall₂ (fun old new => new.1 = old.1 ∧ old.2.revertToSnapshot target = some new.2)
      stores reverted := by
  induction stores generalizing reverted with
  | nil =>
    cases hrevert
    exact .nil
  | cons entry stores ih =>
    unfold revertStores at hrevert
    split at hrevert
    · rename_i store rest hstore hrest
      cases hrevert
      exact .cons ⟨rfl, hstore⟩ (ih hrest)
    · simp at hrevert

theorem revertToSnapshot_stores {target : ℤ} (hrevert : s.revertToSnapshot target = some s') :
    revertStores target s.stores = some s'.stores ∧ s'.head = target := by
  unfold revertToSnapshot at hrevert
  split at hrevert
  · simp at hrevert
  · rename_i stores hstores
    cases hrevert
    exact ⟨hstores, rfl⟩

theorem revertToSnapshot_eq_some_of {target : ℤ} {stores : List (StoreKey × SnapshotKv.Store cache)}
    (hrevert : revertStores target s.stores = some stores) (hstores : below.stores = stores)
    (hhead : below.head = target) : s.revertToSnapshot target = some below := by
  obtain ⟨belowStores, belowHead, hlength⟩ := below
  subst hstores hhead
  unfold revertToSnapshot
  split
  · rename_i hnone
    rw [hnone] at hrevert
    simp at hrevert
  · rename_i stores hsome
    rw [hsome] at hrevert
    cases hrevert
    rfl

theorem Above.revertToSnapshot (habove : Above below s) {target : ℤ} (htarget : below.head < target)
    (hrevert : s.revertToSnapshot target = some s') : Above below s' := by
  have hstep := forall₂_revertStores (revertToSnapshot_stores hrevert).1
  have hlength := below.length_eq
  unfold Above at habove ⊢
  revert habove hstep hlength
  generalize below.stores = old, s.stores = middle, s'.stores = new
  intro habove hstep hlength
  induction habove generalizing new with
  | nil =>
    cases hstep
    exact .nil
  | cons hhead htail ih =>
    cases hstep with
    | cons hhead' htail' =>
      have hlt := hlength _ List.mem_cons_self
      refine .cons ⟨hhead'.1.trans hhead.1, hhead.2.revertToSnapshot ?_ hhead'.2⟩
        (ih _ htail' fun entry hentry => hlength entry (List.mem_cons_of_mem _ hentry))
      omega

theorem Above.revertToSnapshot_eq (habove : Above below s) :
    s.revertToSnapshot below.head = some below := by
  refine revertToSnapshot_eq_some_of ?_ rfl rfl
  have hlength := below.length_eq
  unfold Above at habove
  revert habove hlength
  generalize below.stores = old, s.stores = new
  intro habove hlength
  induction habove with
  | nil => rfl
  | cons hhead htail ih =>
    have hrest := ih fun entry hentry => hlength entry (List.mem_cons_of_mem _ hentry)
    have hfirst := hhead.2.revertToSnapshot_eq
    rw [hlength _ List.mem_cons_self] at hfirst
    simp only [revertStores, hfirst, hrest, hhead.1]

theorem Above.exec [DecidableEq StoreKey] [DecidableEq Key] (habove : Above below s)
    {op : Op StoreKey Key Value} (hop : op.StaysAbove below.head) (hexec : s.exec op = some s') :
    Above below s' := by
  cases op with
  | set storeKey key value => exact habove.put hexec
  | delete storeKey key => exact habove.put hexec
  | snapshot =>
    cases hexec
    exact habove.snapshot
  | cacheMultiStore =>
    cases hexec
    exact habove.snapshot
  | revertToSnapshot target => exact habove.revertToSnapshot hop hexec
  | write => exact hop.elim

theorem Above.run [DecidableEq StoreKey] [DecidableEq Key] (habove : Above below s)
    {ops : List (Op StoreKey Key Value)} (hops : ∀ op ∈ ops, op.StaysAbove below.head)
    (hrun : s.run ops = some s') : Above below s' := by
  induction ops generalizing s with
  | nil =>
    cases hrun
    exact habove
  | cons op ops ih =>
    obtain ⟨middle, hexec, hrest⟩ := Option.bind_eq_some_iff.mp hrun
    apply ih (habove.exec (hops op List.mem_cons_self) hexec)
    · exact fun other hother => hops other (List.mem_cons_of_mem op hother)
    · exact hrest

section Contents

variable [DecidableEq StoreKey]

theorem find?_map_snd (stores : List (StoreKey × SnapshotKv.Store cache))
    (change : StoreKey → SnapshotKv.Store cache → SnapshotKv.Store cache) (storeKey : StoreKey) :
    ((stores.map fun entry => (entry.1, change entry.1 entry.2)).find? fun entry =>
      entry.1 = storeKey).map Prod.snd =
      ((stores.find? fun entry => entry.1 = storeKey).map Prod.snd).map (change storeKey) := by
  induction stores with
  | nil => rfl
  | cons entry stores ih =>
    by_cases hkey : entry.1 = storeKey
    · simp [hkey]
    · simpa [hkey] using ih

section

variable {head : ℤ} (s : Store StoreKey cache) (f : SnapshotKv.Store cache → SnapshotKv.Store cache)
  (hlength : ∀ store, (store.cacheStores.length : ℤ) = s.head → ((f store).cacheStores.length : ℤ) = head)

include hlength

theorem find_mapStores (storeKey : StoreKey) :
    (s.mapStores f head hlength).find storeKey = (s.find storeKey).map f :=
  find?_map_snd s.stores (fun _ => f) storeKey

theorem contents_mapStores (hshows : ∀ store, (f store).currentStore = store.currentStore) :
    (s.mapStores f head hlength).contents = s.contents := by
  funext storeKey
  unfold contents
  rw [find_mapStores]
  cases s.find storeKey with
  | none => rfl
  | some store => exact hshows store

end

variable [DecidableEq Key]

theorem contents_snapshot (hcache : cache.Lawful) (s : Store StoreKey cache) :
    s.snapshot.1.contents = s.contents := by
  unfold snapshot
  rw [contents_mapStores]
  intro store
  rw [← SnapshotKv.Store.current_stack, SnapshotKv.Store.stack_snapshot hcache,
    SnapshotStack.current_snapshot, SnapshotKv.Store.current_stack]

theorem contents_write (hcache : cache.Lawful) (s : Store StoreKey cache) :
    s.write.contents = s.contents := by
  refine contents_mapStores s _ _ fun store => ?_
  rw [← SnapshotKv.Store.current_stack, SnapshotKv.Store.stack_commit hcache,
    SnapshotStack.current_commit, SnapshotKv.Store.current_stack]

omit [DecidableEq Key] in
theorem find_put {storeKey : StoreKey} {key : Key} {value : Option Value}
    (hput : s.put storeKey key value = some s') (other : StoreKey) :
    (s.find storeKey).isSome ∧ s'.find other = (s.find other).map fun store =>
      if other = storeKey then store.put key value else store := by
  unfold put at hput
  split at hput
  · rename_i hregistered
    cases hput
    exact ⟨hregistered, find?_map_snd s.stores (fun other store =>
      if other = storeKey then store.put key value else store) other⟩
  · simp at hput

theorem contents_put (hcache : cache.Lawful) {storeKey : StoreKey} {key : Key}
    {value : Option Value} (hput : s.put storeKey key value = some s') :
    s'.contents = Function.update s.contents storeKey
      (Function.update (s.contents storeKey) key value) := by
  have hshows : ∀ store : SnapshotKv.Store cache, (store.put key value).currentStore =
      Function.update store.currentStore key value := fun store => by
    rw [← SnapshotKv.Store.current_stack, SnapshotKv.Store.stack_put hcache,
      SnapshotStack.current_put]
  funext other
  obtain ⟨hregistered, hfind⟩ := find_put hput other
  by_cases hother : other = storeKey
  · subst hother
    obtain ⟨store, hstore⟩ := Option.isSome_iff_exists.mp hregistered
    simp [contents, hfind, hstore, hshows]
  · simp only [contents, hfind, hother, if_false, Option.map_id', Function.update_of_ne, ne_eq,
      not_false_eq_true]

omit [DecidableEq StoreKey] in
theorem revertToSnapshot_write (s : Store StoreKey cache) (hstores : s.stores ≠ []) (target : ℤ) :
    s.write.revertToSnapshot target = none := by
  cases hrevert : s.write.revertToSnapshot target with
  | none => rfl
  | some reverted =>
    obtain ⟨entry, stores, hcons⟩ := List.exists_cons_of_ne_nil hstores
    have hpanics : entry.2.commit.revertToSnapshot target = none := by
      unfold SnapshotKv.Store.revertToSnapshot SnapshotKv.Store.commit
      rw [if_pos (by simp only [List.length_nil]; omega)]
    have hloop := (revertToSnapshot_stores hrevert).1
    simp [write, mapStores, hcons, revertStores, hpanics] at hloop

end Contents

end Store

variable {Ref : Type} [DecidableEq Ref] [DecidableEq StoreKey] [DecidableEq Key]

/-- `CacheMultiStore` returns the handle it is called on, so that a branch shows and changes the
parent's contents. Reverting to a snapshot's index gives back the very store it was taken on as long
as nothing below it was reverted or written. `Write` keeps the contents, merges all layers, refuses
every index from then on and starts the indices again. -/
theorem branch_law (hcache : cache.Lawful) :
    (∀ (heap : Heap Ref StoreKey cache) (ref : Ref),
      (heap.cacheMultiStore ref).2 = ref ∧
      ((heap.cacheMultiStore ref).1 ref).contents = (heap ref).contents ∧
      (∀ ops, ((heap.cacheMultiStore ref).1.run (heap.cacheMultiStore ref).2 ops).map
        (fun heap' => heap' ref) = (heap ref).snapshot.1.run ops) ∧
      ∀ storeKey key value heap', (heap.cacheMultiStore ref).1.run (heap.cacheMultiStore ref).2
          [.set storeKey key value] = some heap' →
        (heap' ref).contents = Function.update (heap ref).contents storeKey
          (Function.update ((heap ref).contents storeKey) key (some value))) ∧
    (∀ (s s' : Store StoreKey cache) (ops : List (Op StoreKey Key Value)),
      (∀ op ∈ ops, op.StaysAbove s.snapshot.2) → s.snapshot.1.run ops = some s' →
        s'.revertToSnapshot s.snapshot.2 = some s) ∧
    (∀ s : Store StoreKey cache, s.write.contents = s.contents ∧
      (s.stores ≠ [] → ∀ target, s.write.revertToSnapshot target = none) ∧
      (∀ entry ∈ s.write.stores, entry.2.cacheStores = []) ∧ s.write.snapshot.2 = 0) := by
  refine ⟨fun heap ref => ?_, fun s s' ops hops hrun => ?_, fun s => ?_⟩
  · have hbranch : (heap.cacheMultiStore ref).1 ref = (heap ref).snapshot.1 := by
      simp [Heap.cacheMultiStore]
    have hcontents := Store.contents_snapshot hcache (heap ref)
    have hshared : ∀ ops, ((heap.cacheMultiStore ref).1.run (heap.cacheMultiStore ref).2 ops).map
        (fun heap' => heap' ref) = (heap ref).snapshot.1.run ops := by
      intro ops
      change Option.map _ ((((heap.cacheMultiStore ref).1 ref).run ops).map _) = _
      rw [hbranch, Option.map_map]
      cases (heap ref).snapshot.1.run ops with
      | none => rfl
      | some reached => simp [Heap.cacheMultiStore]
    refine ⟨rfl, ?_, hshared, fun storeKey key value heap' hrun => ?_⟩
    · rw [hbranch, hcontents]
    · have hwritten := hshared [.set storeKey key value]
      rw [hrun] at hwritten
      obtain ⟨_, hput, hdone⟩ := Option.bind_eq_some_iff.mp hwritten.symm
      cases hdone
      rw [Store.contents_put hcache hput, hcontents]
  · have habove := (Store.Above.snapshot_self s).run hops hrun
    exact habove.revertToSnapshot_eq
  · refine ⟨Store.contents_write hcache s, s.revertToSnapshot_write, fun entry hentry => ?_, rfl⟩
    obtain ⟨source, _, rfl⟩ := List.mem_map.mp hentry
    rfl

theorem branch_law_log :
    let store : Store String (CacheKv.log String Nat) :=
      .newStore [("store", fun _ => some 7, [])]
    let ops : List (Op String String Nat) :=
      [.set "store" "a" 1, .cacheMultiStore, .delete "store" "a", .revertToSnapshot 1]
    (CacheKv.log String Nat).Lawful ∧ ∃ s', store.snapshot.1.run ops = some s' ∧
      s'.revertToSnapshot store.snapshot.2 = some store := by
  intro store ops
  refine ⟨CacheKv.log_lawful String Nat, _, rfl, ?_⟩
  refine (@branch_law String String Nat (CacheKv.log String Nat) Unit _ _ _
    (CacheKv.log_lawful String Nat)).2.1 store _ ops ?_ rfl
  intro op hop
  simp only [ops, List.mem_cons, List.not_mem_nil, or_false] at hop
  rcases hop with rfl | rfl | rfl | rfl
  · trivial
  · trivial
  · trivial
  · exact (by decide : (0 : ℤ) < 1)

/-- A write through a branch that is dropped stays in the parent, and a `Write` on a branch takes the
parent's earlier snapshot away. -/
theorem branch_not_isolated :
    let store : Store String (CacheKv.log String Nat) := .newStore [("store", fun _ => none, [])]
    let heap : Heap Unit String (CacheKv.log String Nat) := fun _ => store
    let branched := heap.cacheMultiStore ()
    let heap₀ : Heap Unit String (CacheKv.log String Nat) := fun _ => store.snapshot.1
    let branched₀ := heap₀.cacheMultiStore ()
    (∃ heap', branched.1.run branched.2 [.set "store" "a" 1] = some heap' ∧
      (heap ()).contents "store" "a" = none ∧ (heap' ()).contents "store" "a" = some 1) ∧
    (∃ heap', branched₀.1.run branched₀.2 [.write] = some heap' ∧
      ((heap₀ ()).revertToSnapshot store.snapshot.2).isSome = true ∧
      (heap' ()).revertToSnapshot store.snapshot.2 = none) := by
  refine ⟨⟨_, rfl, rfl, rfl⟩, ⟨_, rfl, rfl, rfl⟩⟩

end CosmosEvm.SnapshotMulti
