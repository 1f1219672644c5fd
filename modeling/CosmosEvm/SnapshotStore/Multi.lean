import CosmosEvm.SnapshotStore.Kv

/-!
# snapshotmulti.Store

The stores of all modules with one stack of snapshots over them. `CacheMultiStore` hands out the store
itself with one more snapshot on it, and `Write` flattens the whole stack.
-/

namespace CosmosEvm.SnapshotMulti

variable {StoreKey Key Value : Type} [DecidableEq StoreKey] [DecidableEq Key]

/-- `snapshotmulti.Store`: the stores by key, in the order of the keys. Their stacks are always as
high as `head` says. -/
structure Store (StoreKey : Type) (cache : CacheKv Key Value) where
  stores : List (StoreKey × SnapshotKv.Store cache)
  head : ℤ
  length_eq : ∀ entry ∈ stores, (entry.2.cacheStores.length : ℤ) = head

inductive Op (StoreKey Key Value : Type) where
  | set (storeKey : StoreKey) (key : Key) (value : Value)
  | delete (storeKey : StoreKey) (key : Key)
  | snapshot
  | cacheMultiStore
  | revertToSnapshot (target : ℤ)
  | write

namespace Store

variable {cache : CacheKv Key Value}

def newStore (stores : List (StoreKey × (Key → Option Value) × cache.Layer)) :
    Store StoreKey cache where
  stores := stores.map fun entry => (entry.1, SnapshotKv.Store.newStore entry.2.1 entry.2.2)
  head := 0
  length_eq := by
    intro entry hentry
    obtain ⟨source, _, rfl⟩ := List.mem_map.mp hentry
    rfl

def find (s : Store StoreKey cache) (storeKey : StoreKey) : Option (SnapshotKv.Store cache) :=
  (s.stores.find? fun entry => entry.1 = storeKey).map Prod.snd

variable (s : Store StoreKey cache)

/-- The contents that `GetKVStore` shows, nothing under a key that is not registered. -/
def contents (storeKey : StoreKey) : Key → Option Value :=
  ((s.find storeKey).map SnapshotKv.Store.currentStore).getD fun _ => none

def mapStores (f : SnapshotKv.Store cache → SnapshotKv.Store cache)
    (head : ℤ) (hlength : ∀ store, (store.cacheStores.length : ℤ) = s.head →
      ((f store).cacheStores.length : ℤ) = head) : Store StoreKey cache where
  stores := s.stores.map fun entry => (entry.1, f entry.2)
  head := head
  length_eq := by
    intro entry hentry
    obtain ⟨source, hsource, rfl⟩ := List.mem_map.mp hentry
    exact hlength source.2 (s.length_eq source hsource)

def snapshot (s : Store StoreKey cache) : Store StoreKey cache × ℤ :=
  (s.mapStores SnapshotKv.Store.snapshot (s.head + 1) fun store hlength => by
    simp [SnapshotKv.Store.snapshot, hlength], s.head)

/-- The loop of `RevertToSnapshot`, which panics at the first store that does. -/
def revertStores (target : ℤ) : List (StoreKey × SnapshotKv.Store cache) →
    Option (List (StoreKey × SnapshotKv.Store cache))
  | [] => some []
  | entry :: stores =>
    match entry.2.revertToSnapshot target, revertStores target stores with
    | some store, some reverted => some ((entry.1, store) :: reverted)
    | _, _ => none

omit [DecidableEq StoreKey] [DecidableEq Key] in
theorem length_of_mem_revertStores {target : ℤ} {stores reverted : List
    (StoreKey × SnapshotKv.Store cache)} (hrevert : revertStores target stores = some reverted)
    {entry : StoreKey × SnapshotKv.Store cache} (hentry : entry ∈ reverted) :
    (entry.2.cacheStores.length : ℤ) = target := by
  induction stores generalizing reverted with
  | nil =>
    cases hrevert
    simp at hentry
  | cons head stores ih =>
    unfold revertStores at hrevert
    split at hrevert
    · rename_i store rest hstore hrest
      cases hrevert
      rcases List.mem_cons.mp hentry with rfl | hmem
      · unfold SnapshotKv.Store.revertToSnapshot at hstore
        split at hstore
        · simp at hstore
        · cases hstore
          simp only [List.length_take]
          omega
      · exact ih hrest hmem
    · simp at hrevert

/-- `RevertToSnapshot`, where `none` is the panic on an index out of bounds. -/
def revertToSnapshot (target : ℤ) : Option (Store StoreKey cache) :=
  match hrevert : revertStores target s.stores with
  | none => none
  | some stores => some
      { stores, head := target, length_eq := fun _ => length_of_mem_revertStores hrevert }

/-- `GetKVStore(storeKey).Set` and `.Delete`, where `none` is the panic on a key that is not
registered. -/
def put (s : Store StoreKey cache) (storeKey : StoreKey) (key : Key) (value : Option Value) :
    Option (Store StoreKey cache) :=
  if (s.find storeKey).isSome then
    some
      { stores := s.stores.map fun entry =>
          (entry.1, if entry.1 = storeKey then entry.2.put key value else entry.2)
        head := s.head
        length_eq := by
          intro entry hentry
          obtain ⟨source, hsource, rfl⟩ := List.mem_map.mp hentry
          simp only
          split
          · rw [← s.length_eq source hsource]
            unfold SnapshotKv.Store.put
            cases hlast : source.2.cacheStores.getLast? with
            | none => rfl
            | some top =>
              have hne : source.2.cacheStores ≠ [] := by
                intro hnil
                simp [hnil] at hlast
              have hpos := List.length_pos_of_ne_nil hne
              simp only [List.length_append, List.length_dropLast, List.length_singleton]
              omega
          · exact s.length_eq source hsource }
  else none

def write : Store StoreKey cache :=
  s.mapStores SnapshotKv.Store.commit 0 fun _ _ => rfl

def exec : Op StoreKey Key Value → Option (Store StoreKey cache)
  | .set storeKey key value => s.put storeKey key (some value)
  | .delete storeKey key => s.put storeKey key none
  | .snapshot => some s.snapshot.1
  | .cacheMultiStore => some s.snapshot.1
  | .revertToSnapshot target => s.revertToSnapshot target
  | .write => some s.write

def run (s : Store StoreKey cache) : List (Op StoreKey Key Value) → Option (Store StoreKey cache)
  | [] => some s
  | op :: ops => (s.exec op).bind fun s => run s ops

end Store

abbrev Heap (Ref StoreKey : Type) (cache : CacheKv Key Value) := Ref → Store StoreKey cache

/-- `CacheMultiStore` and `CacheWrap`: the snapshot is taken on the store behind the handle, and the
handle returned is the same one. -/
def Heap.cacheMultiStore {Ref : Type} [DecidableEq Ref] {cache : CacheKv Key Value}
    (heap : Heap Ref StoreKey cache) (ref : Ref) : Heap Ref StoreKey cache × Ref :=
  (Function.update heap ref (heap ref).snapshot.1, ref)

def Heap.run {Ref : Type} [DecidableEq Ref] {cache : CacheKv Key Value}
    (heap : Heap Ref StoreKey cache) (ref : Ref) (ops : List (Op StoreKey Key Value)) :
    Option (Heap Ref StoreKey cache) :=
  ((heap ref).run ops).map (Function.update heap ref)

end CosmosEvm.SnapshotMulti
