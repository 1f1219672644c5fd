import CosmosEvm.Lib.CacheKv
import Mathlib.Data.Int.Notation

/-!
# snapshotkv.Store

One key-value store under a stack of caches. Reads and writes go to the top cache, `Snapshot` pushes a fresh
one, `RevertToSnapshot` drops caches and `Commit` writes each cache to the one below it.
-/

namespace CosmosEvm.SnapshotKv

variable {Key Value : Type} [DecidableEq Key]

structure Store (cache : CacheKv Key Value) where
  parent : Key → Option Value
  initialStore : cache.Layer
  cacheStores : List cache.Layer

namespace Store

variable {cache : CacheKv Key Value}

def newStore (parent : Key → Option Value) (store : cache.Layer) : Store cache where
  parent := parent
  initialStore := store
  cacheStores := []

variable (s : Store cache)

def currentStore : Key → Option Value :=
  cache.viewAll (cache.view s.initialStore s.parent) s.cacheStores

def put (s : Store cache) (key : Key) (value : Option Value) : Store cache :=
  match s.cacheStores.getLast? with
  | none => { s with initialStore := cache.put s.initialStore key value }
  | some top => { s with cacheStores := s.cacheStores.dropLast ++ [cache.put top key value] }

def snapshot : Store cache :=
  { s with cacheStores := s.cacheStores ++ [cache.newStore] }

/-- `RevertToSnapshot`, where `none` is the panic on an index out of bounds. -/
def revertToSnapshot (target : ℤ) : Option (Store cache) :=
  if target < 0 ∨ (s.cacheStores.length : ℤ) ≤ target then none
  else some { s with cacheStores := s.cacheStores.take target.toNat }

/-- `Commit`: every cache is written to the one below it, the top first, and the initial store to its
parent. -/
def commit : Store cache where
  parent := CacheKv.applyEntries s.parent
    (cache.entries (cache.flatten s.initialStore s.cacheStores))
  initialStore := cache.newStore
  cacheStores := []

def raw : SnapshotStack cache.Layer := ⟨s.initialStore, s.cacheStores⟩

def stack : SnapshotStack (Key → Option Value) where
  initial := cache.view s.initialStore s.parent
  layers := cache.views (cache.view s.initialStore s.parent) s.cacheStores

omit [DecidableEq Key] in
theorem current_stack : s.stack.current = s.currentStore :=
  CacheKv.getLast?_views _ _

omit [DecidableEq Key] in
theorem length_stack : s.stack.layers.length = s.cacheStores.length :=
  CacheKv.length_views _ _

theorem stack_snapshot (hcache : cache.Lawful) (s : Store cache) :
    s.snapshot.stack = s.stack.snapshot := by
  unfold SnapshotStack.snapshot
  rw [current_stack]
  apply SnapshotStack.ext
  · rfl
  · simp only [stack, snapshot, SnapshotStack.push, CacheKv.views_append_singleton,
      hcache.view_newStore, currentStore]

theorem stack_put (hcache : cache.Lawful) (s : Store cache) (key : Key) (value : Option Value) :
    (s.put key value).stack = s.stack.put (Function.update s.currentStore key value) := by
  unfold put currentStore
  cases hlast : s.cacheStores.getLast? with
  | none =>
    have hnil := List.getLast?_eq_none_iff.mp hlast
    simp only [stack, SnapshotStack.put, hnil, CacheKv.views, CacheKv.viewAll, List.foldl_nil,
      hcache.view_put]
  | some top =>
    obtain ⟨layers, hlayers⟩ := List.getLast?_eq_some_iff.mp hlast
    have hne : cache.views (cache.view s.initialStore s.parent) s.cacheStores ≠ [] := by
      intro hnil
      have hlength := CacheKv.length_views (cache.view s.initialStore s.parent) s.cacheStores
      rw [hnil, hlayers] at hlength
      simp at hlength
    obtain ⟨view, views, hviews⟩ := List.exists_cons_of_ne_nil hne
    apply SnapshotStack.ext
    · simp only [stack, SnapshotStack.put, hviews]
    · simp only [stack, SnapshotStack.put, hviews]
      rw [← hviews, hlayers]
      simp only [List.dropLast_concat, CacheKv.views_append_singleton, hcache.view_put,
        CacheKv.viewAll, List.foldl_append, List.foldl_cons, List.foldl_nil]

omit [DecidableEq Key] in
theorem stack_revertToSnapshot {target : ℤ} (htarget : 0 ≤ target) :
    (s.revertToSnapshot target).map stack = s.stack.revertTo target.toNat := by
  unfold revertToSnapshot SnapshotStack.revertTo
  rw [length_stack]
  by_cases hlt : target.toNat < s.cacheStores.length
  · rw [if_pos hlt, if_neg (by omega)]
    simp [stack, CacheKv.take_views]
  · rw [if_neg hlt, if_pos (by omega)]
    rfl

theorem stack_commit (hcache : cache.Lawful) (s : Store cache) :
    s.commit.stack = s.stack.commit := by
  unfold SnapshotStack.commit
  rw [current_stack]
  apply SnapshotStack.ext
  · simp only [stack, commit, hcache.view_newStore, hcache.applyEntries_entries,
      hcache.view_flatten, currentStore]
  · rfl

end Store

inductive Op (Key Value : Type) where
  | put (key : Key) (value : Option Value)
  | snapshot
  | revertToSnapshot (target : ℤ)
  | commit

variable {cache : CacheKv Key Value}

def Store.exec (s : Store cache) : Op Key Value → Option (Store cache)
  | .put key value => some (s.put key value)
  | .snapshot => some s.snapshot
  | .revertToSnapshot target => s.revertToSnapshot target
  | .commit => some s.commit

/-- What the calls are for, without caches: contents are saved and restored as a whole, over those of the
store below. -/
def Op.apply (t : SnapshotStack (Key → Option Value) × (Key → Option Value)) :
    Op Key Value → Option (SnapshotStack (Key → Option Value) × (Key → Option Value))
  | .put key value => some (t.1.put (Function.update t.1.current key value), t.2)
  | .snapshot => some (t.1.snapshot, t.2)
  | .revertToSnapshot target =>
    if target < 0 then none else (t.1.revertTo target.toNat).map fun stack => (stack, t.2)
  | .commit => some (t.1.commit, t.1.current)

def Store.contents (s : Store cache) : SnapshotStack (Key → Option Value) × (Key → Option Value) :=
  (s.stack, s.parent)

theorem Store.contents_exec (hcache : cache.Lawful) (s : Store cache) (op : Op Key Value) :
    (s.exec op).map contents = op.apply s.contents := by
  cases op with
  | put key value =>
    have hparent : (s.put key value).parent = s.parent := by
      unfold put
      split <;> rfl
    simp only [exec, Op.apply, contents, Option.map_some, stack_put hcache, current_stack, hparent]
  | snapshot =>
    simp only [exec, Op.apply, contents, Option.map_some, stack_snapshot hcache]
    rfl
  | revertToSnapshot target =>
    unfold exec Op.apply
    dsimp only
    split_ifs with hneg
    · rw [revertToSnapshot, if_pos (.inl hneg), Option.map_none]
    · have hstack := stack_revertToSnapshot s (Int.not_lt.mp hneg)
      unfold contents
      rw [← hstack, Option.map_map]
      unfold revertToSnapshot
      split <;> rfl
  | commit =>
    have hparent : s.commit.parent = s.currentStore := by
      simp only [commit, hcache.applyEntries_entries, hcache.view_flatten, currentStore]
    simp only [exec, Op.apply, contents, Option.map_some, stack_commit hcache, current_stack, hparent]

/-- Over any calls, a store under its stack of caches panics where there is nothing to go back to, and else
has the right contents at every level and below. -/
theorem Store.run_refines (hcache : cache.Lawful) (s : Store cache) (ops : List (Op Key Value)) :
    (ops.foldlM exec s).map contents = ops.foldlM Op.apply s.contents := by
  induction ops generalizing s with
  | nil => rfl
  | cons op ops ih =>
    have hstep := contents_exec hcache s op
    rw [List.foldlM_cons, List.foldlM_cons, ← hstep]
    cases s.exec op with
    | none => rfl
    | some middle => exact ih middle

theorem run_refines_log :
    let ops : List (Op String ℕ) :=
      [.put "a" (some 1), .snapshot, .put "a" none, .snapshot, .revertToSnapshot 0, .snapshot, .commit]
    let s : Store (CacheKv.log String ℕ) := .newStore (fun _ => some 7) []
    ∃ s', ops.foldlM Store.exec s = some s' ∧ s'.parent "a" = some 1 ∧
      some s'.contents = ops.foldlM Op.apply s.contents := by
  intro ops s
  exact ⟨_, rfl, rfl, Store.run_refines (CacheKv.log_lawful String ℕ) s ops⟩

end CosmosEvm.SnapshotKv
