import Mathlib.Data.List.Perm.Basic

/-!
# Binary heaps

The heap of Go's `container/heap`, over an array. `Fix` rearranges the array, and `Pop` takes one element
out.
-/

namespace CosmosEvm.BinaryHeap

variable {α : Type} (less : α → α → Bool)

def lessAt (heap : Array α) (i j : ℕ) : Bool :=
  match heap[i]?, heap[j]? with
  | some a, some b => less a b
  | _, _ => false

def down (heap : Array α) (i n : ℕ) : Array α × ℕ :=
  let left := 2 * i + 1
  if n ≤ left then (heap, i)
  else
    let child := if left + 1 < n ∧ lessAt less heap (left + 1) left then left + 1 else left
    if lessAt less heap child i then down (heap.swapIfInBounds i child) child n else (heap, i)
termination_by n - i
decreasing_by
  rename_i hleft _
  simp only [left] at hleft ⊢
  split_ifs <;> omega

def up (heap : Array α) (j : ℕ) : Array α :=
  let parent := (j - 1) / 2
  if parent = j ∨ lessAt less heap j parent = false then heap
  else up (heap.swapIfInBounds parent j) parent
termination_by j
decreasing_by
  rename_i hparent
  simp only [parent] at hparent ⊢
  omega

def fix (heap : Array α) (i : ℕ) : Array α :=
  let (sunk, j) := down less heap i heap.size
  if i < j then sunk else up less sunk i

def pop (heap : Array α) : Array α :=
  let n := heap.size - 1
  (down less (heap.swapIfInBounds 0 n) 0 n).1.pop

theorem swapIfInBounds_perm (heap : Array α) (i j : ℕ) : (heap.swapIfInBounds i j).Perm heap := by
  unfold Array.swapIfInBounds
  split
  · split
    · exact Array.swap_perm _ _
    · exact Array.Perm.refl heap
  · exact Array.Perm.refl heap

theorem down_perm (heap : Array α) (i n : ℕ) : (down less heap i n).1.Perm heap := by
  fun_induction down less heap i n with
  | case1 => exact Array.Perm.refl _
  | case2 heap i left hleft child hless ih => exact ih.trans (swapIfInBounds_perm heap i child)
  | case3 => exact Array.Perm.refl _

theorem up_perm (heap : Array α) (j : ℕ) : (up less heap j).Perm heap := by
  fun_induction up less heap j with
  | case1 => exact Array.Perm.refl _
  | case2 heap j parent hparent ih => exact ih.trans (swapIfInBounds_perm heap parent j)

theorem fix_perm (heap : Array α) (i : ℕ) : (fix less heap i).Perm heap := by
  unfold fix
  simp only
  split
  · exact down_perm less heap i heap.size
  · exact (up_perm less _ i).trans (down_perm less heap i heap.size)

theorem exists_pop_perm {heap : Array α} (hne : heap ≠ #[]) :
    ∃ a, heap.toList.Perm (a :: (pop less heap).toList) := by
  set sunk := (down less (heap.swapIfInBounds 0 (heap.size - 1)) 0 (heap.size - 1)).1 with hsunk
  have hperm : sunk.Perm heap := (down_perm less _ _ _).trans (swapIfInBounds_perm heap _ _)
  have hsize : 0 < sunk.size := by
    rw [hperm.size_eq]
    exact Array.size_pos_iff.2 hne
  have hlist : sunk.toList ≠ [] := by
    intro hnil
    rw [← Array.length_toList, hnil] at hsize
    exact absurd hsize (by simp)
  refine ⟨sunk.toList.getLast hlist, (Array.perm_iff_toList_perm.1 hperm).symm.trans ?_⟩
  have hpop : (pop less heap).toList = sunk.toList.dropLast := Array.toList_pop
  rw [hpop]
  exact (List.Perm.of_eq (List.dropLast_append_getLast hlist).symm).trans List.perm_append_comm

end CosmosEvm.BinaryHeap
