import Mathlib.Data.List.Basic

/-!
# A stack of snapshots

The contents of a store, below the contents it had at each snapshot taken since.
-/

namespace CosmosEvm

variable {σ : Type}

structure SnapshotStack (σ : Type) where
  initial : σ
  layers : List σ

namespace SnapshotStack

@[ext]
theorem ext {s t : SnapshotStack σ} (hinitial : s.initial = t.initial)
    (hlayers : s.layers = t.layers) : s = t := by
  cases s
  cases t
  simp_all

variable (s : SnapshotStack σ)

def current : σ := s.layers.getLast?.getD s.initial

variable (contents : σ)

def put : SnapshotStack σ :=
  match s.layers with
  | [] => { s with initial := contents }
  | _ :: _ => { s with layers := s.layers.dropLast ++ [contents] }

def push : SnapshotStack σ :=
  { s with layers := s.layers ++ [contents] }

def snapshot : SnapshotStack σ := s.push s.current

def revertTo (index : Nat) : Option (SnapshotStack σ) :=
  if index < s.layers.length then some { s with layers := s.layers.take index } else none

def commit : SnapshotStack σ := { initial := s.current, layers := [] }

@[simp]
theorem current_push : (s.push contents).current = contents := by
  simp [push, current]

@[simp]
theorem current_snapshot : s.snapshot.current = s.current :=
  current_push s s.current

@[simp]
theorem length_layers_push : (s.push contents).layers.length = s.layers.length + 1 := by
  simp [push]

@[simp]
theorem current_put : (s.put contents).current = contents := by
  cases hlayers : s.layers with
  | nil => simp [put, current, hlayers]
  | cons layer layers => simp [put, current, hlayers]

@[simp]
theorem current_commit : s.commit.current = s.current := by
  simp [commit, current]

@[simp]
theorem length_layers_put : (s.put contents).layers.length = s.layers.length := by
  cases hlayers : s.layers with
  | nil => simp [put, hlayers]
  | cons layer layers => simp [put, hlayers]

structure Above (below s : SnapshotStack σ) : Prop where
  initial_eq : s.initial = below.initial
  take_eq : s.layers.take below.layers.length = below.layers
  lt_length : below.layers.length < s.layers.length

theorem Above.push_self : Above s (s.push contents) where
  initial_eq := rfl
  take_eq := by simp [push]
  lt_length := by simp

section

variable {below s : SnapshotStack σ} (habove : Above below s)

include habove

theorem Above.put (contents : σ) : Above below (s.put contents) := by
  have hlt := habove.lt_length
  cases hlayers : s.layers with
  | nil => simp [hlayers] at hlt
  | cons layer layers =>
    have hdrop : s.layers.dropLast.take below.layers.length = below.layers := by
      rw [List.dropLast_eq_take, List.take_take, Nat.min_eq_left (by omega), habove.take_eq]
    refine ⟨?_, ?_, ?_⟩
    · simpa [SnapshotStack.put, hlayers] using habove.initial_eq
    · rw [hlayers] at hdrop
      have hle : below.layers.length ≤ (layer :: layers).dropLast.length := by
        simp only [hlayers, List.length_cons] at hlt
        simp only [List.length_dropLast, List.length_cons]
        omega
      simp only [SnapshotStack.put, hlayers]
      rw [List.take_append_of_le_length hle, hdrop]
    · rw [length_layers_put]
      exact hlt

theorem Above.push (contents : σ) : Above below (s.push contents) where
  initial_eq := habove.initial_eq
  take_eq := by
    have hle := Nat.le_of_lt habove.lt_length
    simp only [SnapshotStack.push]
    rw [List.take_append_of_le_length hle, habove.take_eq]
  lt_length := by
    have hlt := habove.lt_length
    rw [length_layers_push]
    omega

theorem Above.revertTo {s' : SnapshotStack σ} {index : Nat} (hindex : below.layers.length < index)
    (hrevert : s.revertTo index = some s') : Above below s' := by
  unfold SnapshotStack.revertTo at hrevert
  split at hrevert
  · cases hrevert
    refine ⟨habove.initial_eq, ?_, ?_⟩
    · rw [List.take_take, Nat.min_eq_left (Nat.le_of_lt hindex), habove.take_eq]
    · simp only [List.length_take]
      omega
  · simp at hrevert

theorem Above.revertTo_eq : s.revertTo below.layers.length = some below := by
  unfold SnapshotStack.revertTo
  rw [if_pos habove.lt_length, habove.take_eq, habove.initial_eq]

end

end SnapshotStack

end CosmosEvm
