import Mathlib.Order.Nat

/-!
# Cells written one step at a time

At each of the steps `1, 2, …` at most one cell is written. What a cell holds after a number of steps is
what the last step that wrote to it left there.
-/

namespace CosmosEvm.LastWriter

variable {κ ν : Type} [DecidableEq κ]

/-- The last of the first `n` steps that writes the cell, where step `t` writes the cell `writes t`. -/
def lastWriter (writes : ℕ → Option κ) (cell : κ) : ℕ → Option ℕ
  | 0 => none
  | n + 1 => if writes (n + 1) = some cell then some (n + 1) else lastWriter writes cell n

variable {writes : ℕ → Option κ} {cell : κ} {n t : ℕ}

theorem lastWriter_eq_some (hpos : 0 < t) (hle : t ≤ n) (hwrites : writes t = some cell)
    (hlater : ∀ u, t < u → u ≤ n → writes u ≠ some cell) :
    lastWriter writes cell n = some t := by
  induction n with
  | zero => omega
  | succ n ih =>
    rw [lastWriter]
    rcases Nat.lt_or_eq_of_le hle with hlt | rfl
    · rw [if_neg (hlater (n + 1) hlt le_rfl)]
      exact ih (Nat.le_of_lt_succ hlt) fun u htu hun => hlater u htu (Nat.le_succ_of_le hun)
    · rw [if_pos hwrites]

theorem lastWriter_spec (hlast : lastWriter writes cell n = some t) :
    0 < t ∧ t ≤ n ∧ writes t = some cell := by
  induction n with
  | zero => cases hlast
  | succ n ih =>
    rw [lastWriter] at hlast
    split at hlast
    · rename_i hwrites
      cases hlast
      exact ⟨n.succ_pos, le_rfl, hwrites⟩
    · obtain ⟨hpos, hle, hwrites⟩ := ih hlast
      exact ⟨hpos, Nat.le_succ_of_le hle, hwrites⟩

theorem cell_eq (contents : ℕ → κ → ν) (value : ℕ → ν) {initial : ν}
    (hinit : ∀ cell, contents 0 cell = initial)
    (hstep : ∀ n cell, contents (n + 1) cell =
      if writes (n + 1) = some cell then value (n + 1) else contents n cell) (n : ℕ) (cell : κ) :
    contents n cell = (lastWriter writes cell n).elim initial value := by
  induction n with
  | zero => exact hinit cell
  | succ n ih =>
    rw [hstep, lastWriter]
    split
    · rfl
    · exact ih

end CosmosEvm.LastWriter
