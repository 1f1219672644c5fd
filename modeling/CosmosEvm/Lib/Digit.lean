import Mathlib.Tactic.Linarith
import Mathlib.Tactic.Ring

/-!
# One digit below the units

An amount is written `units * radix + digit` with `0 ≤ digit < radix`. Adding to the digit may carry one
unit, subtracting from it may borrow one.
-/

namespace CosmosEvm.Digit

variable {radix : ℤ}

def IsDigit (radix d : ℤ) : Prop := 0 ≤ d ∧ d < radix

def carry (radix d e : ℤ) : ℤ := if radix ≤ d + e then 1 else 0

def borrow (d e : ℤ) : ℤ := if d < e then 1 else 0

theorem borrow_eq_zero_or_one (d e : ℤ) : borrow d e = 0 ∨ borrow d e = 1 := by
  unfold borrow
  split <;> simp

theorem ite_le_add_eq (radix d e : ℤ) :
    (if radix ≤ d + e then d + e - radix else d + e) = d + e - carry radix d e * radix := by
  unfold carry
  split <;> ring

theorem ite_lt_sub_eq (radix d e : ℤ) :
    (if d < e then d - e + radix else d - e) = d - e + borrow d e * radix := by
  unfold borrow
  split <;> ring

section

variable {d e : ℤ} (hd : IsDigit radix d) (he : IsDigit radix e)

include hd he

theorem isDigit_add_sub_carry : IsDigit radix (d + e - carry radix d e * radix) := by
  obtain ⟨hd0, hd1⟩ := hd
  obtain ⟨he0, he1⟩ := he
  unfold carry IsDigit
  split <;> constructor <;> linarith

theorem isDigit_sub_add_borrow : IsDigit radix (d - e + borrow d e * radix) := by
  obtain ⟨hd0, hd1⟩ := hd
  obtain ⟨he0, he1⟩ := he
  unfold borrow IsDigit
  split <;> constructor <;> linarith

end

theorem isDigit_emod (hradix : 0 < radix) (amount : ℤ) : IsDigit radix (amount % radix) :=
  ⟨Int.emod_nonneg amount hradix.ne', Int.emod_lt_of_pos amount hradix⟩

theorem units_digit_unique {b b' d d' : ℤ} (hd : IsDigit radix d) (hd' : IsDigit radix d')
    (heq : b * radix + d = b' * radix + d') : b = b' ∧ d = d' := by
  obtain ⟨hd0, hd1⟩ := hd
  obtain ⟨hd0', hd1'⟩ := hd'
  have hradix : 0 < radix := by linarith
  have hb : b = b' := by
    by_contra hne
    rcases lt_or_gt_of_ne hne with hlt | hlt
    · have hstep : (b + 1) * radix ≤ b' * radix := mul_le_mul_of_nonneg_right (by omega) hradix.le
      linarith
    · have hstep : (b' + 1) * radix ≤ b * radix := mul_le_mul_of_nonneg_right (by omega) hradix.le
      linarith
  subst hb
  exact ⟨rfl, by linarith⟩

theorem mul_add_le_mul_add_iff {b d q e : ℤ} (hd : IsDigit radix d) (he : IsDigit radix e) :
    q * radix + e ≤ b * radix + d ↔ q + borrow d e ≤ b := by
  obtain ⟨hd0, hd1⟩ := hd
  obtain ⟨he0, he1⟩ := he
  have hradix : 0 < radix := by linarith
  constructor
  · intro hle
    by_contra hlt
    have hstep : (b + 1) * radix ≤ (q + borrow d e) * radix :=
      mul_le_mul_of_nonneg_right (by omega) hradix.le
    unfold borrow at hstep
    split at hstep <;> linarith
  · intro hle
    have hstep : (q + borrow d e) * radix ≤ b * radix := mul_le_mul_of_nonneg_right hle hradix.le
    unfold borrow at hstep
    split at hstep <;> linarith

end CosmosEvm.Digit
