import CosmosEvm.Sdk.Keepers
import Mathlib.Tactic.Positivity
import Mathlib.Tactic.Ring

/-!
# Decimals

`math.LegacyDec`: integers scaled by `10 ^ 18`. `mul`, `add` and `sub` panic when their result is too wide;
the operations here are those of results that are not, and `checked` says which ones panic.
-/

namespace CosmosEvm

@[ext]
structure Dec where
  raw : ℤ
deriving DecidableEq

namespace Dec

def precision : ℤ := 10 ^ 18

theorem precision_pos : 0 < precision := by
  unfold precision
  positivity

def value (d : Dec) : ℚ := d.raw / precision

theorem value_le_value {d d' : Dec} : d.value ≤ d'.value ↔ d.raw ≤ d'.raw := by
  have hprecision : (0 : ℚ) < precision := by exact_mod_cast precision_pos
  rw [value, value, div_le_div_iff_of_pos_right hprecision, Int.cast_le]

theorem value_nonneg {d : Dec} : 0 ≤ d.value ↔ 0 ≤ d.raw := by
  have hprecision : (0 : ℚ) < precision := by exact_mod_cast precision_pos
  rw [value, le_div_iff₀ hprecision, zero_mul, Int.cast_nonneg_iff]

def ofInt (n : ℤ) : Dec := ⟨n * precision⟩

/-- `chopPrecisionAndRound` of a number that is not negative: half is rounded to even. -/
def chopNonneg (d : ℤ) : ℤ :=
  let quo := d / precision
  let rem := d % precision
  if rem = 0 then quo
  else if rem < precision / 2 then quo
  else if precision / 2 < rem then quo + 1
  else if quo % 2 = 0 then quo
  else quo + 1

def chopPrecisionAndRound (d : ℤ) : ℤ := if d < 0 then -chopNonneg (-d) else chopNonneg d

def mul (d d' : Dec) : Dec := ⟨chopPrecisionAndRound (d.raw * d'.raw)⟩

def add (d d' : Dec) : Dec := ⟨d.raw + d'.raw⟩

def sub (d d' : Dec) : Dec := ⟨d.raw - d'.raw⟩

def quoInt (d : Dec) (n : ℤ) : Dec := ⟨d.raw.tdiv n⟩

def Fits (d : Dec) : Prop := d.raw.natAbs < 2 ^ 315

instance (d : Dec) : Decidable d.Fits := inferInstanceAs (Decidable (_ < _))

/-- The result of `Mul`, `Add` or `Sub`, which panic when it does not fit. -/
def checked (d : Dec) : Except Err Dec := if d.Fits then .ok d else .error (.panicked "Int overflow")

def truncateInt (d : Dec) : ℤ := d.raw.tdiv precision

def max (d d' : Dec) : Dec := if d.raw < d'.raw then d' else d

theorem chopNonneg_mul (n : ℤ) : chopNonneg (n * precision) = n := by
  have hne : precision ≠ 0 := precision_pos.ne'
  have hmod : n * precision % precision = 0 := Int.mul_emod_left n precision
  unfold chopNonneg
  simp only [hmod, if_true]
  exact Int.mul_ediv_cancel n hne

theorem chopPrecisionAndRound_mul (n : ℤ) : chopPrecisionAndRound (n * precision) = n := by
  unfold chopPrecisionAndRound
  split
  · rw [← neg_mul, chopNonneg_mul, neg_neg]
  · exact chopNonneg_mul n

theorem ofInt_mul (n : ℤ) (d : Dec) : (ofInt n).mul d = ⟨n * d.raw⟩ := by
  have hraw : (ofInt n).raw * d.raw = n * d.raw * precision := by
    simp only [ofInt]
    ring
  unfold mul
  rw [hraw, chopPrecisionAndRound_mul]

theorem truncateInt_ofInt (n : ℤ) : (ofInt n).truncateInt = n :=
  Int.mul_tdiv_cancel n precision_pos.ne'

theorem truncateInt_of_nonneg {d : Dec} (hnonneg : 0 ≤ d.raw) : d.truncateInt = d.raw / precision :=
  Int.tdiv_eq_ediv_of_nonneg hnonneg

theorem checked_of_fits {d : Dec} (hfits : d.Fits) : d.checked = .ok d := if_pos hfits

theorem checked_eq_ok_iff {d d' : Dec} : d.checked = .ok d' ↔ d.Fits ∧ d = d' := by
  unfold checked
  by_cases hfits : d.Fits <;> simp [hfits]

theorem raw_max (d d' : Dec) : (d.max d').raw = Max.max d.raw d'.raw := by
  unfold max
  by_cases hlt : d.raw < d'.raw
  · rw [if_pos hlt, max_eq_right hlt.le]
  · rw [if_neg hlt, max_eq_left (not_lt.1 hlt)]

theorem truncateInt_mono {d d' : Dec} (hle : d.raw ≤ d'.raw) : d.truncateInt ≤ d'.truncateInt :=
  Int.tdiv_le_tdiv precision_pos hle

theorem truncateInt_max (d d' : Dec) :
    (d.max d').truncateInt = Max.max d.truncateInt d'.truncateInt := by
  unfold max
  by_cases hlt : d.raw < d'.raw
  · rw [if_pos hlt]
    exact (max_eq_right (truncateInt_mono hlt.le)).symm
  · rw [if_neg hlt]
    exact (max_eq_left (truncateInt_mono (not_lt.mp hlt))).symm

end Dec

end CosmosEvm
