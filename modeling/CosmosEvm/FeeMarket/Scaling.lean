import CosmosEvm.FeeMarket.BaseFee

namespace CosmosEvm.FeeMarket

def lawBaseFee (gas target denom : ℕ) (baseFee minUnit minPrice : ℤ) : ℤ :=
  if gas ≠ target ∧ target = 0 then 0 else nextBaseFee gas target denom baseFee minUnit minPrice

theorem raw_calcGasBaseFee {gas target denom : ℕ} {baseFee minUnit minPrice result : Dec}
    (hfee : 0 ≤ baseFee.raw)
    (hcalc : calcGasBaseFee gas target denom baseFee minUnit minPrice = .ok result) :
    result.raw = lawBaseFee gas target denom baseFee.raw minUnit.raw minPrice.raw := by
  unfold lawBaseFee
  rcases Nat.eq_zero_or_pos target with rfl | htarget
  · by_cases heq : gas = 0
    · subst heq
      rw [if_neg (by simp), nextBaseFee, if_pos rfl, ← Except.ok.inj hcalc]
    · unfold calcGasBaseFee at hcalc
      rw [if_neg heq, if_pos rfl] at hcalc
      rw [if_pos ⟨heq, rfl⟩, ← Except.ok.inj hcalc]
  · rw [if_neg (by omega)]
    exact raw_of_calcGasBaseFee hfee htarget hcalc

section Values

variable {gas target denom : ℕ} {scale n minPrice : ℤ}

theorem law_of_eq (heq : gas = target) (denom : ℕ) (baseFee minUnit minPrice : ℤ) :
    lawBaseFee gas target denom baseFee minUnit minPrice = baseFee := by
  unfold lawBaseFee nextBaseFee
  rw [if_neg (fun hzero => hzero.1 heq), if_pos heq]

theorem law_of_target_eq_zero (hne : gas ≠ 0) (denom : ℕ) (baseFee minUnit minPrice : ℤ) :
    lawBaseFee gas 0 denom baseFee minUnit minPrice = 0 :=
  if_pos ⟨hne, rfl⟩

theorem law_of_gt (htarget : 0 < target) (hlt : target < gas) (denom : ℕ) (baseFee minUnit minPrice : ℤ) :
    lawBaseFee gas target denom baseFee minUnit minPrice =
      baseFee + max (move gas target denom baseFee) minUnit := by
  unfold lawBaseFee nextBaseFee
  rw [if_neg (by omega), if_neg (by omega), if_pos hlt]

theorem law_of_lt (hlt : gas < target) (denom : ℕ) (baseFee minUnit minPrice : ℤ) :
    lawBaseFee gas target denom baseFee minUnit minPrice =
      max (baseFee - move gas target denom baseFee) minPrice := by
  unfold lawBaseFee nextBaseFee
  rw [if_neg (by omega), if_neg (by omega), if_neg (by omega)]

theorem law_nonneg {baseFee minUnit : ℤ} (hfee : 0 ≤ baseFee) (hunit : 0 ≤ minUnit) (hprice : 0 ≤ minPrice) :
    0 ≤ lawBaseFee gas target denom baseFee minUnit minPrice := by
  unfold lawBaseFee nextBaseFee
  split_ifs with hempty heq hlt
  · exact le_rfl
  · exact hfee
  · exact add_nonneg hfee (hunit.trans (le_max_right _ _))
  · exact hprice.trans (le_max_right _ _)

theorem move_le_mul {baseFee : ℤ} (hfee : 0 ≤ baseFee) :
    move gas target denom baseFee ≤ |(gas : ℤ) - target| * baseFee := by
  unfold move
  rw [Int.ediv_ediv_of_nonneg (Int.natCast_nonneg target)]
  exact Int.ediv_le_self _ (mul_nonneg (abs_nonneg _) hfee)

theorem law_le {baseFee minUnit : ℤ} (hfee : 0 ≤ baseFee) (hunit : 0 ≤ minUnit) :
    lawBaseFee gas target denom baseFee minUnit 0 ≤ baseFee + |(gas : ℤ) - target| * baseFee + minUnit := by
  have hproduct : 0 ≤ |(gas : ℤ) - target| * baseFee := mul_nonneg (abs_nonneg _) hfee
  have hmove : move gas target denom baseFee ≤ |(gas : ℤ) - target| * baseFee := move_le_mul hfee
  have hmove' : 0 ≤ move gas target denom baseFee := move_nonneg hfee
  unfold lawBaseFee nextBaseFee
  split_ifs with hempty heq hlt
  · omega
  · omega
  · omega
  · omega

theorem max_ediv (hscale : 0 < scale) (a b : ℤ) : max a b / scale = max (a / scale) (b / scale) := by
  have hmono : Monotone fun a : ℤ => a / scale := fun _ _ hle => Int.ediv_le_ediv hscale hle
  exact hmono.map_max

theorem move_ediv (hscale : 0 < scale) :
    move gas target denom (n * scale) / scale = |(gas : ℤ) - target| * n / (target * denom) := by
  have hnonneg : (0 : ℤ) ≤ target * denom := by positivity
  rw [move, Int.ediv_ediv_of_nonneg (Int.natCast_nonneg target), Int.ediv_ediv_of_nonneg hnonneg, ← mul_assoc,
    Int.mul_ediv_mul_of_pos_left _ _ hscale]

theorem move_emod (hscale : 0 < scale) (hpos : (0 : ℤ) < target * denom) :
    move gas target denom (n * scale) % scale =
      |(gas : ℤ) - target| * n % (target * denom) * scale / (target * denom) := by
  have hsplit : |(gas : ℤ) - target| * n * scale = |(gas : ℤ) - target| * n % (target * denom) * scale +
      target * denom * (|(gas : ℤ) - target| * n / (target * denom) * scale) := by
    have hdiv := Int.emod_add_mul_ediv (|(gas : ℤ) - target| * n) (target * denom)
    calc |(gas : ℤ) - target| * n * scale
        = (|(gas : ℤ) - target| * n % (target * denom) +
            target * denom * (|(gas : ℤ) - target| * n / (target * denom))) * scale := by rw [hdiv]
      _ = _ := by ring
  have hrest := Int.emod_nonneg (|(gas : ℤ) - target| * n) hpos.ne'
  have hlt := Int.emod_lt_of_pos (|(gas : ℤ) - target| * n) hpos
  rw [move, Int.ediv_ediv_of_nonneg (Int.natCast_nonneg target), ← mul_assoc, hsplit,
    Int.add_mul_ediv_left _ _ hpos.ne', Int.add_mul_emod_self_right]
  apply Int.emod_eq_of_lt
  · exact Int.ediv_nonneg (mul_nonneg hrest hscale.le) hpos.le
  · rw [Int.ediv_lt_iff_lt_mul hpos]
    nlinarith

theorem law_ediv_of_gt (hscale : 0 < scale) (htarget : 0 < target) (hlt : target < gas) :
    lawBaseFee gas target denom (n * scale) scale minPrice / scale =
      n + max (|(gas : ℤ) - target| * n / (target * denom)) 1 := by
  rw [law_of_gt htarget hlt, add_comm, Int.add_mul_ediv_right _ _ hscale.ne', max_ediv hscale,
    Int.ediv_self hscale.ne', move_ediv hscale, add_comm]

theorem neg_ediv_eq {a : ℤ} (hscale : 0 < scale) :
    -a / scale = if a % scale = 0 then -(a / scale) else -(a / scale) - 1 := by
  have hdiv := Int.emod_add_mul_ediv a scale
  have hrest := Int.emod_nonneg a hscale.ne'
  have hlt := Int.emod_lt_of_pos a hscale
  have hneg : -a = -(a % scale) + scale * (-(a / scale)) := by
    rw [mul_neg]
    omega
  rw [hneg, Int.add_mul_ediv_left _ _ hscale.ne']
  split_ifs with hzero
  · rw [hzero, neg_zero, Int.zero_ediv, zero_add]
  · have hone : -(a % scale) / scale = -1 := by
      apply (Int.ediv_emod_unique hscale (r := scale - a % scale)).2 ⟨by ring, by omega, by omega⟩ |>.1
    omega

theorem law_ediv_of_lt (hscale : 0 < scale) (hlt : gas < target) (hdenom : 0 < denom) :
    lawBaseFee gas target denom (n * scale) scale minPrice / scale =
      max (n - |(gas : ℤ) - target| * n / (target * denom) -
        if |(gas : ℤ) - target| * n % (target * denom) * scale < target * denom then 0 else 1)
        (minPrice / scale) := by
  have hpos : (0 : ℤ) < target * denom := by
    have htarget : (0 : ℤ) < target := by omega
    positivity
  have hrest := Int.emod_nonneg (|(gas : ℤ) - target| * n) hpos.ne'
  have hnonneg : 0 ≤ |(gas : ℤ) - target| * n % (target * denom) * scale := mul_nonneg hrest hscale.le
  rw [law_of_lt hlt, max_ediv hscale, sub_eq_neg_add, Int.add_mul_ediv_right _ _ hscale.ne',
    neg_ediv_eq hscale, move_emod hscale hpos, move_ediv hscale]
  congr 1
  by_cases hsmall : |(gas : ℤ) - target| * n % (target * denom) * scale < target * denom
  · rw [if_pos hsmall, if_pos (Int.ediv_eq_zero_of_lt hnonneg hsmall)]
    ring
  · rw [if_neg hsmall, if_neg]
    · ring
    · have hone : 1 ≤ |(gas : ℤ) - target| * n % (target * denom) * scale / (target * denom) := by
        rw [Int.le_ediv_iff_mul_le hpos]
        omega
      omega

/-- What is left of the exact step below the target shows at both scales or at none. -/
def SameRounding (gas target denom : ℕ) (coarse fine n : ℤ) : Prop :=
  gas < target → ¬ (|(gas : ℤ) - target| * n % (target * denom) * coarse < target * denom ∧
    (target * denom : ℤ) ≤ |(gas : ℤ) - target| * n % (target * denom) * (coarse * fine))

/-- Division by the fine factor commutes with the step unless its remainder shows at one scale alone. -/
theorem law_scale {coarse fine : ℤ} (hcoarse : 0 < coarse) (hfine : 0 < fine) (hdenom : 0 < denom)
    (hrounds : SameRounding gas target denom coarse fine n) :
    lawBaseFee gas target denom (n * (coarse * fine)) (coarse * fine) (minPrice * fine) / (coarse * fine) =
      lawBaseFee gas target denom (n * coarse) coarse minPrice / coarse := by
  have hscale : 0 < coarse * fine := mul_pos hcoarse hfine
  rcases lt_trichotomy gas target with hlt | heq | hgt
  · have hpos : (0 : ℤ) < target * denom := by
      have htarget : (0 : ℤ) < target := by omega
      positivity
    have hrest := Int.emod_nonneg (|(gas : ℤ) - target| * n) hpos.ne'
    have hle : |(gas : ℤ) - target| * n % (target * denom) * coarse ≤
        |(gas : ℤ) - target| * n % (target * denom) * (coarse * fine) := by
      rw [← mul_assoc]
      exact le_mul_of_one_le_right (mul_nonneg hrest hcoarse.le) hfine
    have hsame := hrounds hlt
    rw [law_ediv_of_lt hscale hlt hdenom, law_ediv_of_lt hcoarse hlt hdenom,
      Int.mul_ediv_mul_of_pos_left _ _ hfine]
    congr 2
    by_cases hsmall : |(gas : ℤ) - target| * n % (target * denom) * (coarse * fine) < target * denom
    · rw [if_pos hsmall, if_pos (hle.trans_lt hsmall)]
    · rw [if_neg hsmall, if_neg]
      intro hshown
      exact hsame ⟨hshown, not_lt.mp hsmall⟩
  · rw [law_of_eq heq, law_of_eq heq, Int.mul_ediv_cancel _ hscale.ne', Int.mul_ediv_cancel _ hcoarse.ne']
  · rcases Nat.eq_zero_or_pos target with rfl | htarget
    · rw [law_of_target_eq_zero hgt.ne', law_of_target_eq_zero hgt.ne', Int.zero_ediv, Int.zero_ediv]
    · rw [law_ediv_of_gt hscale htarget hgt, law_ediv_of_gt hcoarse htarget hgt]

theorem law_scale_iff {coarse fine : ℤ} (hcoarse : 0 < coarse) (hfine : 0 < fine) (hdenom : 0 < denom) :
    lawBaseFee gas target denom (n * (coarse * fine)) (coarse * fine) (minPrice * fine) / (coarse * fine) =
        lawBaseFee gas target denom (n * coarse) coarse minPrice / coarse ↔
      SameRounding gas target denom coarse fine n ∨
        n - |(gas : ℤ) - target| * n / (target * denom) ≤ minPrice / coarse := by
  by_cases hrounds : SameRounding gas target denom coarse fine n
  · exact iff_of_true (law_scale hcoarse hfine hdenom hrounds) (.inl hrounds)
  · obtain ⟨hlt, hdiffer⟩ := Classical.not_imp.mp hrounds
    obtain ⟨hhidden, hshown⟩ := not_not.mp hdiffer
    rw [or_iff_right hrounds, law_ediv_of_lt (mul_pos hcoarse hfine) hlt hdenom, law_ediv_of_lt hcoarse hlt hdenom,
      if_pos hhidden, if_neg (not_lt.mpr hshown), Int.mul_ediv_mul_of_pos_left _ _ hfine]
    omega

theorem law_of_floor (hle : gas ≤ target) (hprice : 0 ≤ minPrice) (denom : ℕ) (minUnit : ℤ) :
    lawBaseFee gas target denom minPrice minUnit minPrice = minPrice := by
  rcases hle.eq_or_lt with heq | hlt
  · exact law_of_eq heq denom minPrice minUnit minPrice
  · rw [law_of_lt hlt]
    exact max_eq_right (sub_le_self _ (move_nonneg hprice))

/-- At the floor the fine computation stays with the whole units of the minimum gas price. -/
theorem law_scale_of_floor {coarse fine : ℤ} (hcoarse : 0 < coarse) (hfine : 0 < fine) (hle : gas ≤ target)
    (hprice : 0 ≤ minPrice) (denom : ℕ) :
    lawBaseFee gas target denom (minPrice / coarse * (coarse * fine)) (coarse * fine) (minPrice * fine) /
      (coarse * fine) = minPrice / coarse := by
  have hscale : 0 < coarse * fine := mul_pos hcoarse hfine
  rcases hle.eq_or_lt with heq | hlt
  · rw [law_of_eq heq, Int.mul_ediv_cancel _ hscale.ne']
  · have hunits : minPrice / coarse * (coarse * fine) ≤ minPrice * fine := by
      rw [← mul_assoc]
      exact mul_le_mul_of_nonneg_right (Int.ediv_mul_le _ hcoarse.ne') hfine.le
    have hmove : 0 ≤ move gas target denom (minPrice / coarse * (coarse * fine)) :=
      move_nonneg (mul_nonneg (Int.ediv_nonneg hprice hcoarse.le) hscale.le)
    rw [law_of_lt hlt, max_eq_right ((sub_le_self _ hmove).trans hunits), Int.mul_ediv_mul_of_pos_left _ _ hfine]

theorem law_zero (hscale : 0 < scale) :
    lawBaseFee gas target 1 0 scale 0 / scale = if 0 < target ∧ target < gas then 1 else 0 := by
  have hwhole : (0 : ℤ) = 0 * scale := (zero_mul scale).symm
  rcases lt_trichotomy gas target with hlt | heq | hgt
  · rw [if_neg (by omega), hwhole, law_ediv_of_lt hscale hlt one_pos]
    have hpos : 0 < target := Nat.zero_lt_of_lt hlt
    simp [hpos]
  · rw [if_neg (by omega), law_of_eq heq, Int.zero_ediv]
  · rcases Nat.eq_zero_or_pos target with rfl | htarget
    · rw [if_neg (by omega), law_of_target_eq_zero hgt.ne', Int.zero_ediv]
    · rw [if_pos ⟨htarget, hgt⟩]
      conv_lhs => rw [hwhole, law_ediv_of_gt hscale htarget hgt]
      simp

theorem law_rise (hscale : 0 < scale) (htarget : 0 < target) (hlt : target < gas) {k : ℤ} (hk : 1 ≤ k) :
    lawBaseFee gas target 1 (target * k * scale) scale 0 / scale =
      target * k + |(gas : ℤ) - target| * k := by
  have hpos : (0 : ℤ) < target := by omega
  have hone : 1 ≤ |(gas : ℤ) - target| := Int.one_le_abs (by omega)
  rw [law_ediv_of_gt hscale htarget hlt, Nat.cast_one, mul_one, mul_left_comm, Int.mul_ediv_cancel_left _ hpos.ne',
    max_eq_left (one_le_mul_of_one_le_of_one_le hone hk)]

theorem law_fall (hscale : 0 < scale) (hlt : gas < target) {k : ℤ} (hk : 0 ≤ k) :
    lawBaseFee gas target 2 (2 * target * k * scale) scale 0 / scale =
      2 * target * k - |(gas : ℤ) - target| * k := by
  have hpos : (0 : ℤ) < target * (2 : ℕ) := by
    push_cast
    omega
  have habs : |(gas : ℤ) - target| ≤ target := by
    rw [abs_le]
    omega
  have hexact : |(gas : ℤ) - target| * (2 * target * k) = target * (2 : ℕ) * (|(gas : ℤ) - target| * k) := by
    push_cast
    ring
  rw [law_ediv_of_lt hscale hlt two_pos, hexact, Int.mul_ediv_cancel_left _ hpos.ne', Int.mul_emod_right,
    zero_mul, if_pos hpos, sub_zero, Int.zero_ediv, max_eq_left]
  have hle : |(gas : ℤ) - target| * k ≤ target * k := mul_le_mul_of_nonneg_right habs hk
  have hnonneg : 0 ≤ target * k := mul_nonneg (Int.natCast_nonneg target) hk
  linarith

end Values

section Targets

variable {used target wanted target' : ℕ} {coarse fine : ℤ}

/-- The coarse computation on a base fee, and the fine one on its whole units, give one value. -/
def Agree (used target wanted target' : ℕ) (coarse fine : ℤ) (denom : ℕ) (baseFee : ℤ) : Prop :=
  lawBaseFee used target denom (baseFee / coarse * (coarse * fine)) (coarse * fine) 0 / (coarse * fine) =
    lawBaseFee wanted target' denom baseFee coarse 0 / coarse

/-- Both blocks are at their targets, or both targets are empty and both blocks are not. -/
def AtTargets (used target wanted target' : ℕ) : Prop :=
  (used = target ∧ wanted = target') ∨ (target = 0 ∧ used ≠ 0 ∧ target' = 0 ∧ wanted ≠ 0)

theorem Agree.whole {denom : ℕ} {n : ℤ} (hcoarse : 0 < coarse)
    (hagree : Agree used target wanted target' coarse fine denom (n * coarse)) :
    lawBaseFee used target denom (n * (coarse * fine)) (coarse * fine) 0 / (coarse * fine) =
      lawBaseFee wanted target' denom (n * coarse) coarse 0 / coarse := by
  unfold Agree at hagree
  rwa [Int.mul_ediv_cancel _ hcoarse.ne'] at hagree

theorem above_iff_of_agree (hcoarse : 0 < coarse) (hfine : 0 < fine)
    (hagree : Agree used target wanted target' coarse fine 1 0) :
    0 < target ∧ target < used ↔ 0 < target' ∧ target' < wanted := by
  unfold Agree at hagree
  rw [Int.zero_ediv, zero_mul, law_zero (mul_pos hcoarse hfine), law_zero hcoarse] at hagree
  split_ifs at hagree with hleft hright hright
  · exact iff_of_true hleft hright
  · exact absurd hagree one_ne_zero
  · exact absurd hagree zero_ne_one
  · exact iff_of_false hleft hright

theorem law_ediv_of_still {gas target denom : ℕ} {scale n : ℤ} (hscale : 0 < scale)
    (hstill : gas = target ∨ target = 0) :
    lawBaseFee gas target denom (n * scale) scale 0 / scale = if gas = target then n else 0 := by
  by_cases heq : gas = target
  · rw [if_pos heq, law_of_eq heq, Int.mul_ediv_cancel _ hscale.ne']
  · obtain rfl := hstill.resolve_left heq
    rw [if_neg heq, law_of_target_eq_zero heq, Int.zero_ediv]

theorem fall_ne_still {gas target : ℕ} {n : ℤ} (hlt : gas < target) {p : Prop} [Decidable p]
    (hn : n = 2 * target * 1) : n - |(gas : ℤ) - target| * 1 ≠ if p then n else 0 := by
  have habs : |(gas : ℤ) - target| ≤ target ∧ 1 ≤ |(gas : ℤ) - target| := by
    rw [abs_le]
    exact ⟨by omega, Int.one_le_abs (by omega)⟩
  split_ifs
  · omega
  · omega

theorem sub_one_ediv (hcoarse : 1 < coarse) (n : ℤ) : (n * coarse - 1) / coarse = n - 1 :=
  ((Int.ediv_emod_unique (by omega) (r := coarse - 1)).2 ⟨by ring, by omega, by omega⟩).1

theorem ediv_eq_of_mul_eq {a b c d : ℤ} (hb : 0 < b) (hd : 0 < d) (hmul : a * d = c * b) : a / b = c / d := by
  rw [← Int.mul_ediv_mul_of_pos_left a b hd, ← Int.mul_ediv_mul_of_pos_left c d hb, hmul, mul_comm b d]

/-- Blocks above their targets that agree on whole units disagree on one less. -/
theorem not_agree_of_above (hcoarse : 2 ≤ coarse) (hfine : 0 < fine) (htarget : 0 < target)
    (htarget' : 0 < target') (hlt : target < used) (hlt' : target' < wanted)
    (hwhole : Agree used target wanted target' coarse fine 1 (2 * target * target' * coarse)) :
    ¬ Agree used target wanted target' coarse fine 1 (2 * target * target' * coarse - 1) := by
  have hpos : 0 < coarse := by omega
  have hscale : 0 < coarse * fine := mul_pos hpos hfine
  have ht : (1 : ℤ) ≤ target := by omega
  have ht' : (1 : ℤ) ≤ target' := by omega
  have hrise := hwhole.whole hpos
  rw [show (2 : ℤ) * target * target' = target * (2 * target') by ring, law_rise hscale htarget hlt (by omega),
    show (target : ℤ) * (2 * target') = target' * (2 * target) by ring,
    law_rise hpos htarget' hlt' (by omega)] at hrise
  generalize hdelta : |(used : ℤ) - target| = delta at hrise
  generalize hdelta' : |(wanted : ℤ) - target'| = delta' at hrise
  have hone : 1 ≤ delta := hdelta ▸ Int.one_le_abs (by omega)
  have hprop : delta * target' = delta' * target := by linarith
  -- the exact steps are the same fraction, rounded towards the larger one
  obtain ⟨e, he⟩ : ∃ e, e = -delta / target := ⟨_, rfl⟩
  have hsame : -delta' / target' = e := by
    rw [he]
    exact ediv_eq_of_mul_eq (by omega) (by omega) (by linarith)
  have hneg : e ≤ -1 := by
    rw [he, ← Int.lt_add_one_iff, neg_add_cancel]
    exact Int.ediv_neg_of_neg_of_pos (by omega) (by omega)
  have hsmall : -delta ≤ e := by
    rw [he, Int.le_ediv_iff_mul_le (by omega)]
    nlinarith
  intro hagree
  unfold Agree at hagree
  have hfineStep : delta * (2 * target * target' - 1) / (target * (1 : ℕ)) = 2 * delta * target' + e := by
    rw [show delta * (2 * target * target' - 1) = -delta + target * (2 * delta * target') by ring, Nat.cast_one,
      mul_one, Int.add_mul_ediv_left _ _ (by omega), he, add_comm]
  have hcoarseStep : move wanted target' 1 (2 * target * target' * coarse - 1) =
      2 * delta * target' * coarse + e := by
    rw [move, hdelta', Nat.cast_one, Int.ediv_one,
      show delta' * (2 * target * target' * coarse - 1) =
        -delta' + target' * (2 * (delta' * target) * coarse) by ring,
      Int.add_mul_ediv_left _ _ (by omega), hsame, ← hprop]
    ring
  rw [sub_one_ediv (by omega), law_ediv_of_gt hscale htarget hlt, law_of_gt htarget' hlt', hdelta, hfineStep,
    hcoarseStep] at hagree
  have hbig : delta * 1 ≤ delta * target' := mul_le_mul_of_nonneg_left ht' (by omega)
  rw [max_eq_left (by linarith : 1 ≤ 2 * delta * target' + e)] at hagree
  have hlower : 2 * target * target' + 2 * delta * target' + e ≤
      (2 * target * target' * coarse - 1 + max (2 * delta * target' * coarse + e) coarse) / coarse := by
    rw [Int.le_ediv_iff_mul_le hpos]
    have hmax := le_max_left (2 * delta * target' * coarse + e) coarse
    nlinarith
  omega

/-- Blocks that agree on whole units disagree on one less: what that leaves shows at the fine scale. -/
theorem not_agree_of_below (hcoarse : 2 ≤ coarse) (hfine : 0 < fine) (hlt : used < target)
    (hlt' : wanted < target')
    (hwhole : Agree used target wanted target' coarse fine 2 (2 * target * target' * coarse)) :
    ¬ Agree used target wanted target' coarse fine 2 (4 * target * target' * coarse - 1) := by
  have hpos : 0 < coarse := by omega
  have hscale : 0 < coarse * fine := mul_pos hpos hfine
  have hfall := hwhole.whole hpos
  rw [law_fall hscale hlt (Int.natCast_nonneg target'), mul_right_comm,
    law_fall hpos hlt' (Int.natCast_nonneg target)] at hfall
  have habs : |(used : ℤ) - target| ≤ target := by
    rw [abs_le]
    omega
  have habs' : |(wanted : ℤ) - target'| ≤ target' := by
    rw [abs_le]
    omega
  have hone : 1 ≤ |(used : ℤ) - target| := Int.one_le_abs (by omega)
  have hone' : 1 ≤ |(wanted : ℤ) - target'| := Int.one_le_abs (by omega)
  generalize hdelta : |(used : ℤ) - target| = delta at hfall habs hone
  generalize hdelta' : |(wanted : ℤ) - target'| = delta' at hfall habs' hone'
  have hprop : delta * target' = delta' * target := by linarith
  intro hagree
  unfold Agree at hagree
  have hexact : delta * (4 * target * target' - 1) = target * (2 : ℕ) * (2 * delta * target' - 1) +
      (2 * target - delta) := by
    push_cast
    ring
  have hfineStep : delta * (4 * target * target' - 1) / (target * (2 : ℕ)) = 2 * delta * target' - 1 ∧
      delta * (4 * target * target' - 1) % (target * (2 : ℕ)) = 2 * target - delta := by
    apply (Int.ediv_emod_unique (by omega)).2
    exact ⟨by rw [hexact]; ring, by omega, by push_cast; omega⟩
  have hcoarseStep : move wanted target' 2 (4 * target * target' * coarse - 1) =
      2 * delta * target' * coarse - 1 := by
    have hexact' : delta' * (4 * target * target' * coarse - 1) =
        (2 * target' - delta') + target' * (2 : ℕ) * (2 * (delta' * target) * coarse - 1) := by
      push_cast
      ring
    have hzero : (2 * target' - delta') / (target' * (2 : ℕ)) = 0 :=
      Int.ediv_eq_zero_of_lt (by omega) (by push_cast; omega)
    rw [move, hdelta', Int.ediv_ediv_of_nonneg (by omega), hexact', Int.add_mul_ediv_left _ _ (by omega), hzero,
      ← hprop]
    ring
  have hle : delta * target' ≤ target * target' := mul_le_mul_of_nonneg_right habs (Int.natCast_nonneg target')
  have hbig : (1 : ℤ) * 1 ≤ target * target' := mul_le_mul (by omega) (by omega) (by omega) (by omega)
  have hleft : 0 ≤ 4 * target * target' - 2 * delta * target' - 1 := by linarith
  -- what the whole units leave is at least half the target, so it shows at the fine scale
  have hshows : ¬ (2 * target - delta) * (coarse * fine) < target * (2 : ℕ) := by
    push_cast
    have htwo : 2 * 1 ≤ coarse * fine := mul_le_mul hcoarse hfine (by omega) (by omega)
    nlinarith
  rw [sub_one_ediv (by omega), law_ediv_of_lt hscale hlt two_pos, law_of_lt hlt', hdelta, hfineStep.1, hfineStep.2,
    hcoarseStep, if_neg hshows, max_ediv hpos, Int.zero_ediv,
    show 4 * target * target' * coarse - 1 - (2 * delta * target' * coarse - 1) =
      (4 * target * target' - 2 * delta * target') * coarse by ring, Int.mul_ediv_cancel _ hpos.ne',
    max_eq_left (by linarith), Int.zero_ediv, max_eq_left (by linarith)] at hagree
  omega

theorem not_agree_of_below_left (hcoarse : 0 < coarse) (hfine : 0 < fine) (hlt : used < target)
    (hstill : wanted = target' ∨ target' = 0) :
    ¬ Agree used target wanted target' coarse fine 2 (2 * target * 1 * coarse) := by
  intro hagree
  have hvalue := hagree.whole hcoarse
  rw [law_fall (mul_pos hcoarse hfine) hlt one_pos.le, law_ediv_of_still hcoarse hstill] at hvalue
  exact fall_ne_still hlt rfl hvalue

theorem not_agree_of_below_right (hcoarse : 0 < coarse) (hfine : 0 < fine) (hlt : wanted < target')
    (hstill : used = target ∨ target = 0) :
    ¬ Agree used target wanted target' coarse fine 2 (2 * target' * 1 * coarse) := by
  intro hagree
  have hvalue := hagree.whole hcoarse
  rw [law_fall hcoarse hlt one_pos.le, law_ediv_of_still (mul_pos hcoarse hfine) hstill] at hvalue
  exact fall_ne_still hlt rfl hvalue.symm

theorem atTargets_of_still (hcoarse : 0 < coarse) (hfine : 0 < fine) (hstill : used = target ∨ target = 0)
    (hstill' : wanted = target' ∨ target' = 0)
    (hagree : Agree used target wanted target' coarse fine 1 (1 * coarse)) :
    AtTargets used target wanted target' := by
  have hvalue := hagree.whole hcoarse
  rw [law_ediv_of_still (mul_pos hcoarse hfine) hstill, law_ediv_of_still hcoarse hstill'] at hvalue
  unfold AtTargets
  split_ifs at hvalue <;> omega

/-- A block away from its target has a small base fee on which the two scales disagree. -/
theorem atTargets_of_agree (hcoarse : 2 ≤ coarse) (hfine : 0 < fine)
    (hagree : ∀ denom : ℕ, 0 < denom → denom ≤ 2 → ∀ baseFee : ℤ, 0 ≤ baseFee →
      baseFee ≤ 4 * (target + 1) * (target' + 1) * coarse →
      Agree used target wanted target' coarse fine denom baseFee) :
    AtTargets used target wanted target' := by
  have hpos : 0 < coarse := by omega
  have hprod : 0 ≤ (target : ℤ) * target' := mul_nonneg (Int.natCast_nonneg _) (Int.natCast_nonneg _)
  have hrange : ∀ denom : ℕ, 0 < denom → denom ≤ 2 → ∀ n : ℤ, 0 ≤ n →
      n ≤ 4 * (target + 1) * (target' + 1) →
      Agree used target wanted target' coarse fine denom (n * coarse) := fun denom hdenom htwo n hn hle =>
    hagree denom hdenom htwo _ (mul_nonneg hn hpos.le) (mul_le_mul_of_nonneg_right hle hpos.le)
  have habove := above_iff_of_agree hpos hfine
    (by simpa using hrange 1 one_pos one_le_two 0 le_rfl (by positivity))
  -- each block is below its target, above it, or keeps still
  rcases lt_or_ge used target with hlt | hge
  · exfalso
    rcases lt_or_ge wanted target' with hlt' | hge'
    · have hone : (1 : ℤ) * 1 ≤ target * target' := mul_le_mul (by omega) (by omega) (by omega) (by omega)
      have hbig : 1 * 1 ≤ (target : ℤ) * target' * coarse := mul_le_mul hone (by omega) (by omega) hprod
      apply not_agree_of_below hcoarse hfine hlt hlt'
        (hrange 2 two_pos le_rfl (2 * target * target') (by positivity) (by nlinarith))
      exact hagree 2 two_pos le_rfl _ (by linarith) (by nlinarith)
    · exact not_agree_of_below_left hpos hfine hlt (by omega)
        (hrange 2 two_pos le_rfl (2 * target * 1) (by positivity) (by nlinarith))
  · rcases lt_or_ge wanted target' with hlt' | hge'
    · exact absurd (hrange 2 two_pos le_rfl (2 * target' * 1) (by positivity) (by nlinarith))
        (not_agree_of_below_right hpos hfine hlt' (by omega))
    · by_cases hup : 0 < target ∧ target < used
      · exfalso
        have hup' := habove.mp hup
        have hone : (1 : ℤ) * 1 ≤ target * target' := mul_le_mul (by omega) (by omega) (by omega) (by omega)
        have hbig : 1 * 1 ≤ (target : ℤ) * target' * coarse := mul_le_mul hone (by omega) (by omega) hprod
        apply not_agree_of_above hcoarse hfine hup.1 hup'.1 hup.2 hup'.2
          (hrange 1 one_pos one_le_two (2 * target * target') (by positivity) (by nlinarith))
        exact hagree 1 one_pos one_le_two _ (by linarith) (by nlinarith)
      · have hup' := mt habove.mpr hup
        exact atTargets_of_still hpos hfine (by omega) (by omega)
          (hrange 1 one_pos one_le_two 1 one_pos.le (by nlinarith))

end Targets

end CosmosEvm.FeeMarket
