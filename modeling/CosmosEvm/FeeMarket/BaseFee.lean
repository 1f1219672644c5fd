import CosmosEvm.FeeMarket.Keeper
import Mathlib.Tactic.FieldSimp

namespace CosmosEvm.FeeMarket

def move (gas target denom : ℕ) (baseFee : ℤ) : ℤ := |(gas : ℤ) - target| * baseFee / target / denom

/-- The next base fee, where no intermediate result is too wide. -/
def nextBaseFee (gas target denom : ℕ) (baseFee minUnit minPrice : ℤ) : ℤ :=
  if gas = target then baseFee
  else if target < gas then baseFee + max (move gas target denom baseFee) minUnit
  else max (baseFee - move gas target denom baseFee) minPrice

section Law

variable {gas gas' target denom : ℕ} {baseFee minUnit minPrice : ℤ}

theorem move_nonneg (hfee : 0 ≤ baseFee) : 0 ≤ move gas target denom baseFee := by
  apply Int.ediv_nonneg _ (Int.natCast_nonneg denom)
  apply Int.ediv_nonneg _ (Int.natCast_nonneg target)
  exact mul_nonneg (abs_nonneg _) hfee

theorem move_mono (hfee : 0 ≤ baseFee) (htarget : 0 < target) (hdenom : 0 < denom)
    (hle : |(gas : ℤ) - target| ≤ |(gas' : ℤ) - target|) :
    move gas target denom baseFee ≤ move gas' target denom baseFee := by
  apply Int.ediv_le_ediv (by omega)
  apply Int.ediv_le_ediv (by omega)
  exact mul_le_mul_of_nonneg_right hle hfee

theorem move_le_baseFee (hfee : 0 ≤ baseFee) (hlt : gas < target) :
    move gas target denom baseFee ≤ baseFee := by
  have htarget : (0 : ℤ) < target := by omega
  have habs : |(gas : ℤ) - target| ≤ target := by
    rw [abs_le]
    omega
  calc move gas target denom baseFee
      ≤ |(gas : ℤ) - target| * baseFee / target :=
        Int.ediv_le_self _ (Int.ediv_nonneg (mul_nonneg (abs_nonneg _) hfee) htarget.le)
    _ ≤ target * baseFee / target :=
        Int.ediv_le_ediv htarget (mul_le_mul_of_nonneg_right habs hfee)
    _ = baseFee := Int.mul_ediv_cancel_left _ htarget.ne'

theorem move_le_div (htarget : 0 < target) (hdenom : 0 < denom) :
    (move gas target denom baseFee : ℚ) ≤ baseFee * |(gas : ℚ) - target| / (target * denom) := by
  have hmul : move gas target denom baseFee * (target * denom) ≤ |(gas : ℤ) - target| * baseFee := by
    rw [move, Int.ediv_ediv_of_nonneg (Int.natCast_nonneg target)]
    exact Int.ediv_mul_le _ (by positivity)
  rw [le_div_iff₀ (by positivity), mul_comm (baseFee : ℚ)]
  exact_mod_cast hmul

theorem nextBaseFee_le (hfee : 0 ≤ baseFee) (hmin : minPrice ≤ baseFee) (hle : gas ≤ target) :
    nextBaseFee gas target denom baseFee minUnit minPrice ≤ baseFee := by
  have hmove : 0 ≤ move gas target denom baseFee := move_nonneg hfee
  unfold nextBaseFee
  split_ifs with heq hlt
  · exact le_rfl
  · omega
  · exact max_le (by omega) hmin

theorem le_nextBaseFee (hunit : 0 ≤ minUnit) (hle : target ≤ gas) :
    baseFee ≤ nextBaseFee gas target denom baseFee minUnit minPrice := by
  unfold nextBaseFee
  split_ifs with heq hlt
  · exact le_rfl
  · have hmax : minUnit ≤ max (move gas target denom baseFee) minUnit := le_max_right _ _
    omega
  · omega

theorem minPrice_le_nextBaseFee (hunit : 0 ≤ minUnit) (hmin : minPrice ≤ baseFee) :
    minPrice ≤ nextBaseFee gas target denom baseFee minUnit minPrice := by
  by_cases hle : target ≤ gas
  · exact hmin.trans (le_nextBaseFee hunit hle)
  · unfold nextBaseFee
    rw [if_neg (by omega), if_neg (by omega)]
    exact le_max_right _ _

theorem nextBaseFee_mono (hfee : 0 ≤ baseFee) (hunit : 0 ≤ minUnit) (hmin : minPrice ≤ baseFee)
    (htarget : 0 < target) (hdenom : 0 < denom) (hle : gas ≤ gas') :
    nextBaseFee gas target denom baseFee minUnit minPrice ≤
      nextBaseFee gas' target denom baseFee minUnit minPrice := by
  by_cases hbelow : gas ≤ target
  · by_cases habove : target ≤ gas'
    · exact (nextBaseFee_le hfee hmin hbelow).trans (le_nextBaseFee hunit habove)
    · -- both are below the target, where the one closer to it falls less
      have hmove : move gas' target denom baseFee ≤ move gas target denom baseFee := by
        apply move_mono hfee htarget hdenom
        rw [abs_of_neg (by omega), abs_of_neg (by omega)]
        omega
      unfold nextBaseFee
      rw [if_neg (by omega), if_neg (by omega), if_neg (by omega), if_neg (by omega)]
      exact max_le_max_right _ (by omega)
  · have hmove : move gas target denom baseFee ≤ move gas' target denom baseFee := by
      apply move_mono hfee htarget hdenom
      rw [abs_of_pos (by omega), abs_of_pos (by omega)]
      omega
    have hmax := max_le_max_right minUnit hmove
    unfold nextBaseFee
    rw [if_neg (by omega), if_pos (by omega), if_neg (by omega), if_pos (by omega)]
    omega

theorem abs_nextBaseFee_sub_le (hfee : 0 ≤ baseFee) (hmin : minPrice ≤ baseFee) :
    |nextBaseFee gas target denom baseFee minUnit minPrice - baseFee| ≤
      max (move gas target denom baseFee) minUnit := by
  have hmove : 0 ≤ move gas target denom baseFee := move_nonneg hfee
  have hleft : move gas target denom baseFee ≤ max (move gas target denom baseFee) minUnit := le_max_left _ _
  unfold nextBaseFee
  split_ifs with heq hlt
  · rw [sub_self, abs_zero]
    omega
  · rw [add_sub_cancel_left, abs_of_nonneg (by omega)]
  · have hle : max (baseFee - move gas target denom baseFee) minPrice ≤ baseFee := max_le (by omega) hmin
    have hge : baseFee - move gas target denom baseFee ≤
        max (baseFee - move gas target denom baseFee) minPrice := le_max_left _ _
    rw [abs_of_nonpos (by omega)]
    omega

end Law

def Representable (gas target denom : ℕ) (baseFee minUnit : Dec) : Prop :=
  gas ≠ target → (⟨|(gas : ℤ) - target| * baseFee.raw⟩ : Dec).Fits ∧
    (target < gas → (⟨baseFee.raw + max (move gas target denom baseFee.raw) minUnit.raw⟩ : Dec).Fits)

instance (gas target denom : ℕ) (baseFee minUnit : Dec) :
    Decidable (Representable gas target denom baseFee minUnit) :=
  inferInstanceAs (Decidable (_ → _))

section Calc

variable {gas target denom : ℕ} {baseFee minUnit minPrice : Dec}

theorem raw_quoInt_quoInt (hfee : 0 ≤ baseFee.raw) :
    (((⟨|(gas : ℤ) - target| * baseFee.raw⟩ : Dec).quoInt target).quoInt denom).raw =
      move gas target denom baseFee.raw := by
  have hnonneg : 0 ≤ |(gas : ℤ) - target| * baseFee.raw := mul_nonneg (abs_nonneg _) hfee
  simp only [Dec.quoInt, move]
  rw [Int.tdiv_eq_ediv_of_nonneg hnonneg,
    Int.tdiv_eq_ediv_of_nonneg (Int.ediv_nonneg hnonneg (Int.natCast_nonneg target))]

theorem raw_of_calcGasBaseFee (hfee : 0 ≤ baseFee.raw) (htarget : 0 < target) {result : Dec}
    (hcalc : calcGasBaseFee gas target denom baseFee minUnit minPrice = .ok result) :
    result.raw = nextBaseFee gas target denom baseFee.raw minUnit.raw minPrice.raw := by
  unfold calcGasBaseFee at hcalc
  unfold nextBaseFee
  by_cases heq : gas = target
  · rw [if_pos heq] at hcalc
    rw [if_pos heq, ← Except.ok.inj hcalc]
  · rw [if_neg heq, if_neg htarget.ne', Dec.ofInt_mul, Result.bind_eq_ok_iff] at hcalc
    obtain ⟨num, hnum, hcalc⟩ := hcalc
    obtain ⟨-, rfl⟩ := Dec.checked_eq_ok_iff.1 hnum
    rw [if_neg heq]
    by_cases hlt : target < gas
    · rw [if_pos hlt] at hcalc
      obtain ⟨-, rfl⟩ := Dec.checked_eq_ok_iff.1 hcalc
      rw [if_pos hlt, Dec.add, Dec.raw_max, raw_quoInt_quoInt hfee]
    · rw [if_neg hlt, Result.bind_eq_ok_iff] at hcalc
      obtain ⟨lowered, hlowered, hresult⟩ := hcalc
      obtain ⟨-, rfl⟩ := Dec.checked_eq_ok_iff.1 hlowered
      rw [if_neg hlt, ← Except.ok.inj hresult, Dec.raw_max, Dec.sub, raw_quoInt_quoInt hfee]

theorem exists_calcGasBaseFee (hfee : 0 ≤ baseFee.raw) (htarget : 0 < target)
    (hrep : Representable gas target denom baseFee minUnit) :
    ∃ result, calcGasBaseFee gas target denom baseFee minUnit minPrice = .ok result := by
  unfold calcGasBaseFee
  by_cases heq : gas = target
  · exact ⟨_, if_pos heq⟩
  · obtain ⟨hnum, hsum⟩ := hrep heq
    rw [if_neg heq, if_neg htarget.ne', Dec.ofInt_mul, Result.exists_bind_eq_ok_iff]
    refine ⟨_, Dec.checked_of_fits hnum, ?_⟩
    by_cases hlt : target < gas
    · rw [if_pos hlt]
      refine ⟨_, Dec.checked_of_fits ?_⟩
      unfold Dec.Fits Dec.add
      rw [Dec.raw_max, raw_quoInt_quoInt hfee]
      exact hsum hlt
    · have hmove : move gas target denom baseFee.raw ≤ baseFee.raw := move_le_baseFee hfee (by omega)
      have hmove' : 0 ≤ move gas target denom baseFee.raw := move_nonneg hfee
      have hone : 1 ≤ |(gas : ℤ) - target| := Int.one_le_abs (by omega)
      have hwide : baseFee.raw ≤ |(gas : ℤ) - target| * baseFee.raw := le_mul_of_one_le_left hfee hone
      have hfits : (baseFee.sub (((⟨|(gas : ℤ) - target| * baseFee.raw⟩ : Dec).quoInt target).quoInt
          denom)).Fits := by
        unfold Dec.Fits at hnum ⊢
        rw [Dec.sub, raw_quoInt_quoInt hfee]
        simp only at hnum ⊢
        omega
      rw [if_neg hlt, Result.exists_bind_eq_ok_iff]
      exact ⟨_, Dec.checked_of_fits hfits, _, rfl⟩

end Calc

structure Params.Valid (p : Params) : Prop where
  denominator : 0 < p.baseFeeChangeDenominator.toNat
  elasticity : 0 < p.elasticityMultiplier.toNat
  baseFee : ∃ baseFee, p.baseFee = some baseFee ∧ 0 ≤ baseFee.raw
  minGasPrice : 0 ≤ p.minGasPrice.raw
  minGasMultiplier : 0 ≤ p.minGasMultiplier.raw ∧ p.minGasMultiplier.raw ≤ Dec.precision

theorem Params.Valid.baseFee_nonneg {p : Params} (hvalid : p.Valid) {baseFee : Dec}
    (hbaseFee : p.baseFee = some baseFee) : 0 ≤ baseFee.raw := by
  obtain ⟨stored, hstored, hnonneg⟩ := hvalid.baseFee
  cases hstored.symm.trans hbaseFee
  exact hnonneg

theorem toNat_pos_of_ne_zero {n : UInt32} (hne : n ≠ 0) : 0 < n.toNat := by
  apply Nat.pos_of_ne_zero
  intro hzero
  exact hne (UInt32.toNat_inj.1 hzero)

theorem Params.valid_of_validate {p : Params} (hvalid : p.validate = .ok ()) : p.Valid := by
  unfold Params.validate at hvalid
  split at hvalid
  · cases hvalid
  next hdenominator =>
  split at hvalid
  · cases hvalid
  next baseFee hbaseFee =>
  split_ifs at hvalid with hnonneg hheight helasticity
  rw [Result.bind_eq_ok_iff] at hvalid
  obtain ⟨_, hmultiplier, hprice⟩ := hvalid
  unfold validateMinGasMultiplier at hmultiplier
  unfold validateMinGasPrice at hprice
  split_ifs at hmultiplier hprice with hlow hhigh hneg
  refine ⟨toNat_pos_of_ne_zero hdenominator, toNat_pos_of_ne_zero helasticity,
    ⟨baseFee, hbaseFee, not_lt.1 hnonneg⟩, not_lt.1 hneg, not_lt.1 hlow, ?_⟩
  simpa [oneDec, Dec.ofInt] using hhigh

/-- Blocks are unlimited, or their gas is at least the elasticity multiplier. `maxGas` is an `int64`. -/
def AmpleLimit (ctx : BlockContext) (p : Params) : Prop :=
  ∀ maxGas, ctx.maxGas = some maxGas →
    maxGas < 2 ^ 63 ∧ (-1 < maxGas → (p.elasticityMultiplier.toNat : ℤ) ≤ maxGas)

theorem gasLimit_bounds {ctx : BlockContext} {p : Params} (hample : AmpleLimit ctx p) :
    (p.elasticityMultiplier.toNat : ℤ) ≤ gasLimit ctx ∧ gasLimit ctx < 2 ^ 64 := by
  have hsmall : p.elasticityMultiplier.toNat < 2 ^ 32 := p.elasticityMultiplier.toNat_lt
  unfold gasLimit
  cases hmax : ctx.maxGas with
  | none => dsimp only; omega
  | some maxGas =>
    obtain ⟨hwidth, hle⟩ := hample maxGas hmax
    dsimp only
    split_ifs with hlimited
    · exact ⟨hle hlimited, by omega⟩
    · omega

theorem gasTarget_bounds {ctx : BlockContext} {p : Params} (helasticity : 0 < p.elasticityMultiplier.toNat)
    (hample : AmpleLimit ctx p) : 0 < gasTarget ctx p ∧ gasTarget ctx p < 2 ^ 64 := by
  obtain ⟨hle, hlt⟩ := gasLimit_bounds hample
  unfold gasTarget
  rw [Int.tdiv_eq_ediv_of_nonneg (by omega)]
  constructor
  · have hone : 1 ≤ gasLimit ctx / p.elasticityMultiplier.toNat :=
      (Int.le_ediv_iff_mul_le (by omega)).2 (by omega)
    omega
  · exact (Int.ediv_le_self _ (by omega)).trans_lt hlt

theorem minUnitGas_nonneg (decimals : Decimals) : 0 ≤ (minUnitGas decimals).raw := by
  unfold minUnitGas oneDec Dec.quoInt Dec.ofInt
  rw [one_mul]
  exact Int.tdiv_nonneg Dec.precision_pos.le decimals.conversionFactor_pos.le

section CalculateBaseFee

variable {decimals : Decimals} {ctx : BlockContext} {st : State} {baseFee : Dec}

section

variable {result : Dec} (hvalid : st.params.Valid) (hample : AmpleLimit ctx st.params)
  (hbaseFee : st.params.baseFee = some baseFee)

include hvalid hample hbaseFee

theorem calculateBaseFee_eq (henabled : st.params.isBaseFeeEnabled ctx.height = true) :
    calculateBaseFee decimals ctx st =
      if ctx.height = st.params.enableHeight then .ok (some baseFee)
      else (do
        let result ← calcGasBaseFee st.blockGasWanted.toNat (gasTarget ctx st.params).toNat
          st.params.baseFeeChangeDenominator.toNat baseFee (minUnitGas decimals) st.params.minGasPrice
        .ok (some result)) := by
  obtain ⟨hpos, hlt⟩ := gasTarget_bounds hvalid.elasticity hample
  have hrange : ¬ (gasTarget ctx st.params < 0 ∨ 2 ^ 64 ≤ gasTarget ctx st.params) := by omega
  unfold calculateBaseFee
  simp only [henabled, hbaseFee, hrange, if_false, Bool.not_true, Bool.false_eq_true]

theorem calculateBaseFee_cases (hcalc : calculateBaseFee decimals ctx st = .ok (some result)) :
    (ctx.height = st.params.enableHeight ∧ result = baseFee) ∨
    (ctx.height ≠ st.params.enableHeight ∧ result.raw = nextBaseFee st.blockGasWanted.toNat
      (gasTarget ctx st.params).toNat st.params.baseFeeChangeDenominator.toNat baseFee.raw
      (minUnitGas decimals).raw st.params.minGasPrice.raw) := by
  have henabled : st.params.isBaseFeeEnabled ctx.height = true := by
    by_contra hdisabled
    simp [calculateBaseFee, Bool.eq_false_iff.2 hdisabled] at hcalc
  have hnonneg := hvalid.baseFee_nonneg hbaseFee
  obtain ⟨hpos, -⟩ := gasTarget_bounds hvalid.elasticity hample
  rw [calculateBaseFee_eq hvalid hample hbaseFee henabled] at hcalc
  split_ifs at hcalc with hheight
  · exact .inl ⟨hheight, (Option.some.inj (Except.ok.inj hcalc)).symm⟩
  · obtain ⟨calculated, hcalculated, hsome⟩ := Result.bind_eq_ok_iff.1 hcalc
    obtain rfl : calculated = result := Option.some.inj (Except.ok.inj hsome)
    exact .inr ⟨hheight, raw_of_calcGasBaseFee hnonneg (by omega) hcalculated⟩

theorem minGasPrice_le_of_calculateBaseFee (hmin : st.params.minGasPrice.raw ≤ baseFee.raw)
    (hcalc : calculateBaseFee decimals ctx st = .ok (some result)) :
    st.params.minGasPrice.raw ≤ result.raw := by
  obtain ⟨-, rfl⟩ | ⟨-, hraw⟩ := calculateBaseFee_cases hvalid hample hbaseFee hcalc
  · exact hmin
  · rw [hraw]
    exact minPrice_le_nextBaseFee (minUnitGas_nonneg decimals) hmin

end

theorem abs_value_sub_le {gas target denom : ℕ} {result minUnit : Dec} {minPrice : ℤ}
    (hfee : 0 ≤ baseFee.raw) (hmin : minPrice ≤ baseFee.raw) (htarget : 0 < target) (hdenom : 0 < denom)
    (hraw : result.raw = nextBaseFee gas target denom baseFee.raw minUnit.raw minPrice) :
    |result.value - baseFee.value| ≤
      max (baseFee.value * |(gas : ℚ) - target| / (target * denom)) minUnit.value := by
  have hprecision : (0 : ℚ) < Dec.precision := by exact_mod_cast Dec.precision_pos
  have hstep : |(result.raw : ℚ) - baseFee.raw| ≤ max (move gas target denom baseFee.raw : ℚ) minUnit.raw := by
    rw [hraw]
    exact_mod_cast abs_nextBaseFee_sub_le hfee hmin
  calc |result.value - baseFee.value|
      = |(result.raw : ℚ) - baseFee.raw| / Dec.precision := by
        rw [Dec.value, Dec.value, ← sub_div, abs_div, abs_of_pos hprecision]
    _ ≤ max (move gas target denom baseFee.raw : ℚ) minUnit.raw / Dec.precision := by gcongr
    _ ≤ max (baseFee.raw * |(gas : ℚ) - target| / (target * denom)) minUnit.raw / Dec.precision := by
        gcongr
        exact move_le_div htarget hdenom
    _ = max (baseFee.value * |(gas : ℚ) - target| / (target * denom)) minUnit.value := by
        rw [← max_div_div_right hprecision.le, Dec.value, Dec.value]
        congr 1
        ring

theorem calculateBaseFee_mono {gas gas' transient transient' : UInt64} {p : Params} {result result' : Dec}
    (hvalid : p.Valid) (hample : AmpleLimit ctx p) (hbaseFee : p.baseFee = some baseFee)
    (hmin : p.minGasPrice.raw ≤ baseFee.raw) (hle : gas ≤ gas')
    (hcalc : calculateBaseFee decimals ctx ⟨p, gas, transient⟩ = .ok (some result))
    (hcalc' : calculateBaseFee decimals ctx ⟨p, gas', transient'⟩ = .ok (some result')) :
    result.raw ≤ result'.raw := by
  have hnonneg := hvalid.baseFee_nonneg hbaseFee
  obtain ⟨hpos, -⟩ := gasTarget_bounds hvalid.elasticity hample
  obtain ⟨hheight, rfl⟩ | ⟨hheight, hraw⟩ := calculateBaseFee_cases hvalid hample hbaseFee hcalc
  · obtain ⟨-, rfl⟩ | ⟨hheight', -⟩ := calculateBaseFee_cases hvalid hample hbaseFee hcalc'
    · exact le_rfl
    · exact absurd hheight hheight'
  · obtain ⟨hheight', -⟩ | ⟨-, hraw'⟩ := calculateBaseFee_cases hvalid hample hbaseFee hcalc'
    · exact absurd hheight' hheight
    · have htarget : 0 < (gasTarget ctx p).toNat := by omega
      rw [hraw, hraw']
      exact nextBaseFee_mono hnonneg (minUnitGas_nonneg decimals) hmin htarget hvalid.denominator hle

end CalculateBaseFee

structure Floored (p : Params) (st : State) : Prop where
  params_eq : st.params = { p with baseFee := st.params.baseFee }
  floored : ∃ baseFee, st.params.baseFee = some baseFee ∧ 0 ≤ baseFee.raw ∧ p.minGasPrice.raw ≤ baseFee.raw

section Floored

variable {decimals : Decimals} {ctx : BlockContext} {p : Params} {st st' : State}

theorem Floored.valid (hvalid : p.Valid) (hfloored : Floored p st) : st.params.Valid := by
  obtain ⟨baseFee, hbaseFee, hnonneg, -⟩ := hfloored.floored
  refine ⟨?_, ?_, ⟨baseFee, hbaseFee, hnonneg⟩, ?_, ?_⟩ <;> rw [hfloored.params_eq]
  · exact hvalid.denominator
  · exact hvalid.elasticity
  · exact hvalid.minGasPrice
  · exact hvalid.minGasMultiplier

theorem Floored.beginBlock (hvalid : p.Valid) (hample : AmpleLimit ctx p) (hfloored : Floored p st)
    (hbegin : beginBlock decimals ctx st = .ok st') : Floored p st' := by
  obtain ⟨baseFee, hbaseFee, -, hmin⟩ := hfloored.floored
  have hprice : st.params.minGasPrice = p.minGasPrice := by rw [hfloored.params_eq]
  have hample' : AmpleLimit ctx st.params := by rw [hfloored.params_eq]; exact hample
  obtain ⟨result, hcalc, hset⟩ := Result.bind_eq_ok_iff.1 hbegin
  cases result with
  | none => rwa [← Except.ok.inj hset]
  | some result =>
    have hfloor : p.minGasPrice.raw ≤ result.raw := by
      rw [← hprice] at hmin ⊢
      exact minGasPrice_le_of_calculateBaseFee (hfloored.valid hvalid) hample' hbaseFee hmin hcalc
    rw [← Except.ok.inj hset]
    refine ⟨?_, result, rfl, hvalid.minGasPrice.trans hfloor, hfloor⟩
    dsimp only
    rw [hfloored.params_eq]

theorem params_deliverTx (tx : Tx) : (deliverTx ctx st tx).params = st.params := by
  unfold deliverTx checkGasWanted State.addTransientGasWanted
  grind

theorem params_foldl_deliverTx (txs : List Tx) : (txs.foldl (deliverTx ctx) st).params = st.params := by
  induction txs generalizing st with
  | nil => rfl
  | cons tx txs ih => rw [List.foldl_cons, ih, params_deliverTx]

theorem params_of_endBlock (hend : endBlock ctx st = .ok st') : st'.params = st.params := by
  unfold endBlock at hend
  split at hend
  · cases hend
  dsimp only at hend
  split_ifs at hend
  obtain ⟨limited, -, hset⟩ := Result.bind_eq_ok_iff.1 hend
  split_ifs at hset
  rw [← Except.ok.inj hset]

theorem Floored.of_params_eq (hfloored : Floored p st) (hparams : st'.params = st.params) : Floored p st' := by
  obtain ⟨hparams_eq, hfloor⟩ := hfloored
  constructor
  · rw [hparams]
    exact hparams_eq
  · rw [hparams]
    exact hfloor

theorem Floored.runBlock {block : Block} (hvalid : p.Valid) (hample : AmpleLimit block.ctx p)
    (hfloored : Floored p st) (hrun : runBlock decimals st block = .ok st') : Floored p st' := by
  obtain ⟨st₁, hbegin, hrest⟩ := Result.bind_eq_ok_iff.1 hrun
  obtain ⟨st₂, hend, hcommit⟩ := Result.bind_eq_ok_iff.1 hrest
  have hbegun := hfloored.beginBlock hvalid hample hbegin
  apply hbegun.of_params_eq
  rw [← Except.ok.inj hcommit]
  exact (params_of_endBlock hend).trans (params_foldl_deliverTx block.txs)

end Floored

/-- The base fee law. -/
theorem baseFee_law (decimals : Decimals) (p : Params) (baseFee : Dec) (hvalid : p.validate = .ok ())
    (hbaseFee : p.baseFee = some baseFee) (hmin : p.minGasPrice.raw ≤ baseFee.raw) :
    (∀ ctx, AmpleLimit ctx p → p.isBaseFeeEnabled ctx.height = true →
      (∀ gas transient : UInt64,
        (ctx.height ≠ p.enableHeight → Representable gas.toNat (gasTarget ctx p).toNat
          p.baseFeeChangeDenominator.toNat baseFee (minUnitGas decimals)) →
        ∃ result, calculateBaseFee decimals ctx ⟨p, gas, transient⟩ = .ok (some result) ∧
          p.minGasPrice.value ≤ result.value ∧ 0 ≤ result.value ∧
          (gas.toNat = gasTarget ctx p → result = baseFee) ∧
          |result.value - baseFee.value| ≤
            max (baseFee.value * |(gas.toNat : ℚ) - gasTarget ctx p| /
              (gasTarget ctx p * p.baseFeeChangeDenominator.toNat)) (minUnitGas decimals).value) ∧
      (∀ (gas gas' transient transient' : UInt64) (result result' : Dec), gas ≤ gas' →
        calculateBaseFee decimals ctx ⟨p, gas, transient⟩ = .ok (some result) →
        calculateBaseFee decimals ctx ⟨p, gas', transient'⟩ = .ok (some result') →
        result.value ≤ result'.value)) ∧
    (∀ (gas : UInt64) (blocks : List Block) (st : State), (∀ block ∈ blocks, AmpleLimit block.ctx p) →
      runBlocks decimals ⟨p, gas, 0⟩ blocks = .ok st →
      ∃ result, st.params.baseFee = some result ∧ p.minGasPrice.value ≤ result.value) := by
  have hvalid := Params.valid_of_validate hvalid
  have hnonneg := hvalid.baseFee_nonneg hbaseFee
  refine ⟨?_, ?_⟩
  · intro ctx hample henabled
    obtain ⟨hpos, -⟩ := gasTarget_bounds hvalid.elasticity hample
    have hcast : ((gasTarget ctx p).toNat : ℤ) = gasTarget ctx p := Int.toNat_of_nonneg hpos.le
    have htarget : 0 < (gasTarget ctx p).toNat := by omega
    refine ⟨?_, ?_⟩
    · intro gas transient hrep
      obtain ⟨result, hcalc⟩ : ∃ result,
          calculateBaseFee decimals ctx ⟨p, gas, transient⟩ = .ok (some result) := by
        rw [calculateBaseFee_eq hvalid hample hbaseFee henabled]
        by_cases hheight : ctx.height = p.enableHeight
        · exact ⟨baseFee, if_pos hheight⟩
        · obtain ⟨result, hresult⟩ : ∃ result, calcGasBaseFee gas.toNat (gasTarget ctx p).toNat
              p.baseFeeChangeDenominator.toNat baseFee (minUnitGas decimals) p.minGasPrice = .ok result :=
            exists_calcGasBaseFee hnonneg htarget (hrep hheight)
          refine ⟨result, ?_⟩
          rw [if_neg hheight, hresult]
          rfl
      have hfloor := minGasPrice_le_of_calculateBaseFee hvalid hample hbaseFee hmin hcalc
      refine ⟨result, hcalc, Dec.value_le_value.2 hfloor, ?_, ?_, ?_⟩
      · exact Dec.value_nonneg.2 (hvalid.minGasPrice.trans hfloor)
      · intro hgas
        obtain ⟨-, rfl⟩ | ⟨-, hraw⟩ := calculateBaseFee_cases hvalid hample hbaseFee hcalc
        · rfl
        · apply Dec.ext
          rw [hraw, nextBaseFee, if_pos (by dsimp only; omega)]
      · rw [← hcast, Int.cast_natCast]
        obtain ⟨-, rfl⟩ | ⟨-, hraw⟩ := calculateBaseFee_cases hvalid hample hbaseFee hcalc
        · rw [sub_self, abs_zero]
          exact le_max_of_le_right (Dec.value_nonneg.2 (minUnitGas_nonneg decimals))
        · exact abs_value_sub_le hnonneg hmin htarget hvalid.denominator hraw
    · intro gas gas' transient transient' result result' hle hcalc hcalc'
      exact Dec.value_le_value.2 (calculateBaseFee_mono hvalid hample hbaseFee hmin hle hcalc hcalc')
  · intro gas blocks st hample hrun
    have hstart : Floored p ⟨p, gas, 0⟩ := ⟨rfl, baseFee, hbaseFee, hnonneg, hmin⟩
    have hend : Floored p st := Result.run_invariant
      (fun hblock hfloored hrun => hfloored.runBlock hvalid hblock hrun) hample hstart hrun
    obtain ⟨result, hresult, -, hfloor⟩ := hend.floored
    exact ⟨result, hresult, Dec.value_le_value.2 hfloor⟩

def defaultParams : Params :=
  { noBaseFee := false
    baseFeeChangeDenominator := 8
    elasticityMultiplier := 2
    baseFee := some (Dec.ofInt 1000000000)
    enableHeight := 0
    minGasPrice := ⟨0⟩
    minGasMultiplier := ⟨5 * 10 ^ 17⟩ }

theorem ampleLimit_of_maxGas_eq_none {ctx : BlockContext} (hmaxGas : ctx.maxGas = none) (p : Params) :
    AmpleLimit ctx p := by
  intro maxGas hsome
  rw [hmaxGas] at hsome
  cases hsome

theorem baseFee_law_default :
    ∃ result, calculateBaseFee ⟨18, by decide, by decide⟩ ⟨1, none, true, none⟩ ⟨defaultParams, 5, 0⟩ =
        .ok (some result) ∧
      (0 : ℚ) ≤ result.value ∧ result.value ≤ (Dec.ofInt 1000000000).value := by
  have hlaw := (baseFee_law ⟨18, by decide, by decide⟩ defaultParams (Dec.ofInt 1000000000) rfl rfl
    (by decide)).1 ⟨1, none, true, none⟩ (ampleLimit_of_maxGas_eq_none rfl _) rfl
  obtain ⟨result, hcalc, -, hnonneg, -⟩ := hlaw.1 5 0 fun _ => by decide +kernel
  obtain ⟨atTarget, hcalc', -, -, heq, -⟩ := hlaw.1 (2 ^ 63 - 1) 0 fun _ => by decide +kernel
  refine ⟨result, hcalc, hnonneg, ?_⟩
  rw [← heq (by decide +kernel)]
  exact hlaw.2 5 (2 ^ 63 - 1) 0 0 result atTarget (by decide +kernel) hcalc hcalc'

end CosmosEvm.FeeMarket
