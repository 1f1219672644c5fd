import CosmosEvm.FeeMarket.BaseFee
import Mathlib.Data.UInt

namespace CosmosEvm.FeeMarket

def gasLimits (txs : List Tx) : ℕ := (txs.map fun tx => (tx.map UInt64.toNat).getD 0).sum

def Counts (ctx : BlockContext) (p : Params) : Bool := ctx.isLondon && p.isBaseFeeEnabled ctx.height

/-- The block begins, and once all its transactions are accepted the counter stands at `counted` and the block
ends. -/
def Passes (decimals : Decimals) (ctx : BlockContext) (st : State) (txs : List Tx) (counted : ℕ) : Prop :=
  ∃ begun, beginBlock decimals ctx st = .ok begun ∧
    ∀ delivered, Result.run (checkGasWanted ctx) begun txs = .ok delivered →
      delivered.transientGasWanted.toNat = counted ∧ ∃ ended, endBlock ctx delivered = .ok ended

/-- A block can be run to see whether it passes. -/
instance (decimals : Decimals) (ctx : BlockContext) (st : State) (txs : List Tx) (counted : ℕ) :
    Decidable (Passes decimals ctx st txs counted) :=
  match hbegin : beginBlock decimals ctx st with
  | .error _ => .isFalse (by simp [Passes, hbegin])
  | .ok begun =>
    match hrun : Result.run (checkGasWanted ctx) begun txs with
    | .error _ => .isTrue ⟨begun, hbegin, by simp [hrun]⟩
    | .ok delivered =>
      match hend : endBlock ctx delivered with
      | .error _ => .isFalse (by simp [Passes, hbegin, hrun, hend])
      | .ok _ => decidable_of_iff (delivered.transientGasWanted.toNat = counted)
          (by simp [Passes, hbegin, hrun, hend])

section Block

variable {decimals : Decimals} {ctx : BlockContext} {st st' : State}

theorem exists_calculateBaseFee {baseFee : Dec} (hvalid : st.params.Valid)
    (hbaseFee : st.params.baseFee = some baseFee)
    (hrep : 0 < gasTarget ctx st.params → Representable st.blockGasWanted.toNat
      (gasTarget ctx st.params).toNat st.params.baseFeeChangeDenominator.toNat baseFee (minUnitGas decimals)) :
    ∃ result, calculateBaseFee decimals ctx st = .ok result := by
  have hnonneg := hvalid.baseFee_nonneg hbaseFee
  unfold calculateBaseFee
  rw [hbaseFee]
  dsimp only
  split_ifs with hdisabled hheight hrange
  · exact ⟨_, rfl⟩
  · exact ⟨_, rfl⟩
  · exact ⟨_, rfl⟩
  · rw [Result.exists_bind_eq_ok_iff]
    by_cases hpos : 0 < gasTarget ctx st.params
    · obtain ⟨result, hresult⟩ : ∃ result, calcGasBaseFee st.blockGasWanted.toNat
          (gasTarget ctx st.params).toNat st.params.baseFeeChangeDenominator.toNat baseFee
          (minUnitGas decimals) st.params.minGasPrice = .ok result :=
        exists_calcGasBaseFee hnonneg (by omega) (hrep hpos)
      exact ⟨result, hresult, _, rfl⟩
    · -- a target of zero gives a base fee of zero
      have hzero : (gasTarget ctx st.params).toNat = 0 := by omega
      rw [hzero]
      by_cases hgas : st.blockGasWanted.toNat = 0
      · exact ⟨_, if_pos hgas, _, rfl⟩
      · exact ⟨_, (if_neg hgas).trans (if_pos rfl), _, rfl⟩

theorem beginBlock_eq_ok (hbegin : beginBlock decimals ctx st = .ok st') :
    st'.transientGasWanted = st.transientGasWanted ∧
      st'.params = { st.params with baseFee := st'.params.baseFee } := by
  obtain ⟨result, -, hset⟩ := Result.bind_eq_ok_iff.1 hbegin
  cases result with
  | none =>
    rw [← Except.ok.inj hset]
    exact ⟨rfl, rfl⟩
  | some result =>
    rw [← Except.ok.inj hset]
    exact ⟨rfl, rfl⟩

theorem checkGasWanted_eq_ok {tx : Tx} (hcheck : checkGasWanted ctx st tx = .ok st') :
    st'.params = st.params ∧ st'.transientGasWanted =
      if Counts ctx st.params then st.transientGasWanted + tx.getD 0 else st.transientGasWanted := by
  unfold checkGasWanted State.addTransientGasWanted at hcheck
  unfold Counts
  grind

theorem gasLimits_cons (tx : Tx) (txs : List Tx) :
    gasLimits (tx :: txs) = (tx.getD 0).toNat + gasLimits txs := by
  cases tx <;> simp [gasLimits]

theorem transientGasWanted_of_run {txs : List Tx} (hrun : Result.run (checkGasWanted ctx) st txs = .ok st')
    (hsum : Counts ctx st.params = true → st.transientGasWanted.toNat + gasLimits txs < 2 ^ 64) :
    st'.params = st.params ∧ st'.transientGasWanted.toNat =
      st.transientGasWanted.toNat + if Counts ctx st.params then gasLimits txs else 0 := by
  induction txs generalizing st with
  | nil =>
    rw [← Except.ok.inj hrun]
    simp [gasLimits]
  | cons tx txs ih =>
    obtain ⟨st₁, hcheck, hrest⟩ := Result.bind_eq_ok_iff.1 hrun
    obtain ⟨hparams, hcounter⟩ := checkGasWanted_eq_ok hcheck
    cases hcounts : Counts ctx st.params with
    | false =>
      simp only [hcounts, Bool.false_eq_true, if_false] at hcounter
      obtain ⟨hparams', hrest'⟩ := ih hrest (by simp [hparams, hcounts])
      rw [hparams', hrest', hparams, hcounter, hcounts]
      exact ⟨rfl, by simp⟩
    | true =>
      have hsum := hsum hcounts
      rw [gasLimits_cons] at hsum ⊢
      have hadd : (st.transientGasWanted + tx.getD 0).toNat =
          st.transientGasWanted.toNat + (tx.getD 0).toNat := by
        rw [UInt64.toNat_add, Nat.mod_eq_of_lt (by omega)]
      simp only [hcounts, if_true] at hcounter
      obtain ⟨hparams', hrest'⟩ := ih hrest (fun _ => by rw [hcounter, hadd]; omega)
      rw [hparams', hrest', hparams, hcounter, hcounts, hadd]
      refine ⟨rfl, ?_⟩
      simp only [if_true]
      omega

theorem exists_endBlock {meter : BlockGasMeter}
    (hmultiplier : 0 ≤ st.params.minGasMultiplier.raw ∧ st.params.minGasMultiplier.raw ≤ Dec.precision)
    (hmeter : ctx.blockGasMeter = some meter) (hwanted : st.transientGasWanted.toNat < 2 ^ 63)
    (hused : meter.consumedToLimit.toNat < 2 ^ 63) : ∃ ended, endBlock ctx st = .ok ended := by
  obtain ⟨hlow, hhigh⟩ := hmultiplier
  set gas : ℤ := ((st.transientGasWanted.toNat : ℕ) : ℤ) with hgas
  have hproduct : 0 ≤ gas * st.params.minGasMultiplier.raw := mul_nonneg (by omega) hlow
  have hbound : gas * st.params.minGasMultiplier.raw ≤ gas * Dec.precision :=
    mul_le_mul_of_nonneg_left hhigh (by omega)
  have hfits : ((Dec.ofInt gas).mul st.params.minGasMultiplier).Fits := by
    rw [Dec.ofInt_mul]
    unfold Dec.Fits
    unfold Dec.precision at hbound
    dsimp only
    omega
  have htruncate : ((Dec.ofInt gas).mul st.params.minGasMultiplier).truncateInt ≤ gas := by
    calc ((Dec.ofInt gas).mul st.params.minGasMultiplier).truncateInt
        = (⟨gas * st.params.minGasMultiplier.raw⟩ : Dec).truncateInt := by rw [Dec.ofInt_mul]
      _ ≤ (Dec.ofInt gas).truncateInt := Dec.truncateInt_mono hbound
      _ = gas := Dec.truncateInt_ofInt gas
  have hrange : ¬ (((((Dec.ofInt gas).mul st.params.minGasMultiplier).max
      (Dec.ofInt meter.consumedToLimit.toNat)).truncateInt < 0) ∨
      2 ^ 64 ≤ (((Dec.ofInt gas).mul st.params.minGasMultiplier).max
        (Dec.ofInt meter.consumedToLimit.toNat)).truncateInt) := by
    rw [Dec.truncateInt_max, Dec.truncateInt_ofInt]
    omega
  unfold endBlock
  rw [hmeter]
  dsimp only
  rw [if_neg (by omega), if_neg (by omega), Result.exists_bind_eq_ok_iff]
  exact ⟨_, Dec.checked_of_fits hfits, _, if_neg hrange⟩

end Block

/-- A block passes the fee market as long as the gas limits of its transactions, where they are counted, and the
gas that it has used stay below `2 ^ 63` and no step of the base fee is too wide. The gas is counted where London is
active and the base fee is enabled. -/
theorem block_passes (decimals : Decimals) (p : Params) (baseFee : Dec) (gas : UInt64) (ctx : BlockContext)
    (meter : BlockGasMeter) (txs : List Tx) (hvalid : p.validate = .ok ())
    (hbaseFee : p.baseFee = some baseFee) (hmeter : ctx.blockGasMeter = some meter)
    (hconsumed : meter.consumedToLimit.toNat < 2 ^ 63) (hsum : Counts ctx p = true → gasLimits txs < 2 ^ 63)
    (hrep : 0 < gasTarget ctx p → Representable gas.toNat (gasTarget ctx p).toNat
      p.baseFeeChangeDenominator.toNat baseFee (minUnitGas decimals)) :
    Passes decimals ctx ⟨p, gas, 0⟩ txs (if Counts ctx p then gasLimits txs else 0) := by
  have hvalid := Params.valid_of_validate hvalid
  obtain ⟨begun, hbegin⟩ : ∃ begun, beginBlock decimals ctx ⟨p, gas, 0⟩ = .ok begun := by
    obtain ⟨result, hcalc⟩ : ∃ result, calculateBaseFee decimals ctx ⟨p, gas, 0⟩ = .ok result :=
      exists_calculateBaseFee hvalid hbaseFee hrep
    unfold beginBlock
    rw [hcalc]
    cases result with
    | none => exact ⟨_, rfl⟩
    | some result => exact ⟨_, rfl⟩
  refine ⟨begun, hbegin, ?_⟩
  intro delivered hrun
  obtain ⟨hzero, hparams⟩ := beginBlock_eq_ok hbegin
  have hcounter : begun.transientGasWanted.toNat = 0 := by rw [hzero]; rfl
  have hcounts : Counts ctx begun.params = Counts ctx p := by rw [hparams]; rfl
  obtain ⟨hparams', hcount⟩ := transientGasWanted_of_run hrun fun hcounted => by
    have hlimits := hsum (hcounts ▸ hcounted)
    omega
  rw [hcounter, hcounts, Nat.zero_add] at hcount
  refine ⟨hcount, exists_endBlock ?_ hmeter ?_ hconsumed⟩
  · rw [hparams', hparams]
    exact hvalid.minGasMultiplier
  · rw [hcount]
    split
    · next hcounted => exact hsum hcounted
    · exact Nat.two_pow_pos 63

def unlimitedBlock : BlockContext := ⟨1, some (-1), true, some ⟨2 ^ 64 - 1, 21000⟩⟩

theorem block_passes_unlimited :
    Passes ⟨18, by decide, by decide⟩ unlimitedBlock ⟨defaultParams, 0, 0⟩ [some 21000, some 50000] 71000 :=
  block_passes ⟨18, by decide, by decide⟩ defaultParams (Dec.ofInt 1000000000) 0 unlimitedBlock
    ⟨2 ^ 64 - 1, 21000⟩ [some 21000, some 50000] rfl rfl rfl (by decide +kernel) (fun _ => by decide +kernel)
    fun _ => by decide +kernel

/-- What fails: two accepted transactions of `2 ^ 62` gas make `EndBlock` fail, four of them bring the counter
back to zero, a base fee of `2 ^ 280` makes `BeginBlock` panic, and nothing is counted without a base fee. -/
theorem block_fails :
    (¬ Passes ⟨18, by decide, by decide⟩ unlimitedBlock ⟨defaultParams, 0, 0⟩
      [some (2 ^ 62), some (2 ^ 62)] (2 ^ 63)) ∧
    (¬ Passes ⟨18, by decide, by decide⟩ unlimitedBlock ⟨defaultParams, 0, 0⟩
      [some (2 ^ 62), some (2 ^ 62), some (2 ^ 62), some (2 ^ 62)] (2 ^ 64)) ∧
    (¬ Passes ⟨18, by decide, by decide⟩ unlimitedBlock
      ⟨{ defaultParams with baseFee := some ⟨2 ^ 280⟩ }, 0, 0⟩ [] 0) ∧
    (¬ Passes ⟨18, by decide, by decide⟩ unlimitedBlock
      ⟨{ defaultParams with noBaseFee := true }, 0, 0⟩ [some 21000] 21000) := by
  decide +kernel

end CosmosEvm.FeeMarket
