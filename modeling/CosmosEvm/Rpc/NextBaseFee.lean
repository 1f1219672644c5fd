import CosmosEvm.FeeMarket.Scaling
import Mathlib.Data.UInt

namespace CosmosEvm.Rpc

open FeeMarket (Params State BlockContext BlockGasMeter calcGasBaseFee oneDec minUnitGas gasTarget lawBaseFee
  AtTargets SameRounding)

/-- `IsLondon` of the chain configuration, with `none` for a fork that never comes. -/
def isLondon (londonBlock : Option ℤ) (height : ℤ) : Bool :=
  match londonBlock with
  | none => false
  | some forkBlock => forkBlock ≤ height

variable (decimals : Decimals)

def convertAmountTo18DecimalsLegacy (amt : Dec) : Except Err Dec :=
  (⟨amt.raw * decimals.conversionFactor⟩ : Dec).checked

def feeMarketBaseFee (st : State) : Option Dec := if st.params.noBaseFee then none else st.params.baseFee

/-- The conversion at the end of `FeeMarketWrapper.GetBaseFee` and `FeeMarketWrapper.CalculateBaseFee`. -/
def wrapBaseFee : Option Dec → Except Err (Option ℤ)
  | none => .ok none
  | some baseFee => do
    let converted ← convertAmountTo18DecimalsLegacy decimals baseFee
    .ok (some converted.truncateInt)

def wrapperGetBaseFee (st : State) : Except Err (Option ℤ) :=
  wrapBaseFee decimals (feeMarketBaseFee st)

def wrapperCalculateBaseFee (ctx : BlockContext) (st : State) : Except Err (Option ℤ) := do
  let baseFee ← FeeMarket.calculateBaseFee decimals ctx st
  wrapBaseFee decimals baseFee

/-- `GetBaseFee` of `x/vm`, which its `BaseFee` query answers with. -/
def getBaseFee (londonBlock : Option ℤ) (height : ℤ) (st : State) : Except Err (Option ℤ) :=
  if !isLondon londonBlock height then .ok none
  else do
    let baseFee ← wrapperGetBaseFee decimals st
    .ok (some (baseFee.getD 0))

structure ExecTxResult where
  code : UInt32
  log : String
  gasUsed : Int64

/-- The latest block: its height, the block gas of CometBFT's consensus parameters (`none` where their query
fails), the base fee of its `evm_fee_market` event, and its results. -/
structure LatestBlock where
  height : ℤ
  consensusMaxGas : Option Int64
  eventBaseFee : Option ℤ
  results : List ExecTxResult

def shouldIgnoreGasUsed (res : ExecTxResult) : Bool :=
  res.code == 11 && decide ("no block gas left to run tx: out of gas".toList <:+: res.log.toList)

/-- The loop of `RPCBlockFromCometBlock` over the results, which adds in `uint64`. -/
def sumGasUsed (gasUsed : UInt64) : List ExecTxResult → UInt64
  | [] => gasUsed
  | res :: rest => if shouldIgnoreGasUsed res then gasUsed else sumGasUsed (gasUsed + res.gasUsed.toUInt64) rest

/-- `BlockMaxGasFromConsensusParams`, whose error is only logged. -/
def blockMaxGasFromConsensusParams : Option Int64 → Int64
  | none => 2 ^ 32 - 1
  | some maxGas => if maxGas = -1 then 2 ^ 32 - 1 else maxGas

namespace LatestBlock

variable (block : LatestBlock)

def gasUsed : UInt64 := sumGasUsed 0 block.results

def gasLimit : UInt64 := (blockMaxGasFromConsensusParams block.consensusMaxGas).toUInt64

/-- `Backend.BaseFee`: the query, or the event where the query gives nothing. -/
def baseFee (decimals : Decimals) (londonBlock : Option ℤ) (st : State) : Option ℤ :=
  match getBaseFee decimals londonBlock block.height st with
  | .ok (some baseFee) => some baseFee
  | _ => block.eventBaseFee

end LatestBlock

structure ParentHeader where
  number : ℤ
  gasLimit : UInt64
  gasUsed : UInt64
  baseFee : ℤ

variable (decimals : Decimals) (londonBlock : Option ℤ)

def calcBaseFee (parent : ParentHeader) (p : Params) : Except Err ℤ :=
  if !isLondon londonBlock parent.number then .ok 1000000000
  else if p.elasticityMultiplier = 0 then
    .error (.wrapped .other "ElasticityMultiplier cannot be 0 as it's checked in the params validation")
  else do
    let parentGasTarget := parent.gasLimit / p.elasticityMultiplier.toUInt64
    let minGasPrice ← (p.minGasPrice.mul (Dec.ofInt decimals.conversionFactor)).checked
    let baseFee ← calcGasBaseFee parent.gasUsed.toNat parentGasTarget.toNat p.baseFeeChangeDenominator.toNat
      (Dec.ofInt parent.baseFee) oneDec minGasPrice
    .ok baseFee.truncateInt

structure OneFeeHistory where
  baseFee : ℤ
  nextBaseFee : ℤ
deriving DecidableEq

def processHeader (block : LatestBlock) (st : State) : ParentHeader where
  number := block.height
  gasLimit := block.gasLimit
  gasUsed := block.gasUsed
  baseFee := (block.baseFee decimals londonBlock st).getD 0

def processNextBaseFee (block : LatestBlock) (st : State) : Except Err ℤ :=
  if isLondon londonBlock (block.height + 1) then
    calcBaseFee decimals londonBlock (processHeader decimals londonBlock block st) st.params
  else .ok 0

/-- The base fees of `ProcessBlock`; `st` is the state that the block committed. -/
def processBlock (block : LatestBlock) (st : State) : Except Err OneFeeHistory := do
  let nextBaseFee ← processNextBaseFee decimals londonBlock block st
  if block.gasLimit = 0 then
    .error (.wrapped .other (s!"gasLimit of block height {block.height} should be bigger than 0 , " ++
      s!"current gaslimit {block.gasLimit}"))
  else .ok ⟨(block.baseFee decimals londonBlock st).getD 0, nextBaseFee⟩

section Units

variable (decimals : Decimals)

theorem raw_minUnitGas : (minUnitGas decimals).raw = 10 ^ decimals.value := by
  have hsplit : (1 : ℤ) * Dec.precision = 10 ^ decimals.value * decimals.conversionFactor := by
    unfold Dec.precision Decimals.conversionFactor
    rw [one_mul, ← pow_add, Nat.add_sub_cancel' decimals.le_eighteen]
  unfold minUnitGas oneDec Dec.quoInt Dec.ofInt
  dsimp only
  rw [hsplit, Int.mul_tdiv_cancel _ decimals.conversionFactor_pos.ne']

theorem minUnitGas_mul : (minUnitGas decimals).raw * decimals.conversionFactor = Dec.precision := by
  rw [raw_minUnitGas]
  unfold Decimals.conversionFactor Dec.precision
  rw [← pow_add, Nat.add_sub_cancel' decimals.le_eighteen]

theorem two_le_minUnitGas : 2 ≤ (minUnitGas decimals).raw := by
  rw [raw_minUnitGas]
  calc (2 : ℤ) ≤ 10 ^ 1 := by norm_num
    _ ≤ 10 ^ decimals.value := pow_le_pow_right₀ (by norm_num) decimals.pos

theorem truncateInt_converted {amt : Dec} (hnonneg : 0 ≤ amt.raw) :
    (⟨amt.raw * decimals.conversionFactor⟩ : Dec).truncateInt = amt.raw / (minUnitGas decimals).raw := by
  have hfactor := decimals.conversionFactor_pos
  rw [Dec.truncateInt_of_nonneg (mul_nonneg hnonneg hfactor.le), ← minUnitGas_mul decimals,
    Int.mul_ediv_mul_of_pos_left _ _ hfactor]

variable {decimals}

theorem wrapBaseFee_eq_ok_iff {baseFee : Dec} (hnonneg : 0 ≤ baseFee.raw) {converted : ℤ} :
    wrapBaseFee decimals (some baseFee) = .ok (some converted) ↔
      (⟨baseFee.raw * decimals.conversionFactor⟩ : Dec).Fits ∧
        baseFee.raw / (minUnitGas decimals).raw = converted := by
  unfold wrapBaseFee convertAmountTo18DecimalsLegacy
  dsimp only
  rw [Result.bind_eq_ok_iff]
  constructor
  · rintro ⟨amt, hamt, hconverted⟩
    obtain ⟨hfits, rfl⟩ := Dec.checked_eq_ok_iff.1 hamt
    rw [← truncateInt_converted decimals hnonneg]
    exact ⟨hfits, Option.some.inj (Except.ok.inj hconverted)⟩
  · rintro ⟨hfits, rfl⟩
    exact ⟨_, Dec.checked_of_fits hfits, by rw [truncateInt_converted decimals hnonneg]⟩

end Units

def LatestBlock.gasTarget (block : LatestBlock) (p : Params) : ℕ :=
  (block.gasLimit / p.elasticityMultiplier.toUInt64).toNat

section Predicted

variable {decimals : Decimals} {londonBlock : Option ℤ} {block : LatestBlock} {st : State}

theorem isLondon_succ {height : ℤ} (hlondon : isLondon londonBlock height = true) :
    isLondon londonBlock (height + 1) = true := by
  cases londonBlock with
  | none => cases hlondon
  | some forkBlock =>
    simp only [isLondon, decide_eq_true_eq] at hlondon ⊢
    omega

theorem mul_ofInt (d : Dec) (n : ℤ) : d.mul (Dec.ofInt n) = ⟨d.raw * n⟩ := by
  rw [mul_comm d.raw, ← Dec.ofInt_mul]
  unfold Dec.mul
  rw [mul_comm]

theorem processBlock_eq_ok_iff (hvalid : st.params.Valid) (hlondon : isLondon londonBlock block.height = true)
    {history : OneFeeHistory} :
    processBlock decimals londonBlock block st = .ok history ↔
      block.gasLimit ≠ 0 ∧ (⟨st.params.minGasPrice.raw * decimals.conversionFactor⟩ : Dec).Fits ∧
        history.baseFee = (block.baseFee decimals londonBlock st).getD 0 ∧
        ∃ result, calcGasBaseFee block.gasUsed.toNat (block.gasTarget st.params)
          st.params.baseFeeChangeDenominator.toNat
          (Dec.ofInt ((block.baseFee decimals londonBlock st).getD 0)) oneDec
          ⟨st.params.minGasPrice.raw * decimals.conversionFactor⟩ = .ok result ∧
          result.truncateInt = history.nextBaseFee := by
  have helasticity : st.params.elasticityMultiplier ≠ 0 := by
    intro hzero
    have hpos := hvalid.elasticity
    rw [hzero] at hpos
    exact absurd hpos (by decide)
  unfold processBlock processNextBaseFee calcBaseFee
  rw [if_pos (isLondon_succ hlondon)]
  simp only [processHeader, hlondon, helasticity, Bool.not_true, Bool.false_eq_true, if_false, mul_ofInt]
  rw [Result.bind_eq_ok_iff]
  constructor
  · rintro ⟨next, hnext, hhistory⟩
    obtain ⟨minGasPrice, hprice, hstep⟩ := Result.bind_eq_ok_iff.1 hnext
    obtain ⟨result, hresult, htruncated⟩ := Result.bind_eq_ok_iff.1 hstep
    obtain ⟨hfits, rfl⟩ := Dec.checked_eq_ok_iff.1 hprice
    split_ifs at hhistory with hzero
    cases hhistory
    exact ⟨hzero, hfits, rfl, result, hresult, Except.ok.inj htruncated⟩
  · rintro ⟨hzero, hfits, hbaseFee, result, hresult, hnext⟩
    refine ⟨history.nextBaseFee, ?_, ?_⟩
    · rw [Dec.checked_of_fits hfits]
      change (calcGasBaseFee _ _ _ _ _ _ >>= _) = _
      unfold LatestBlock.gasTarget at hresult
      rw [hresult, ← hnext]
      rfl
    · rw [if_neg hzero, ← hbaseFee]

theorem nextBaseFee_of_processBlock (hvalid : st.params.Valid)
    (hlondon : isLondon londonBlock block.height = true) {baseFee : ℤ}
    (hbaseFee : block.baseFee decimals londonBlock st = some baseFee) (hnonneg : 0 ≤ baseFee)
    {history : OneFeeHistory} (hprocess : processBlock decimals londonBlock block st = .ok history) :
    history.nextBaseFee = lawBaseFee block.gasUsed.toNat (block.gasTarget st.params)
      st.params.baseFeeChangeDenominator.toNat (baseFee * Dec.precision) Dec.precision
      (st.params.minGasPrice.raw * decimals.conversionFactor) / Dec.precision := by
  obtain ⟨-, -, -, result, hresult, hnext⟩ := (processBlock_eq_ok_iff hvalid hlondon).1 hprocess
  rw [hbaseFee, Option.getD_some] at hresult
  have hraw := FeeMarket.raw_calcGasBaseFee (mul_nonneg hnonneg Dec.precision_pos.le) hresult
  have hresultNonneg : 0 ≤ result.raw := by
    rw [hraw]
    exact FeeMarket.law_nonneg (mul_nonneg hnonneg Dec.precision_pos.le) (by decide)
      (mul_nonneg hvalid.minGasPrice decimals.conversionFactor_pos.le)
  rw [← hnext, Dec.truncateInt_of_nonneg hresultNonneg, hraw]
  simp only [Dec.ofInt, oneDec, one_mul]

end Predicted

/-- The gas of the step to the next block. The base fee keeps still at the enable height. -/
def stepGas (next : BlockContext) (st : State) : ℕ :=
  if next.height = st.params.enableHeight then 0 else st.blockGasWanted.toNat

def stepTarget (next : BlockContext) (st : State) : ℕ :=
  if next.height = st.params.enableHeight then 0 else (gasTarget next st.params).toNat

section Computed

variable {decimals : Decimals} {next : BlockContext} {st : State} {baseFee : Dec}

theorem gasTarget_range (st : State) (hwidth : ∀ maxGas, next.maxGas = some maxGas → maxGas < 2 ^ 63) :
    0 ≤ gasTarget next st.params ∧ gasTarget next st.params < 2 ^ 64 := by
  have hlimit : 0 ≤ FeeMarket.gasLimit next ∧ FeeMarket.gasLimit next < 2 ^ 64 := by
    unfold FeeMarket.gasLimit
    cases hmax : next.maxGas with
    | none => decide
    | some maxGas =>
      have hlt := hwidth maxGas hmax
      dsimp only
      split_ifs with hlimited
      · omega
      · decide
  unfold gasTarget
  rw [Int.tdiv_eq_ediv_of_nonneg hlimit.1]
  exact ⟨Int.ediv_nonneg hlimit.1 (Int.natCast_nonneg _), (Int.ediv_le_self _ hlimit.1).trans_lt hlimit.2⟩

theorem calculateBaseFee_eq_step
    (hwidth : ∀ maxGas, next.maxGas = some maxGas → maxGas < 2 ^ 63)
    (hbaseFee : st.params.baseFee = some baseFee)
    (henabled : st.params.isBaseFeeEnabled next.height = true) :
    FeeMarket.calculateBaseFee decimals next st = (do
      let result ← calcGasBaseFee (stepGas next st) (stepTarget next st)
        st.params.baseFeeChangeDenominator.toNat baseFee (minUnitGas decimals) st.params.minGasPrice
      .ok (some result)) := by
  have hrange : ¬ (gasTarget next st.params < 0 ∨ 2 ^ 64 ≤ gasTarget next st.params) := by
    have hbounds := gasTarget_range st hwidth
    omega
  unfold FeeMarket.calculateBaseFee stepGas stepTarget
  by_cases hheight : next.height = st.params.enableHeight
  · simp only [hheight, hbaseFee, calcGasBaseFee, if_true]
    rw [← hheight, henabled]
    rfl
  · simp only [henabled, hheight, hbaseFee, hrange, if_false, Bool.not_true, Bool.false_eq_true]

theorem wrapperCalculateBaseFee_eq_ok_iff (hvalid : st.params.Valid)
    (hwidth : ∀ maxGas, next.maxGas = some maxGas → maxGas < 2 ^ 63)
    (hbaseFee : st.params.baseFee = some baseFee) {actual : ℤ} :
    wrapperCalculateBaseFee decimals next st = .ok (some actual) ↔
      st.params.isBaseFeeEnabled next.height = true ∧
        ∃ result, calcGasBaseFee (stepGas next st) (stepTarget next st)
          st.params.baseFeeChangeDenominator.toNat baseFee (minUnitGas decimals) st.params.minGasPrice =
            .ok result ∧
          (⟨result.raw * decimals.conversionFactor⟩ : Dec).Fits ∧
          result.raw / (minUnitGas decimals).raw = actual := by
  have hnonneg := hvalid.baseFee_nonneg hbaseFee
  unfold wrapperCalculateBaseFee
  by_cases henabled : st.params.isBaseFeeEnabled next.height = true
  · have hresultNonneg : ∀ result, calcGasBaseFee (stepGas next st) (stepTarget next st)
        st.params.baseFeeChangeDenominator.toNat baseFee (minUnitGas decimals) st.params.minGasPrice = .ok result →
        0 ≤ result.raw := by
      intro result hresult
      rw [FeeMarket.raw_calcGasBaseFee hnonneg hresult]
      exact FeeMarket.law_nonneg hnonneg (FeeMarket.minUnitGas_nonneg decimals) hvalid.minGasPrice
    rw [calculateBaseFee_eq_step hwidth hbaseFee henabled, and_iff_right henabled, Result.bind_eq_ok_iff]
    constructor
    · rintro ⟨_, hstep, hwrap⟩
      obtain ⟨result, hresult, hsome⟩ := Result.bind_eq_ok_iff.1 hstep
      cases hsome
      exact ⟨result, hresult, (wrapBaseFee_eq_ok_iff (hresultNonneg result hresult)).1 hwrap⟩
    · rintro ⟨result, hresult, hwrap⟩
      exact ⟨_, Result.bind_eq_ok_iff.2 ⟨result, hresult, rfl⟩,
        (wrapBaseFee_eq_ok_iff (hresultNonneg result hresult)).2 hwrap⟩
  · have hnone : FeeMarket.calculateBaseFee decimals next st = .ok none := by
      unfold FeeMarket.calculateBaseFee
      rw [Bool.eq_false_iff.2 henabled]
      rfl
    rw [hnone]
    exact iff_of_false nofun fun hboth => henabled hboth.1

end Computed

structure Fees where
  baseFee : Dec
  minGasPrice : Dec
  baseFeeChangeDenominator : UInt32

structure Fees.Valid (fees : Fees) : Prop where
  baseFee : 0 ≤ fees.baseFee.raw
  minGasPrice : 0 ≤ fees.minGasPrice.raw
  denominator : 0 < fees.baseFeeChangeDenominator.toNat

def withFees (st : State) (fees : Fees) : State :=
  { st with params := { st.params with
      baseFee := some fees.baseFee
      minGasPrice := fees.minGasPrice
      baseFeeChangeDenominator := fees.baseFeeChangeDenominator } }

theorem valid_withFees {st : State} {fees : Fees} (hvalid : st.params.Valid) (hfees : fees.Valid) :
    (withFees st fees).params.Valid where
  denominator := hfees.denominator
  elasticity := hvalid.elasticity
  baseFee := ⟨fees.baseFee, rfl, hfees.baseFee⟩
  minGasPrice := hfees.minGasPrice
  minGasMultiplier := hvalid.minGasMultiplier

section Small

variable {gas target denom : ℕ} {baseFee minUnit : Dec} (hgas : gas < 2 ^ 64) (htarget : target < 2 ^ 64)
  (hfee : 0 ≤ baseFee.raw) (hsmall : baseFee.raw < 2 ^ 200) (hunit : 0 ≤ minUnit.raw)
  (hunitSmall : minUnit.raw < 2 ^ 200)

include hgas htarget hfee

theorem abs_sub_mul_le : |(gas : ℤ) - target| * baseFee.raw ≤ 2 ^ 64 * baseFee.raw := by
  have habs : |(gas : ℤ) - target| < 2 ^ 64 := by
    rw [abs_lt]
    omega
  exact mul_le_mul_of_nonneg_right habs.le hfee

include hsmall hunit hunitSmall

theorem representable_of_small : FeeMarket.Representable gas target denom baseFee minUnit := by
  intro _
  have hproduct := abs_sub_mul_le hgas htarget hfee
  have hmove' : 0 ≤ FeeMarket.move gas target denom baseFee.raw := FeeMarket.move_nonneg hfee
  have hmove : FeeMarket.move gas target denom baseFee.raw ≤ |(gas : ℤ) - target| * baseFee.raw :=
    FeeMarket.move_le_mul hfee
  have hproduct' : 0 ≤ |(gas : ℤ) - target| * baseFee.raw := mul_nonneg (abs_nonneg _) hfee
  unfold Dec.Fits
  dsimp only
  omega

theorem exists_calcGasBaseFee_of_small :
    ∃ result, calcGasBaseFee gas target denom baseFee minUnit ⟨0⟩ = .ok result ∧
      result.raw ≤ 2 ^ 65 * baseFee.raw + minUnit.raw := by
  have hproduct := abs_sub_mul_le hgas htarget hfee
  obtain ⟨result, hresult⟩ : ∃ result, calcGasBaseFee gas target denom baseFee minUnit ⟨0⟩ = .ok result := by
    rcases Nat.eq_zero_or_pos target with rfl | hpos
    · unfold calcGasBaseFee
      by_cases hzero : gas = 0
      · exact ⟨_, if_pos hzero⟩
      · exact ⟨_, (if_neg hzero).trans (if_pos rfl)⟩
    · exact FeeMarket.exists_calcGasBaseFee hfee hpos
        (representable_of_small hgas htarget hfee hsmall hunit hunitSmall)
  refine ⟨result, hresult, ?_⟩
  rw [FeeMarket.raw_calcGasBaseFee hfee hresult]
  have hle : lawBaseFee gas target denom baseFee.raw minUnit.raw 0 ≤
      baseFee.raw + |(gas : ℤ) - target| * baseFee.raw + minUnit.raw := FeeMarket.law_le hfee hunit
  linarith

end Small

/-- The next base fee that `ProcessBlock` predicts is the one that `CalculateBaseFee` computes, whenever there
are both. -/
def Predicts (decimals : Decimals) (londonBlock : Option ℤ) (block : LatestBlock) (next : BlockContext)
    (st : State) : Prop :=
  ∀ history actual, processBlock decimals londonBlock block st = .ok history →
    wrapperCalculateBaseFee decimals next st = .ok (some actual) → history.nextBaseFee = actual

section Predicts

variable {decimals : Decimals} {londonBlock : Option ℤ} {block : LatestBlock} {next : BlockContext}
  {st : State} {baseFee : Dec}

theorem baseFee_eq_some (hlondon : isLondon londonBlock block.height = true) (hbase : st.params.noBaseFee = false)
    (hbaseFee : st.params.baseFee = some baseFee) (hnonneg : 0 ≤ baseFee.raw)
    (hfits : (⟨baseFee.raw * decimals.conversionFactor⟩ : Dec).Fits) :
    block.baseFee decimals londonBlock st = some (baseFee.raw / (minUnitGas decimals).raw) := by
  have hwrap : wrapperGetBaseFee decimals st = .ok (some (baseFee.raw / (minUnitGas decimals).raw)) := by
    unfold wrapperGetBaseFee feeMarketBaseFee
    rw [hbase, hbaseFee]
    exact (wrapBaseFee_eq_ok_iff hnonneg).2 ⟨hfits, rfl⟩
  unfold LatestBlock.baseFee getBaseFee
  rw [hlondon, hwrap]
  rfl

theorem stepGas_lt (next : BlockContext) (st : State) : stepGas next st < 2 ^ 64 := by
  unfold stepGas
  split_ifs
  · decide
  · exact st.blockGasWanted.toNat_lt

theorem stepTarget_lt (st : State) (hwidth : ∀ maxGas, next.maxGas = some maxGas → maxGas < 2 ^ 63) :
    stepTarget next st < 2 ^ 64 := by
  have hrange := gasTarget_range st hwidth
  unfold stepTarget
  split_ifs
  · decide
  · omega

def cheapState (st : State) (raw : ℤ) (denom : UInt32) : State := withFees st ⟨⟨raw⟩, ⟨0⟩, denom⟩

section Small

variable {denom : UInt32} {raw : ℤ}

theorem minGasPrice_cheapState (decimals : Decimals) (st : State) (raw : ℤ) (denom : UInt32) :
    (cheapState st raw denom).params.minGasPrice.raw * decimals.conversionFactor = 0 :=
  zero_mul _

theorem small_mul_conversionFactor (hsmall : raw ≤ 2 ^ 130 * (minUnitGas decimals).raw) :
    raw * decimals.conversionFactor ≤ 2 ^ 130 * Dec.precision := by
  rw [← minUnitGas_mul decimals, ← mul_assoc]
  exact mul_le_mul_of_nonneg_right hsmall decimals.conversionFactor_pos.le

theorem minUnitGas_le (decimals : Decimals) : (minUnitGas decimals).raw ≤ Dec.precision := by
  rw [← minUnitGas_mul decimals]
  exact le_mul_of_one_le_right (FeeMarket.minUnitGas_nonneg decimals) decimals.conversionFactor_pos

theorem wrapperCalculateBaseFee_of_small (hvalid : (cheapState st raw denom).params.Valid)
    (hwidth : ∀ maxGas, next.maxGas = some maxGas → maxGas < 2 ^ 63)
    (henabled : st.params.isBaseFeeEnabled next.height = true) (hraw : 0 ≤ raw)
    (hsmall : raw ≤ 2 ^ 130 * (minUnitGas decimals).raw) :
    wrapperCalculateBaseFee decimals next (cheapState st raw denom) =
      .ok (some (lawBaseFee (stepGas next st) (stepTarget next st) denom.toNat raw (minUnitGas decimals).raw 0 /
        (minUnitGas decimals).raw)) := by
  have hfactor := decimals.conversionFactor_pos
  have hunit := two_le_minUnitGas decimals
  have hunitLe := minUnitGas_le decimals
  have hprecision : Dec.precision < 2 ^ 60 := by decide
  obtain ⟨result, hresult, hle⟩ : ∃ result, calcGasBaseFee (stepGas next st) (stepTarget next st) denom.toNat
      ⟨raw⟩ (minUnitGas decimals) ⟨0⟩ = .ok result ∧ result.raw ≤ 2 ^ 65 * raw + (minUnitGas decimals).raw :=
    exists_calcGasBaseFee_of_small (stepGas_lt next st) (stepTarget_lt st hwidth) hraw
      (by dsimp only; omega) (by omega) (by omega)
  have hvalue := FeeMarket.raw_calcGasBaseFee hraw hresult
  have hfits : (⟨result.raw * decimals.conversionFactor⟩ : Dec).Fits := by
    have hconverted := small_mul_conversionFactor hsmall
    have hwide : result.raw * decimals.conversionFactor ≤
        2 ^ 65 * (raw * decimals.conversionFactor) + Dec.precision := by
      rw [← minUnitGas_mul decimals, ← mul_assoc, ← add_mul]
      exact mul_le_mul_of_nonneg_right hle hfactor.le
    have hnonneg : 0 ≤ result.raw * decimals.conversionFactor := by
      apply mul_nonneg _ hfactor.le
      rw [hvalue]
      exact FeeMarket.law_nonneg hraw (by omega) le_rfl
    unfold Dec.Fits
    dsimp only
    omega
  apply (wrapperCalculateBaseFee_eq_ok_iff hvalid hwidth rfl).2
  exact ⟨henabled, result, hresult, hfits, by rw [hvalue]⟩

theorem baseFee_of_small (hbase : st.params.noBaseFee = false)
    (hlondon : isLondon londonBlock block.height = true) (hraw : 0 ≤ raw)
    (hsmall : raw ≤ 2 ^ 130 * (minUnitGas decimals).raw) :
    block.baseFee decimals londonBlock (cheapState st raw denom) = some (raw / (minUnitGas decimals).raw) := by
  have hbase' : (cheapState st raw denom).params.noBaseFee = false := hbase
  have hfits : (⟨raw * decimals.conversionFactor⟩ : Dec).Fits := by
    have hconverted := small_mul_conversionFactor hsmall
    have hnonneg : 0 ≤ raw * decimals.conversionFactor := mul_nonneg hraw decimals.conversionFactor_pos.le
    have hprecision : Dec.precision < 2 ^ 60 := by decide
    unfold Dec.Fits
    dsimp only
    omega
  exact baseFee_eq_some hlondon hbase' rfl hraw hfits

theorem exists_processBlock_of_small (hvalid : (cheapState st raw denom).params.Valid)
    (hbase : st.params.noBaseFee = false) (hlondon : isLondon londonBlock block.height = true)
    (hlimit : block.gasLimit ≠ 0) (hraw : 0 ≤ raw) (hsmall : raw ≤ 2 ^ 130 * (minUnitGas decimals).raw) :
    ∃ history, processBlock decimals londonBlock block (cheapState st raw denom) = .ok history := by
  have hunit := two_le_minUnitGas decimals
  have hserved : block.baseFee decimals londonBlock (cheapState st raw denom) =
      some (raw / (minUnitGas decimals).raw) := baseFee_of_small hbase hlondon hraw hsmall
  have hunits : 0 ≤ raw / (minUnitGas decimals).raw ∧ raw / (minUnitGas decimals).raw ≤ 2 ^ 130 := by
    refine ⟨Int.ediv_nonneg hraw (by omega), ?_⟩
    calc raw / (minUnitGas decimals).raw
        ≤ 2 ^ 130 * (minUnitGas decimals).raw / (minUnitGas decimals).raw := Int.ediv_le_ediv (by omega) hsmall
      _ = 2 ^ 130 := Int.mul_ediv_cancel _ (by omega)
  have hwhole : (Dec.ofInt (raw / (minUnitGas decimals).raw)).raw < 2 ^ 200 := by
    unfold Dec.ofInt Dec.precision
    dsimp only
    omega
  obtain ⟨predicted, hpredicted, -⟩ : ∃ predicted, calcGasBaseFee block.gasUsed.toNat
      (block.gasTarget st.params) denom.toNat (Dec.ofInt (raw / (minUnitGas decimals).raw)) oneDec ⟨0⟩ =
        .ok predicted ∧ _ :=
    exists_calcGasBaseFee_of_small (UInt64.toNat_lt _) (UInt64.toNat_lt _)
      (mul_nonneg hunits.1 Dec.precision_pos.le) hwhole (by decide) (by decide)
  refine ⟨⟨raw / (minUnitGas decimals).raw, predicted.truncateInt⟩,
    (processBlock_eq_ok_iff hvalid hlondon).2 ⟨hlimit, ?_, ?_, predicted, ?_, rfl⟩⟩
  · rw [minGasPrice_cheapState]
    unfold Dec.Fits
    rw [Int.natAbs_zero]
    positivity
  · rw [hserved, Option.getD_some]
  · rw [hserved, Option.getD_some, minGasPrice_cheapState]
    exact hpredicted

end Small

theorem denominator_toNat {denom : ℕ} (hdenom : denom ≤ 2) : (UInt32.ofNat denom).toNat = denom := by
  rw [UInt32.toNat_ofNat']
  exact Nat.mod_eq_of_lt (by omega)

section Configured

variable (hvalid : st.params.Valid) (hbase : st.params.noBaseFee = false)
    (hlondon : isLondon londonBlock block.height = true)
    (hwidth : ∀ maxGas, next.maxGas = some maxGas → maxGas < 2 ^ 63)

include hvalid hbase hlondon hwidth

/-- Small fees fit everywhere, so that both computations give their laws. -/
theorem agree_of_predicts (hlimit : block.gasLimit ≠ 0) (henabled : st.params.isBaseFeeEnabled next.height = true) {denom : UInt32}
    (hdenom : 0 < denom.toNat) {raw : ℤ} (hraw : 0 ≤ raw)
    (hrange : raw ≤ 4 * (block.gasTarget st.params + 1) * (stepTarget next st + 1) * (minUnitGas decimals).raw)
    (hpredicts : Predicts decimals londonBlock block next (cheapState st raw denom)) :
    FeeMarket.Agree block.gasUsed.toNat (block.gasTarget st.params) (stepGas next st) (stepTarget next st)
      (minUnitGas decimals).raw decimals.conversionFactor denom.toNat raw := by
  have hvalid' : (cheapState st raw denom).params.Valid := valid_withFees hvalid ⟨hraw, le_rfl, hdenom⟩
  have hunit := two_le_minUnitGas decimals
  have htarget : block.gasTarget st.params < 2 ^ 64 := UInt64.toNat_lt _
  have hstepTarget := stepTarget_lt st hwidth
  have hsmall : raw ≤ 2 ^ 130 * (minUnitGas decimals).raw := by
    apply hrange.trans (mul_le_mul_of_nonneg_right _ (by omega))
    calc 4 * ((block.gasTarget st.params : ℤ) + 1) * (stepTarget next st + 1)
        ≤ 4 * 2 ^ 64 * 2 ^ 64 := by
          apply mul_le_mul (by omega) (by omega) (by omega) (by omega)
      _ = 2 ^ 130 := by norm_num
  obtain ⟨history, hprocess⟩ : ∃ history, processBlock decimals londonBlock block (cheapState st raw denom) =
    .ok history := exists_processBlock_of_small hvalid' hbase hlondon hlimit hraw hsmall
  have heq := hpredicts _ _ hprocess (wrapperCalculateBaseFee_of_small hvalid' hwidth henabled hraw hsmall)
  rw [nextBaseFee_of_processBlock hvalid' hlondon (baseFee_of_small hbase hlondon hraw hsmall)
    (Int.ediv_nonneg hraw (by omega)) hprocess] at heq
  unfold FeeMarket.Agree
  rw [minUnitGas_mul]
  rw [minGasPrice_cheapState] at heq
  exact heq

theorem atTargets_of_predicts (hlimit : block.gasLimit ≠ 0) (henabled : st.params.isBaseFeeEnabled next.height = true)
    (hpredicts : ∀ fees : Fees, fees.Valid → Predicts decimals londonBlock block next (withFees st fees)) :
    AtTargets block.gasUsed.toNat (block.gasTarget st.params) (stepGas next st) (stepTarget next st) := by
  apply FeeMarket.atTargets_of_agree (two_le_minUnitGas decimals) decimals.conversionFactor_pos
  intro denom hdenom htwo raw hraw hrange
  have hpos : 0 < (UInt32.ofNat denom).toNat := by rwa [denominator_toNat htwo]
  rw [← denominator_toNat htwo]
  exact agree_of_predicts hvalid hbase hlondon hwidth hlimit henabled hpos hraw hrange
    (hpredicts ⟨⟨raw⟩, ⟨0⟩, UInt32.ofNat denom⟩ ⟨hraw, le_rfl, hpos⟩)

theorem predicts_of_atTargets (hsteady : AtTargets block.gasUsed.toNat (block.gasTarget st.params) (stepGas next st) (stepTarget next st)) :
    Predicts decimals londonBlock block next st := by
  obtain ⟨baseFee, hbaseFee, hnonneg⟩ := hvalid.baseFee
  intro history actual hprocess hcalculate
  obtain ⟨-, -, -, predicted, hpredicted, hnext⟩ := (processBlock_eq_ok_iff hvalid hlondon).1 hprocess
  obtain ⟨-, computed, hcomputed, hfits, hactual⟩ :=
    (wrapperCalculateBaseFee_eq_ok_iff hvalid hwidth hbaseFee).1 hcalculate
  rw [← hnext, ← hactual]
  unfold calcGasBaseFee at hpredicted hcomputed
  rcases hsteady with ⟨hleft, hright⟩ | ⟨hzero, hne, hzero', hne'⟩
  · rw [if_pos hleft] at hpredicted
    rw [if_pos hright] at hcomputed
    cases hcomputed
    rw [← Except.ok.inj hpredicted, baseFee_eq_some hlondon hbase hbaseFee hnonneg hfits, Option.getD_some,
      Dec.truncateInt_ofInt]
  · rw [if_neg (by omega), if_pos hzero] at hpredicted
    rw [if_neg (by omega), if_pos hzero'] at hcomputed
    rw [← Except.ok.inj hpredicted, ← Except.ok.inj hcomputed]
    simp [Dec.truncateInt]

theorem predicts_of_floor (hfloor : st.params.baseFee = some st.params.minGasPrice)
    (hused : block.gasUsed.toNat ≤ block.gasTarget st.params) (hcounted : stepGas next st ≤ stepTarget next st) :
    Predicts decimals londonBlock block next st := by
  have hunit : 0 < (minUnitGas decimals).raw := zero_lt_two.trans_le (two_le_minUnitGas decimals)
  intro history actual hprocess hcalculate
  obtain ⟨-, computed, hcomputed, hfits, hactual⟩ :=
    (wrapperCalculateBaseFee_eq_ok_iff hvalid hwidth hfloor).1 hcalculate
  have hkept : computed.raw = st.params.minGasPrice.raw := by
    rw [FeeMarket.raw_calcGasBaseFee hvalid.minGasPrice hcomputed]
    exact FeeMarket.law_of_floor hcounted hvalid.minGasPrice _ _
  rw [hkept] at hfits hactual
  have hserved : block.baseFee decimals londonBlock st = _ :=
    baseFee_eq_some hlondon hbase hfloor hvalid.minGasPrice hfits
  rw [nextBaseFee_of_processBlock hvalid hlondon hserved (Int.ediv_nonneg hvalid.minGasPrice hunit.le) hprocess,
    ← hactual, ← minUnitGas_mul decimals]
  exact FeeMarket.law_scale_of_floor hunit decimals.conversionFactor_pos hused hvalid.minGasPrice _

end Configured

theorem nextBaseFee_eq_iff_of_same_gas (hvalid : st.params.Valid)
    (hlondon : isLondon londonBlock block.height = true)
    (hwidth : ∀ maxGas, next.maxGas = some maxGas → maxGas < 2 ^ 63)
    (hgas : stepGas next st = block.gasUsed.toNat) (htarget : stepTarget next st = block.gasTarget st.params)
    {units : ℤ} (hserved : block.baseFee decimals londonBlock st = some units)
    (hwhole : st.params.baseFee = some ⟨units * (minUnitGas decimals).raw⟩) {history : OneFeeHistory} {actual : ℤ}
    (hprocess : processBlock decimals londonBlock block st = .ok history)
    (hcalculate : wrapperCalculateBaseFee decimals next st = .ok (some actual)) :
    history.nextBaseFee = actual ↔
      SameRounding block.gasUsed.toNat (block.gasTarget st.params) st.params.baseFeeChangeDenominator.toNat
          (minUnitGas decimals).raw decimals.conversionFactor units ∨
        units - |(block.gasUsed.toNat : ℤ) - block.gasTarget st.params| * units /
          (block.gasTarget st.params * st.params.baseFeeChangeDenominator.toNat) ≤
          st.params.minGasPrice.raw / (minUnitGas decimals).raw := by
  have hunit : 0 < (minUnitGas decimals).raw := zero_lt_two.trans_le (two_le_minUnitGas decimals)
  obtain ⟨stored, hstored, hnonneg⟩ := hvalid.baseFee
  obtain rfl := Option.some.inj (hwhole.symm.trans hstored)
  have hunits : 0 ≤ units := nonneg_of_mul_nonneg_left hnonneg hunit
  obtain ⟨-, computed, hcomputed, -, hactual⟩ :=
    (wrapperCalculateBaseFee_eq_ok_iff hvalid hwidth hwhole).1 hcalculate
  rw [nextBaseFee_of_processBlock hvalid hlondon hserved hunits hprocess, ← hactual,
    FeeMarket.raw_calcGasBaseFee hnonneg hcomputed, hgas, htarget, ← minUnitGas_mul decimals]
  exact FeeMarket.law_scale_iff hunit decimals.conversionFactor_pos hvalid.denominator

end Predicts

/-- The gas that `EndBlock` keeps: the gas wanted, discounted, or the gas used if that is more. -/
def countedGas (meter : BlockGasMeter) (st : State) : ℕ :=
  (((Dec.ofInt st.transientGasWanted.toNat).mul st.params.minGasMultiplier).max
    (Dec.ofInt meter.consumedToLimit.toNat)).truncateInt.toNat

theorem endBlock_eq_ok {parent : BlockContext} {meter : BlockGasMeter} {st st' : State}
    (hmeter : parent.blockGasMeter = some meter) (hend : FeeMarket.endBlock parent st = .ok st') :
    st'.params = st.params ∧ st'.blockGasWanted.toNat = countedGas meter st := by
  unfold FeeMarket.endBlock at hend
  rw [hmeter] at hend
  dsimp only at hend
  split_ifs at hend
  obtain ⟨limited, hlimited, hend⟩ := Result.bind_eq_ok_iff.1 hend
  obtain ⟨-, rfl⟩ := Dec.checked_eq_ok_iff.1 hlimited
  split_ifs at hend with hrange
  cases hend
  refine ⟨rfl, ?_⟩
  unfold countedGas
  rw [UInt64.toNat_ofNat']
  exact Nat.mod_eq_of_lt (by omega)

/-- Whether a block is predicted whatever the fees are: there is nothing to predict, or both computations keep
still. -/
def Steady (block : LatestBlock) (next : BlockContext) (meter : BlockGasMeter) (st : State) : Prop :=
  block.gasLimit = 0 ∨ st.params.isBaseFeeEnabled next.height = false ∨
    (next.height = st.params.enableHeight ∧ block.gasUsed.toNat = block.gasTarget st.params) ∨
    (next.height ≠ st.params.enableHeight ∧ AtTargets block.gasUsed.toNat (block.gasTarget st.params)
      (countedGas meter st) (gasTarget next st.params).toNat)

theorem atTargets_step_iff {block : LatestBlock} {next : BlockContext} {meter : BlockGasMeter} {st st' : State}
    (hparams : st'.params = st.params) (hgas : st'.blockGasWanted.toNat = countedGas meter st) :
    AtTargets block.gasUsed.toNat (block.gasTarget st'.params) (stepGas next st') (stepTarget next st') ↔
      (next.height = st.params.enableHeight ∧ block.gasUsed.toNat = block.gasTarget st.params) ∨
      (next.height ≠ st.params.enableHeight ∧ AtTargets block.gasUsed.toNat (block.gasTarget st.params)
        (countedGas meter st) (gasTarget next st.params).toNat) := by
  unfold stepGas stepTarget
  rw [hparams, hgas]
  by_cases hheight : next.height = st.params.enableHeight
  · simp [hheight, AtTargets]
  · simp [hheight]

def atto : Decimals := ⟨18, Nat.succ_pos', le_rfl⟩

def millionBlock (used : Int64) : LatestBlock := ⟨10, some 1000000, none, [⟨0, "", used⟩]⟩

def millionContext (height : ℤ) (meter : BlockGasMeter) : BlockContext := ⟨height, some 1000000, true, some meter⟩

def gweiState (counted wanted : UInt64) : State :=
  ⟨⟨false, 8, 2, some (Dec.ofInt 1000000000), 0, ⟨0⟩, ⟨500000000000000000⟩⟩, counted, wanted⟩

/-- `eth_feeHistory` predicts the next base fee for all fees only in a steady block. Where the gas and the
targets are the same on both sides and the base fee is of whole units, the prediction is exact unless the last
rounding shows at one scale alone, above the minimum gas price. It is exact too for a base fee at the minimum gas
price where no block is above its target. -/
theorem prediction_iff (decimals : Decimals) (londonBlock : Option ℤ) (block : LatestBlock)
    (parent next : BlockContext) (meter : BlockGasMeter) (st st' : State)
    (hvalid : st.params.validate = .ok ()) (hbase : st.params.noBaseFee = false)
    (hlondon : isLondon londonBlock block.height = true)
    (hwidth : ∀ maxGas, next.maxGas = some maxGas → maxGas < 2 ^ 63)
    (hmeter : parent.blockGasMeter = some meter) (hend : FeeMarket.endBlock parent st = .ok st') :
    ((∀ fees : Fees, fees.Valid → Predicts decimals londonBlock block next (withFees st' fees)) ↔
      Steady block next meter st) ∧
    (next.height ≠ st.params.enableHeight → block.gasUsed.toNat = countedGas meter st →
      (block.gasTarget st.params : ℤ) = gasTarget next st.params →
      ∀ baseFee : ℤ, block.baseFee decimals londonBlock st' = some baseFee →
      st.params.baseFee = some ⟨baseFee * (minUnitGas decimals).raw⟩ →
      ∀ history actual, processBlock decimals londonBlock block st' = .ok history →
      wrapperCalculateBaseFee decimals next st' = .ok (some actual) →
      (history.nextBaseFee = actual ↔
        SameRounding block.gasUsed.toNat (block.gasTarget st.params) st.params.baseFeeChangeDenominator.toNat
          (minUnitGas decimals).raw decimals.conversionFactor baseFee ∨
        baseFee - |(block.gasUsed.toNat : ℤ) - block.gasTarget st.params| * baseFee /
          (block.gasTarget st.params * st.params.baseFeeChangeDenominator.toNat) ≤
          st.params.minGasPrice.raw / (minUnitGas decimals).raw)) ∧
    (st.params.baseFee = some st.params.minGasPrice → block.gasUsed.toNat ≤ block.gasTarget st.params →
      (next.height ≠ st.params.enableHeight → countedGas meter st ≤ (gasTarget next st.params).toNat) →
      Predicts decimals londonBlock block next st') := by
  obtain ⟨hparams, hgas⟩ := endBlock_eq_ok hmeter hend
  have hvalid' : st'.params.Valid := hparams ▸ FeeMarket.Params.valid_of_validate hvalid
  have hbase' : st'.params.noBaseFee = false := hparams ▸ hbase
  refine ⟨?_, ?_, ?_⟩
  · unfold Steady
    rw [← atTargets_step_iff hparams hgas, ← hparams]
    constructor
    · intro hpredicts
      by_cases hlimit : block.gasLimit = 0
      · exact .inl hlimit
      · cases henabled : st'.params.isBaseFeeEnabled next.height with
        | false => exact .inr (.inl rfl)
        | true => exact .inr (.inr (atTargets_of_predicts hvalid' hbase' hlondon hwidth hlimit henabled hpredicts))
    · rintro hsteady fees hfees
      have hvalidFees := valid_withFees hvalid' hfees
      rcases hsteady with hlimit | hdisabled | hsteady
      · intro history actual hprocess _
        exact absurd hlimit ((processBlock_eq_ok_iff hvalidFees hlondon).1 hprocess).1
      · intro history actual _ hcalculate
        have henabled := ((wrapperCalculateBaseFee_eq_ok_iff hvalidFees hwidth rfl).1 hcalculate).1
        exact absurd (henabled.symm.trans hdisabled) Bool.noConfusion
      · exact predicts_of_atTargets hvalidFees hbase' hlondon hwidth hsteady
  · intro hheight hused htarget baseFee hserved hwhole history actual hprocess hcalculate
    have hstepGas : stepGas next st' = block.gasUsed.toNat := by
      unfold stepGas
      rw [hparams, if_neg hheight, hgas, hused]
    have hstepTarget : stepTarget next st' = block.gasTarget st'.params := by
      unfold stepTarget
      rw [hparams, if_neg hheight]
      omega
    rw [← hparams] at hwhole ⊢
    exact nextBaseFee_eq_iff_of_same_gas hvalid' hlondon hwidth hstepGas hstepTarget hserved hwhole hprocess
      hcalculate
  · intro hfloor hused hcounted
    rw [← hparams] at hfloor hused
    refine predicts_of_floor hvalid' hbase' hlondon hwidth hfloor hused ?_
    unfold stepGas stepTarget
    rw [hparams, hgas]
    split_ifs with hheight
    · exact le_rfl
    · exact hcounted hheight

/-- A block that uses half of its limit, and wants no more than twice that, is predicted. -/
theorem prediction_of_half_used :
    FeeMarket.endBlock (millionContext 10 ⟨1000000, 500000⟩) (gweiState 0 800000) =
        .ok (gweiState 500000 800000) ∧
      ∀ fees : Fees, fees.Valid → Predicts atto (some 0) (millionBlock 500000)
        (millionContext 11 ⟨1000000, 0⟩) (withFees (gweiState 500000 800000) fees) := by
  have hend : FeeMarket.endBlock (millionContext 10 ⟨1000000, 500000⟩) (gweiState 0 800000) =
      .ok (gweiState 500000 800000) := by decide +kernel
  have hwidth : ∀ maxGas, (millionContext 11 ⟨1000000, 0⟩).maxGas = some maxGas → maxGas < 2 ^ 63 := by
    intro maxGas hmax
    rw [← Option.some.inj hmax]
    decide
  refine ⟨hend, (prediction_iff atto (some 0) (millionBlock 500000) (millionContext 10 ⟨1000000, 500000⟩)
    (millionContext 11 ⟨1000000, 0⟩) ⟨1000000, 500000⟩ (gweiState 0 800000) (gweiState 500000 800000) rfl rfl rfl
    hwidth rfl hend).1.2 (.inr (.inr (.inr ⟨by decide, .inl ?_⟩)))⟩
  decide +kernel

/-- A transfer with a generous gas limit: the RPC predicts the step of the gas used, and the fee market takes the
step of half the gas wanted. -/
theorem generous_limit_mispredicted :
    FeeMarket.endBlock (millionContext 10 ⟨1000000, 21000⟩) (gweiState 0 400000) =
        .ok (gweiState 200000 400000) ∧
      processBlock atto (some 0) (millionBlock 21000) (gweiState 200000 400000) =
        .ok ⟨1000000000, 880250000⟩ ∧
      wrapperCalculateBaseFee atto (millionContext 11 ⟨1000000, 0⟩) (gweiState 200000 400000) =
        .ok (some 925000000) := by
  decide +kernel

end CosmosEvm.Rpc
