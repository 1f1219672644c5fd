import CosmosEvm.Lib.Result
import CosmosEvm.Mempool.Iterator
import CosmosEvm.Sdk.Dec
import Mathlib.Data.UInt

/-!
# The fee of a Cosmos transaction

The decorators of the Cosmos ante handler that look at the fee and the gas limit of a transaction, in their
order.
-/

namespace CosmosEvm

namespace Coins

def find (denom : Denom) (coins : Coins) : Option Coin :=
  match coins with
  | [] => none
  | [coin] => if coin.denom = denom then some coin else none
  | first :: second :: rest =>
    let midIdx := (rest.length + 2) / 2
    let coin := (first :: second :: rest).getD midIdx first
    if denom < coin.denom then find denom ((first :: second :: rest).take midIdx)
    else if denom = coin.denom then some coin
    else find denom ((first :: second :: rest).drop (midIdx + 1))
termination_by coins.length
decreasing_by
  · simp only [List.length_take, List.length_cons]
    omega
  · simp only [List.length_drop, List.length_cons]
    omega

def amountOfNoDenomValidation (coins : Coins) (denom : Denom) : ℤ := ((coins.find denom).map Coin.amount).getD 0

def isAnyGTE (coins other : Coins) : Bool :=
  coins.any fun coin =>
    let amount := other.amountOfNoDenomValidation coin.denom
    decide (amount ≤ coin.amount) && decide (amount ≠ 0)

def string (coins : Coins) : String :=
  String.intercalate "," (coins.map fun coin => toString coin.amount ++ coin.denom)

@[simp]
theorem find_nil (denom : Denom) : find denom [] = none := by
  unfold find
  rfl

@[simp]
theorem find_singleton (denom : Denom) (coin : Coin) :
    find denom [coin] = if coin.denom = denom then some coin else none := by
  unfold find
  rfl

end Coins

namespace Dec

def ceilInt (d : Dec) : ℤ := -(-d.raw / precision)

end Dec

namespace Ante

open Mempool (FeeTx)
open Result (ensure)

def defaultBondDenom : Denom := "stake"

def defaultPriorityReduction : ℤ := 1000000

def maxGasWanted : UInt64 := 9223372036854775807

def maxInt64 : ℤ := 9223372036854775807

structure CosmosTx where
  feeTx : Option FeeTx
  maxPriorityPrice : Option (Option Dec)

structure FeeContext where
  blockHeight : ℤ
  isCheckTx : Bool
  minGasPrices : List (Denom × Dec)
  blockGasLimit : UInt64
  isLondon : Bool
  evmDenom : Denom
  baseFee : Option Dec
  minGasPrice : Dec

structure CosmosDecorators where
  setUp : CosmosTx → Except Err Unit
  memo : CosmosTx → Except Err Unit
  txSize : CosmosTx → Except Err Unit
  deductFees : CosmosTx → Coins → Except Err Unit
  signatures : CosmosTx → Except Err Unit

variable (decText : Dec → String) (ctx : FeeContext) (decorators : CosmosDecorators) (tx : FeeTx)

def validateBasic : Except Err Unit := do
  let gas := tx.gas
  ensure (gas ≤ maxGasWanted) (.wrapped .other s!"invalid gas supplied; {gas} > {maxGasWanted}")
  let fees := tx.fee.string
  ensure (∀ coin ∈ tx.fee, 0 ≤ coin.amount) (.wrapped .insufficientFee s!"invalid fee provided: {fees}")

def validFees (evmDenom : Denom) (fees : Coins) : Bool :=
  match fees with
  | [] => true
  | [coin] => [evmDenom, defaultBondDenom].contains coin.denom
  | _ => false

def minGasPrice (tx : FeeTx) (simulate : Bool) : Except Err Unit := do
  let evmDenom := ctx.evmDenom
  let fees := tx.fee.string
  ensure (validFees evmDenom tx.fee = true ∨ simulate = true)
    (.wrapped .other s!"expected only native token {evmDenom} for fee, but got {fees}")
  if ctx.minGasPrice.raw = 0 ∨ simulate = true then .ok ()
  else do
    let fee := (ctx.minGasPrice.mul (Dec.ofInt tx.gas.toNat)).ceilInt
    let requiredFees : Coins := if 0 < fee then [⟨evmDenom, fee⟩] else []
    let required := requiredFees.string
    ensure (tx.fee ≠ []) (.wrapped .insufficientFee
      s!"fee not provided. Please use the --fees flag or the --gas-price flag along with the --gas flag to estimate the fee. The minimum global fee for this tx is: {required}")
    ensure (tx.fee.isAnyGTE requiredFees = true) (.wrapped .insufficientFee
      s!"provided fee < minimum global fee ({fees} < {required}). Please increase the gas price.")

def gasInt64 : ℤ := (tx.gas.toNat : ℤ).bmod (2 ^ 64)

def capInt64 (amount : ℤ) : ℤ := if -maxInt64 - 1 ≤ amount ∧ amount ≤ maxInt64 then amount else maxInt64

/-- `getTxPriority`, where `QuoRaw` panics on a gas limit of zero. -/
def getTxPriority (fees : Coins) (gas : ℤ) : Except Err ℤ :=
  fees.foldlM (fun priority fee =>
    if gas = 0 then .error (.panicked "division by zero")
    else
      let p := capInt64 ((fee.amount.tdiv gas).tdiv defaultPriorityReduction)
      .ok (if priority = 0 ∨ p < priority then p else priority)) 0

def checkTxFeeWithValidatorMinGasPrices : Except Err (Coins × ℤ) := do
  let requiredFees : Coins := ctx.minGasPrices.map fun price =>
    ⟨price.1, (price.2.mul (Dec.ofInt (gasInt64 tx))).ceilInt⟩
  let fees := tx.fee.string
  let required := requiredFees.string
  ensure (ctx.isCheckTx = true → (∃ price ∈ ctx.minGasPrices, price.2.raw ≠ 0) →
      tx.fee.isAnyGTE requiredFees = true)
    (.wrapped .insufficientFee s!"insufficient fees; got: {fees} required: {required}")
  let priority ← getTxPriority tx.fee (gasInt64 tx)
  return (tx.fee, priority)

def feeChecker (maxPriorityPrice : Option (Option Dec)) : Except Err (Coins × ℤ) :=
  if ctx.isLondon = false then checkTxFeeWithValidatorMinGasPrices ctx tx
  else do
    let baseFee := ctx.baseFee.getD (Dec.ofInt 0)
    let maxPriorityPrice := (maxPriorityPrice.map fun price => price.getD (Dec.ofInt 0)).getD (Dec.ofInt maxInt64)
    ensure (0 ≤ maxPriorityPrice.raw) (.wrapped .insufficientFee "max priority price cannot be negative")
    ensure (tx.gas ≠ 0) (.wrapped .other "gas cannot be zero")
    let denom := ctx.evmDenom
    let feeCap := (Dec.ofInt (tx.fee.amountOfNoDenomValidation denom)).quoInt tx.gas.toNat
    let got := decText feeCap
    let required := decText baseFee
    ensure (baseFee.raw ≤ feeCap.raw) (.wrapped .insufficientFee
      s!"gas prices too low, got: {got}{denom} required: {required}{denom}. Please retry using a higher gas price or a higher fee")
    let effectivePrice : Dec := if (maxPriorityPrice.add baseFee).raw < feeCap.raw then maxPriorityPrice.add baseFee
      else feeCap
    return ([⟨denom, Dec.ceilInt ⟨effectivePrice.raw * tx.gas.toNat⟩⟩],
      capInt64 ((effectivePrice.sub baseFee).quoInt defaultPriorityReduction).truncateInt)

def dynamicFeeChecker (maxPriorityPrice : Option (Option Dec)) : Except Err (Coins × ℤ) :=
  if ctx.blockHeight = 0 then checkTxFeeWithValidatorMinGasPrices ctx tx
  else feeChecker decText ctx tx maxPriorityPrice

/-- `DeductFeeDecorator`. In a simulation the fee is not checked. -/
def deductFee (tx : CosmosTx) (feeTx : FeeTx) (simulate : Bool) : Except Err Unit := do
  ensure (simulate = false → 0 < ctx.blockHeight → feeTx.gas ≠ 0) (.wrapped .other "must provide positive gas")
  if simulate = true then decorators.deductFees tx feeTx.fee
  else do
    let checked ← dynamicFeeChecker decText ctx feeTx tx.maxPriorityPrice
    decorators.deductFees tx checked.1

def checkGasWanted : Except Err Unit :=
  let gasWanted := tx.gas
  let blockGasLimit := ctx.blockGasLimit
  ensure (ctx.isLondon = true → gasWanted ≤ blockGasLimit) (.wrapped .other
    s!"tx gas ({gasWanted}) exceeds block gas limit ({blockGasLimit})")

def cosmosAnteHandle (tx : CosmosTx) (simulate : Bool) : Except Err Unit := do
  decorators.setUp tx
  match tx.feeTx with
  | none => .error (.wrapped .other "Tx must be a FeeTx")
  | some feeTx => do
    validateBasic feeTx
    decorators.memo tx
    minGasPrice ctx feeTx simulate
    decorators.txSize tx
    deductFee decText ctx decorators tx feeTx simulate
    decorators.signatures tx
    checkGasWanted ctx feeTx

variable {decText ctx decorators} {tx : CosmosTx} {feeTx : FeeTx}

theorem gas_ne_zero_of_checkTxFee {checked : Coins × ℤ}
    (hok : checkTxFeeWithValidatorMinGasPrices ctx feeTx = .ok checked) (hfee : feeTx.fee ≠ []) :
    feeTx.gas ≠ 0 := by
  intro hgas
  have hzero : gasInt64 feeTx = 0 := by
    unfold gasInt64
    rw [hgas, UInt64.toNat_zero, Int.natCast_zero, Int.zero_bmod]
  obtain ⟨coin, rest, hcons⟩ := List.exists_cons_of_ne_nil hfee
  simp only [checkTxFeeWithValidatorMinGasPrices, Result.seq_eq_ok_iff] at hok
  obtain ⟨priority, hpriority, -⟩ := Result.bind_eq_ok_iff.1 hok.2
  rw [hcons, hzero] at hpriority
  exact nomatch hpriority

theorem gas_ne_zero_of_dynamicFeeChecker {maxPriorityPrice : Option (Option Dec)} {checked : Coins × ℤ}
    (hok : dynamicFeeChecker decText ctx feeTx maxPriorityPrice = .ok checked) (hfee : feeTx.fee ≠ []) :
    feeTx.gas ≠ 0 := by
  unfold dynamicFeeChecker at hok
  split at hok
  · exact gas_ne_zero_of_checkTxFee hok hfee
  · unfold feeChecker at hok
    split at hok
    · exact gas_ne_zero_of_checkTxFee hok hfee
    · simp only [Result.seq_eq_ok_iff, Result.ensure_eq_ok_iff] at hok
      exact hok.2.1

theorem cosmosAnteHandle_spec (haccepts : cosmosAnteHandle decText ctx decorators tx false = .ok ()) :
    ∃ feeTx, tx.feeTx = some feeTx ∧ validFees ctx.evmDenom feeTx.fee = true ∧
      (feeTx.fee ≠ [] → feeTx.gas ≠ 0) := by
  unfold cosmosAnteHandle at haccepts
  rw [Result.seq_eq_ok_iff] at haccepts
  obtain ⟨-, haccepts⟩ := haccepts
  cases hfeeTx : tx.feeTx with
  | none =>
    rw [hfeeTx] at haccepts
    exact nomatch haccepts
  | some feeTx =>
    rw [hfeeTx] at haccepts
    simp only [Result.seq_eq_ok_iff] at haccepts
    obtain ⟨-, -, hmin, -, hdeduct, -, -⟩ := haccepts
    refine ⟨feeTx, rfl, ?_, ?_⟩
    · simp only [minGasPrice, Result.seq_eq_ok_iff, Result.ensure_eq_ok_iff] at hmin
      simpa using hmin.1
    · simp only [deductFee, Result.seq_eq_ok_iff, Bool.false_eq_true, if_false] at hdeduct
      obtain ⟨checked, hchecked, -⟩ := Result.bind_eq_ok_iff.1 hdeduct.2
      exact gas_ne_zero_of_dynamicFeeChecker hchecked

end Ante

end CosmosEvm
