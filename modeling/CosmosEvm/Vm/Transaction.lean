import CosmosEvm.Statedb.View
import CosmosEvm.Vm.GasUsed

namespace CosmosEvm.Vm

open Result BankKeeper PreciseBank.Keeper Statedb

inductive TxType where
  | legacy
  | accessList
  | dynamicFee
  | setCode
deriving DecidableEq

def TxType.hasGasPrice : TxType → Bool
  | .legacy | .accessList => true
  | .dynamicFee | .setCode => false

structure Transaction where
  type : TxType
  sender : Address
  recipient : Option Address
  nonce : UInt64
  gas : UInt64
  gasFeeCap : ℤ
  gasTipCap : ℤ
  value : ℤ
  data : Bytes
  accessList : List (Address × List Hash)
  setCodeAuthorizations : List SetCodeAuthorization
  caps_eq : type.hasGasPrice = true → gasTipCap = gasFeeCap

/-- `core.TransactionToMessage`: the price is the tip above the base fee, up to the fee cap. -/
def transactionToMessage (tx : Transaction) (baseFee : Option ℤ) : Message where
  sender := tx.sender
  recipient := tx.recipient
  nonce := tx.nonce
  value := tx.value
  gasLimit := tx.gas
  gasPrice :=
    match baseFee with
    | none => tx.gasFeeCap
    | some baseFee => if tx.gasFeeCap < tx.gasTipCap + baseFee then tx.gasFeeCap else tx.gasTipCap + baseFee
  gasFeeCap := tx.gasFeeCap
  gasTipCap := tx.gasTipCap
  data := tx.data
  accessList := tx.accessList
  setCodeAuthorizations := tx.setCodeAuthorizations

def feeCollectorName : ModuleName := "fee_collector"

/-- `PostTxProcessing`: hooks may write to the branch they run in and change the logs. -/
abbrev Hooks (S : Type) := Ctx S → Message → MsgEthereumTxResponse →
  Except Err (Ctx S × List Log)

section Branches

variable {σ : Type}

def cacheContext (ctx : Context σ) : Context σ := ⟨ctx.store, []⟩

def writeBranch (ctx branch : Context σ) : Context σ := ⟨branch.store, ctx.events ++ branch.events⟩

end Branches

namespace Keeper

variable {S Acc : Type} (k : Keeper S Acc) (addressString : Address → String) (cfg : EvmConfig)
  (evm : Evm (MultiStore S)) (hooks : Option (Hooks S)) (baseFee : Option ℤ)

def refundGas (ctx : Ctx S) (msg : Message) (leftoverGas : ℕ) :
    Except Err (Ctx S) :=
  let remaining := leftoverGas * msg.gasPrice
  if remaining < 0 then
    .error (.wrapped .other s!"refunded amount value cannot be negative {remaining}")
  else if 0 < remaining then
    let refundedCoins := k.bank.codec.coinsString [⟨k.bank.integerCoinDenom, remaining⟩]
    (k.bank.sendCoinsFromModuleToAccount ctx feeCollectorName msg.sender.bytes
      (k.evmCoins remaining)).mapError fun err => .wrapped .insufficientFunds
        s!"failed to refund {leftoverGas} leftover gas ({refundedCoins}): fee collector account failed to refund fees: {err.text}"
  else .ok ctx

/-- `ApplyTransaction` between the execution and the refund: the branch of a failed execution is discarded,
and only what the hooks write is kept then. -/
def afterExecution (ctx : Ctx S) (msg : Message) (res : MsgEthereumTxResponse)
    (branch : Ctx S) : MsgEthereumTxResponse × Ctx S :=
  let branch := if res.failed then cacheContext ctx else branch
  match hooks with
  | none => (res, if res.failed then ctx else writeBranch ctx branch)
  | some postTxProcessing =>
    match postTxProcessing branch msg res with
    | .error err =>
      ({ res with
          vmError := some ("failed to execute post transaction processing: " ++ err.text)
          logs := [] }, ctx)
    | .ok (branch', logs) =>
      ({ res with logs := if res.failed then [] else logs },
        (writeBranch ctx branch').emitEvents (branch'.events.drop branch.events.length))

def applyTransaction (ctx : Ctx S) (tx : Transaction) (txConfig : TxConfig) :
    Except Err (MsgEthereumTxResponse × Ctx S) := do
  let msg := transactionToMessage tx baseFee
  let executed ← (applyMessageWithConfig (k.env addressString) cfg evm (cacheContext ctx) msg true false
    txConfig).mapError (Err.wrap "failed to apply ethereum core message")
  let after := afterExecution hooks ctx msg executed.1 executed.2
  let ctx ← (k.refundGas after.2 msg (msg.gasLimit.toNat - after.1.gasUsed)).mapError
    (Err.wrap s!"failed to refund gas leftover gas to sender {addressString msg.sender}")
  return (after.1, ctx)

variable {k addressString cfg evm hooks baseFee} {ctx ctx' : Ctx S} {msg : Message}
  {leftoverGas : ℕ} {collector : ModuleAccount}

theorem feeCollectorName_ne : feeCollectorName ≠ PreciseBank.moduleName := by decide

theorem valueFlow_refundGas (hwired : k.Wired) (hbacked : Backed k.bank ctx)
    (hcollector : k.bank.modules.getModuleAccount feeCollectorName = some collector)
    (hok : k.refundGas ctx msg leftoverGas = .ok ctx') :
    0 ≤ leftoverGas * msg.gasPrice ∧ ValueFlow k.bank ctx ctx' [collector.address, msg.sender.bytes]
      (fun a => (weightOf a msg.sender.bytes - weightOf a collector.address) *
        (leftoverGas * msg.gasPrice)) 0 := by
  have hreserve := module_address_ne_reserve feeCollectorName_ne hcollector
  unfold refundGas at hok
  obtain ⟨hnonneg, hok⟩ := ite_error_eq_ok_iff.mp hok
  refine ⟨not_lt.mp hnonneg, ?_⟩
  by_cases hpos : 0 < (leftoverGas : ℤ) * msg.gasPrice
  · rw [if_pos hpos] at hok
    have hsend := mapError_eq_ok_iff.mp hok
    unfold sendCoinsFromModuleToAccount at hsend
    simp only [hcollector] at hsend
    rw [if_neg feeCollectorName_ne] at hsend
    obtain ⟨hblocked, hsend⟩ := ite_error_eq_ok_iff.mp hsend
    have hsender : msg.sender.bytes ≠ k.bank.reserve.address := by
      intro heq
      exact hblocked (heq ▸ hwired.reserve_blocked)
    rw [evmCoins_eq hpos, sendCoins_extendedCoins hpos.le, if_pos hpos] at hsend
    exact valueFlow_sendExtendedCoins hwired.bank hbacked hreserve hsender hpos.le hsend
  · rw [if_neg hpos] at hok
    cases hok
    have hzero : (leftoverGas : ℤ) * msg.gasPrice = 0 := le_antisymm (not_lt.mp hpos) (not_lt.mp hnonneg)
    refine ValueFlow.congr (ValueFlow.refl hbacked) (fun a => ?_) rfl
    rw [hzero, mul_zero]

end Keeper

end CosmosEvm.Vm
