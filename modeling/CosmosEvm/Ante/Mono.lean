import CosmosEvm.Vm.Transaction

/-!
# The ante handler of Ethereum transactions

`MonoDecorator.AnteHandle` in `DeliverTx`, step by step, from the checks on the transaction alone to the
increment of the sender's nonce.
-/

namespace CosmosEvm.Ante

open Result Vm Vm.Keeper

structure DecoratorUtils where
  rules : EthRules
  baseFee : Option ℤ
  baseFee_nonneg : ∀ {fee}, baseFee = some fee → 0 ≤ fee
  globalMinGasPrice : Dec
  validateTx : Transaction → Except Err Unit
  validateMsg : Transaction → Except Err Unit
  checkGasWanted : Transaction → Except Err Unit

def effectiveGasTip (tx : Transaction) (baseFee : ℤ) : ℤ :=
  if tx.gasTipCap < tx.gasFeeCap - baseFee then tx.gasTipCap else tx.gasFeeCap - baseFee

def cost (tx : Transaction) : ℤ := tx.gas.toNat * tx.gasFeeCap + tx.value

/-- The check of the floor for calldata in `txpool.ValidateTransaction`. -/
def validateFloor (rules : EthRules) (tx : Transaction) : Except Err Unit :=
  if rules.isPrague then do
    let floor ← floorDataGas tx.data
    ensure (floor ≤ tx.gas.toNat) (.wrapped .other "insufficient gas for floor data gas cost")
  else .ok ()

def validateTransaction (rules : EthRules) (tx : Transaction) : Except Err Unit := do
  ensure (0 ≤ tx.value) (.wrapped .other "negative value")
  ensure (tx.gasFeeCap.natAbs < 2 ^ 256) (.wrapped .other "max fee per gas higher than 2^256-1")
  ensure (tx.gasTipCap.natAbs < 2 ^ 256) (.wrapped .other "max priority fee per gas higher than 2^256-1")
  ensure (tx.gasTipCap ≤ tx.gasFeeCap)
    (.wrapped .other "max priority fee per gas higher than max fee per gas")
  ensure (¬ tx.nonce + 1 < tx.nonce) (.wrapped .other "nonce has max value")
  let intrinsic ← intrinsicGas tx.data tx.accessList tx.setCodeAuthorizations tx.recipient.isNone
    { rules with isHomestead := true }
  ensure (intrinsic ≤ tx.gas.toNat) (.wrapped .other "intrinsic gas too low")
  validateFloor rules tx
  ensure (0 ≤ tx.gasTipCap) (.wrapped .other "transaction underpriced")
  ensure (tx.type = .setCode → tx.setCodeAuthorizations ≠ [])
    (.wrapped .other "set code tx must have at least one authorization tuple")

def globalFee (baseFee : Option ℤ) (tx : Transaction) : ℤ :=
  match baseFee, tx.type.hasGasPrice with
  | some baseFee, false => tx.gas.toNat * (effectiveGasTip tx baseFee + baseFee)
  | _, _ => tx.gas.toNat * tx.gasFeeCap

def checkGlobalFee (fee globalMinGasPrice gasLimit : Dec) : Except Err Unit :=
  if globalMinGasPrice.raw = 0 then .ok ()
  else
    let requiredFee := globalMinGasPrice.mul gasLimit
    let provided := fee.truncateInt
    let required := requiredFee.truncateInt
    ensure (requiredFee.raw ≤ fee.raw) (.wrapped .insufficientFee
      s!"provided fee < minimum global fee ({provided} < {required}). Please increase the priority tip (for EIP-1559 txs) or the gas prices (for access list or legacy txs)")

def validate (utils : DecoratorUtils) (tx : Transaction) : Except Err Unit := do
  utils.validateTx tx
  ensure (utils.rules.isLondon = true → utils.baseFee.isSome = true)
    (.wrapped .other "base fee is supported but evm block context value is nil")
  validateTransaction utils.rules tx
  checkGlobalFee (Dec.ofInt (globalFee utils.baseFee tx)) utils.globalMinGasPrice
    (Dec.ofInt tx.gas.toNat)
  utils.validateMsg tx

def checkSenderBalance (balance : ℤ) (tx : Transaction) : Except Err Unit := do
  let cost := cost tx
  ensure (0 ≤ cost) (.wrapped .invalidCoins s!"tx cost ({cost}) is negative and invalid")
  ensure (0 ≤ balance ∧ cost ≤ balance)
    (.wrapped .insufficientFunds s!"sender balance < tx cost ({balance} < {cost})")

/-- `VerifyFee` in `DeliverTx`, with the fee as an amount. Without a base fee it panics. -/
def verifyFee (rules : EthRules) (baseFee : Option ℤ) (tx : Transaction) : Except Err ℤ := do
  let creation := tx.recipient.isNone
  let homestead := rules.isHomestead
  let istanbul := rules.isIstanbul
  let _ ← (intrinsicGas tx.data tx.accessList tx.setCodeAuthorizations creation rules).mapError
    (Err.wrap s!"failed to retrieve intrinsic gas, contract creation = {creation}; homestead = {homestead}, istanbul = {istanbul}")
  match baseFee with
  | none => .error (.panicked "nil pointer dereference")
  | some baseFee => do
    let feeCap := tx.gasFeeCap
    ensure (baseFee ≤ feeCap) (.wrapped .insufficientFee
      s!"the tx gasfeecap is lower than the tx baseFee: {feeCap} (gasfeecap), {baseFee} (basefee) ")
    return tx.gas.toNat * (effectiveGasTip tx baseFee + baseFee)

section Keepers

variable {S Acc : Type} (k : Vm.Keeper S Acc) (addressString : Address → String)
  (utils : DecoratorUtils) (ctx : Ctx S)

def holdsCode (account : Statedb.Account) : Bool :=
  let code := (getCode ctx.store account.codeHash).getD []
  account.codeHash ≠ k.emptyCodeHash ∧ 0 < code.length ∧ parseDelegation code = none

/-- `VerifyAccountBalance`. An account is stored for a sender without one. -/
def verifyAccountBalance (account : Option Statedb.Account)
    (tx : Transaction) : Except Err (Ctx S) := do
  let sender := addressString tx.sender
  ensure ((account.map (holdsCode k ctx)).getD false = false)
    (.wrapped .invalidType s!"the sender is not EOA: address {sender}")
  (checkSenderBalance ((account.map fun account => account.balance.toNat).getD 0) tx).mapError
    (Err.wrap "failed to check sender balance")
  match account with
  | some _ => return ctx
  | none =>
    let created := k.ak.newAccountWithAddress ctx.store.sdk tx.sender.bytes
    return withSdk ctx (k.ak.setAccount created.2 created.1)

def canTransfer (tx : Transaction) : Except Err Unit := do
  let feeCap := tx.gasFeeCap
  let baseFee := utils.baseFee.getD 0
  ensure (utils.rules.isLondon = true → baseFee ≤ feeCap) (.wrapped .insufficientFee
    s!"max fee per gas less than block base fee ({feeCap} < {baseFee})")
  let convertedValue ← uint256FromBigInt tx.value
  let value := tx.value
  let sender := addressString tx.sender
  if 0 < tx.value then
    match k.getAccount ctx.store tx.sender with
    | none => .error (.panicked "nil pointer dereference")
    | some account => ensure (convertedValue ≤ account.balance) (.wrapped .insufficientFunds
        s!"failed to transfer {value} from address {sender} using the EVM block context transfer function")
  else .ok ()

def authDeductFees (sender : Address) (fee : ℤ) : Except Err (Ctx S) := do
  let fees := k.bank.codec.coinsString [⟨k.bank.integerCoinDenom, fee⟩]
  ensure (0 < fee) (.wrapped .insufficientFee s!"invalid fee amount: {fees}")
  (k.bank.sendCoinsFromAccountToModule ctx sender.bytes feeCollectorName (k.evmCoins fee)).mapError
    fun err => .wrapped .insufficientFunds err.text

def deductTxCostsFromUserBalance (sender : Address) (fee : ℤ) : Except Err (Ctx S) :=
  let payer := addressString sender
  let account := k.bank.codec.accAddressString sender.bytes
  let fees := k.bank.codec.coinsString [⟨k.bank.integerCoinDenom, fee⟩]
  match k.ak.getAccount ctx.store.sdk sender.bytes with
  | none => .error (.wrapped .unknownAddress
      s!"account not found for sender {payer}: account {account} does not exist")
  | some _ => (authDeductFees k ctx sender fee).mapError
      (Err.wrap s!"failed to deduct full gas cost {fees} from the user {payer} balance")

def deductFees (sender : Address) (fee : ℤ) : Except Err (Ctx S) :=
  if fee = 0 then .ok ctx
  else (deductTxCostsFromUserBalance k addressString ctx sender fee).mapError
    (Err.wrap "failed to deduct transaction costs from user balance")

def consumeFeesAndEmitEvent (sender : Address) (fee : ℤ) : Except Err (Ctx S) := do
  let ctx ← deductFees k addressString ctx sender fee
  let fees := if fee = 0 then [] else [⟨k.bank.integerCoinDenom, fee⟩]
  return ctx.emitEvents [⟨"tx", [("fee", k.bank.codec.coinsString fees)]⟩]

def incrementNonce (account : Acc) (txNonce : UInt64) : Except Err (Ctx S) := do
  let accountNonce := k.ak.getSequence account
  let next := accountNonce + 1
  ensure (txNonce = accountNonce)
    (if accountNonce < txNonce then .wrapped .nonceGap
      s!"tx nonce: {txNonce}, account accountNonce: {accountNonce}"
    else .wrapped .invalidSequence s!"invalid nonce; got {txNonce}, expected {accountNonce}")
  ensure (accountNonce.toNat ≠ maxUint64) (.wrapped .invalidSequence
    "nonce overflow: increment beyond 2^64-1 violates EIP-2681")
  let account ← (k.ak.setSequence account next).mapError (Err.wrap s!"failed to set sequence to {next}")
  return withSdk ctx (k.ak.setAccount ctx.store.sdk account)

def incrementSequence (tx : Transaction) : Except Err (Ctx S) :=
  let sender := k.bank.codec.accAddressString tx.sender.bytes
  match k.ak.getAccount ctx.store.sdk tx.sender.bytes with
  | none => .error (.wrapped .unknownAddress s!"account {sender} does not exist")
  | some account => incrementNonce k ctx account tx.nonce

def anteHandle (tx : Transaction) : Except Err (Ctx S) := do
  validate utils tx
  let ctx ← verifyAccountBalance k addressString ctx (k.getAccount ctx.store tx.sender) tx
  canTransfer k addressString utils ctx tx
  let fee ← verifyFee utils.rules utils.baseFee tx
  let ctx ← consumeFeesAndEmitEvent k addressString ctx tx.sender fee
  let ctx ← incrementSequence k ctx tx
  utils.checkGasWanted tx
  return ctx

end Keepers

end CosmosEvm.Ante
