import CosmosEvm.Lib.Result
import CosmosEvm.PreciseBank.Keeper

/-!
# Sending extended coins

`SendCoins` hands every coin but the extended one to `x/bank`. The extended amount is split into whole
integer coins, which `x/bank` moves, and a fraction, which moves between the two fractional balances.
-/

namespace CosmosEvm

namespace PreciseBank.Keeper

variable {S : Type} (k : Keeper S) (ctx : Ctx S)

def updateInsufficientFundsError (addr : AccAddress) (amt : ℤ) (err : Err) : Err :=
  if err.isInsufficientFunds then
    let spendable := k.codec.coinsString
      [⟨k.extendedCoinDenom, k.spendableCoin ctx addr k.extendedCoinDenom⟩]
    let coin := k.codec.coinsString [⟨k.extendedCoinDenom, amt⟩]
    .wrapped .insufficientFunds s!"spendable balance {spendable} is smaller than {coin}"
  else
    err

def subFromFractionalBalance (currentFractionalBalance amountToSub : ℤ) :
    Except Err (ℤ × Bool) :=
  if k.conversionFactor ≤ currentFractionalBalance then
    .error (.panicked "currentFractionalBalance must be less than ConversionFactor")
  else if k.conversionFactor ≤ amountToSub then
    .error (.panicked "amountToSub must be less than ConversionFactor")
  else
    let newFractionalBalance := currentFractionalBalance - amountToSub
    let borrowRequired := decide (newFractionalBalance < 0)
    .ok (if borrowRequired then newFractionalBalance + k.conversionFactor else newFractionalBalance,
      borrowRequired)

def addToFractionalBalance (currentFractionalBalance amountToAdd : ℤ) :
    Except Err (ℤ × Bool) :=
  if k.conversionFactor ≤ currentFractionalBalance then
    .error (.panicked "currentFractionalBalance must be less than ConversionFactor")
  else if k.conversionFactor ≤ amountToAdd then
    .error (.panicked "amountToAdd must be less than ConversionFactor")
  else
    let newFractionalBalance := currentFractionalBalance + amountToAdd
    let carryRequired := decide (k.conversionFactor ≤ newFractionalBalance)
    .ok (if carryRequired then newFractionalBalance - k.conversionFactor else newFractionalBalance,
      carryRequired)

/-- The path of `sendExtendedCoins` for a transfer that names the reserve: only the whole integer
coins move. -/
def sendExtendedCoinsReserve (sender recipient : AccAddress) (amt : ℤ) :
    Except Err (Ctx S) :=
  let integerAmt := amt.tdiv k.conversionFactor
  if 0 < integerAmt then
    (callBank ctx fun s => k.bk.sendCoins s sender recipient (k.integerCoins integerAmt)).mapError
      (k.updateInsufficientFundsError ctx sender amt)
  else
    .ok ctx

/-- The integer coins `sendExtendedCoins` moves: the direct transfer, then the sender's borrow to
the reserve, then the recipient's carry from it. -/
def sendIntegerCoins (sender recipient : AccAddress) (amt integerAmt : ℤ)
    (senderNeedsBorrow recipientNeedsCarry : Bool) : Except Err (Ctx S) := do
  let integerAmt := if senderNeedsBorrow && recipientNeedsCarry then integerAmt + 1 else integerAmt
  let ctx ← (
    if 0 < integerAmt then
      (callBank ctx fun s =>
        k.bk.sendCoins s sender recipient (k.integerCoins integerAmt)).mapError
          (k.updateInsufficientFundsError ctx sender amt)
    else .ok ctx)
  let ctx ← (
    if senderNeedsBorrow && !recipientNeedsCarry then
      (callBank ctx fun s =>
        k.bk.sendCoinsFromAccountToModule s sender moduleName (k.integerCoins 1)).mapError
          (k.updateInsufficientFundsError ctx sender amt)
    else .ok ctx)
  if !senderNeedsBorrow && recipientNeedsCarry then
    (callBank ctx fun s =>
      k.bk.sendCoins s (k.modules.getModuleAddress moduleName) recipient
        (k.integerCoins 1)).mapError fun err =>
          let account := k.codec.accAddressString recipient
          let text := err.text
          .panicked s!"failed to carry fractional coins to {account}: {text}"
  else .ok ctx

def sendExtendedCoins (sender recipient : AccAddress) (amt : ℤ) :
    Except Err (Ctx S) :=
  let moduleAddr := k.modules.getModuleAddress moduleName
  if sender = moduleAddr ∨ recipient = moduleAddr then
    k.sendExtendedCoinsReserve ctx sender recipient amt
  else if sender = recipient then
    .ok ctx
  else do
    let senderFracBal := getFractionalBalance ctx sender
    let recipientFracBal := getFractionalBalance ctx recipient
    let integerAmt := amt.tdiv k.conversionFactor
    let fractionalAmt := amt % k.conversionFactor
    let (senderNewFracBal, senderNeedsBorrow) ←
      k.subFromFractionalBalance senderFracBal fractionalAmt
    let (recipientNewFracBal, recipientNeedsCarry) ←
      k.addToFractionalBalance recipientFracBal fractionalAmt
    let ctx ← k.sendIntegerCoins ctx sender recipient amt integerAmt senderNeedsBorrow
      recipientNeedsCarry
    let ctx ← k.setFractionalBalance ctx sender senderNewFracBal
    let ctx ← k.setFractionalBalance ctx recipient recipientNewFracBal
    let ctx := k.emitEventFractionalBalanceChange ctx sender senderFracBal senderNewFracBal
    return k.emitEventFractionalBalanceChange ctx recipient recipientFracBal recipientNewFracBal

/-- The coins that `SendCoins`, `MintCoins` and `BurnCoins` pass through to `x/bank`. -/
def passthroughCoins (amt : Coins) : Coins :=
  let extendedAmount := amt.amountOf k.extendedCoinDenom
  if 0 < extendedAmount then amt.sub ⟨k.extendedCoinDenom, extendedAmount⟩ else amt

def sendCoins (sender recipient : AccAddress) (amt : Coins) :
    Except Err (Ctx S) :=
  if ¬ amt.IsValid then
    .error (.wrapped .invalidCoins (k.codec.coinsString amt))
  else do
    let extendedCoinAmount := amt.amountOf k.extendedCoinDenom
    let ctx ← (
      if (k.passthroughCoins amt).isAllPositive then
        callBank ctx fun s => k.bk.sendCoins s sender recipient (k.passthroughCoins amt)
      else .ok ctx)
    if 0 < extendedCoinAmount then
      k.sendExtendedCoins ctx sender recipient extendedCoinAmount
    else .ok ctx

def unknownModule (name : ModuleName) : Err :=
  .panicked s!"module account {name} does not exist"

def sendCoinsFromAccountToModule (senderAddr : AccAddress) (recipientModule : ModuleName)
    (amt : Coins) : Except Err (Ctx S) :=
  match k.modules.getModuleAccount recipientModule with
  | none => .error (unknownModule recipientModule)
  | some recipientAcc =>
    if recipientModule = moduleName then
      .error (.wrapped .unauthorized
        s!"module account {moduleName} is not allowed to receive funds")
    else
      k.sendCoins ctx senderAddr recipientAcc.address amt

def sendCoinsFromModuleToAccount (senderModule : ModuleName) (recipientAddr : AccAddress)
    (amt : Coins) : Except Err (Ctx S) :=
  match k.modules.getModuleAccount senderModule with
  | none => .error (unknownModule senderModule)
  | some senderAcc =>
    if senderModule = moduleName then
      .error (.wrapped .unauthorized s!"module account {moduleName} is not allowed to send funds")
    else if k.bk.blockedAddr recipientAddr then
      let account := k.codec.accAddressString recipientAddr
      .error (.wrapped .unauthorized s!"{account} is not allowed to receive funds")
    else
      k.sendCoins ctx senderAcc.address recipientAddr amt

def sendCoinsFromModuleToModule (senderModule recipientModule : ModuleName) (amt : Coins) :
    Except Err (Ctx S) :=
  match k.modules.getModuleAccount senderModule, k.modules.getModuleAccount recipientModule with
  | none, _ => .error (unknownModule senderModule)
  | some _, none => .error (unknownModule recipientModule)
  | some senderAcc, some recipientAcc =>
    if recipientModule = moduleName then
      .error (.wrapped .unauthorized
        s!"module account {moduleName} is not allowed to receive funds")
    else
      k.sendCoins ctx senderAcc.address recipientAcc.address amt

end PreciseBank.Keeper

end CosmosEvm
