import CosmosEvm.PreciseBank.Send

/-!
# Minting and burning extended coins

Minting takes the fraction out of the remainder, burning puts it back. Whether the fraction carries or
borrows and whether the remainder runs short or over are independent, so both functions have four cases.
-/

namespace CosmosEvm.PreciseBank.Keeper

variable {S : Type} (k : Keeper S) (ctx : Ctx S)

def mintExtendedCoinReserve (amt : ℤ) : Except Err (Ctx S) :=
  let integerMintAmount := amt.tdiv k.conversionFactor
  if 0 < integerMintAmount then
    callBank ctx fun s => k.bk.mintCoins s moduleName (k.integerCoins integerMintAmount)
  else .ok ctx

def mintExtendedCoin (recipientModuleName : ModuleName) (amt : ℤ) :
    Except Err (Ctx S) :=
  let moduleAddr := k.modules.getModuleAddress recipientModuleName
  if recipientModuleName = moduleName then
    k.mintExtendedCoinReserve ctx amt
  else do
    let fractionalAmount := getFractionalBalance ctx moduleAddr
    let integerMintAmount := amt.tdiv k.conversionFactor
    let fractionalMintAmount := amt % k.conversionFactor
    let prevRemainder := getRemainderAmount ctx
    let newRemainder := prevRemainder - fractionalMintAmount
    let newFractionalBalance := fractionalAmount + fractionalMintAmount
    let carried := k.conversionFactor ≤ newFractionalBalance
    let ctx ← (
      if carried ∧ 0 ≤ newRemainder then
        callBank ctx fun s =>
          k.bk.sendCoinsFromModuleToModule s moduleName recipientModuleName (k.integerCoins 1)
      else .ok ctx)
    let integerMintAmount :=
      if carried ∧ newRemainder < 0 then integerMintAmount + 1 else integerMintAmount
    let newFractionalBalance :=
      if carried then newFractionalBalance - k.conversionFactor else newFractionalBalance
    let ctx ← (
      if 0 < integerMintAmount then
        callBank ctx fun s =>
          k.bk.mintCoins s recipientModuleName (k.integerCoins integerMintAmount)
      else .ok ctx)
    let ctx ← k.setFractionalBalance ctx moduleAddr newFractionalBalance
    let wasCarried := k.conversionFactor ≤ fractionalAmount + fractionalMintAmount
    let ctx ← (
      if prevRemainder < fractionalMintAmount ∧ ¬ wasCarried then
        (callBank ctx fun s => k.bk.mintCoins s moduleName (k.integerCoins 1)).mapError
          (Err.wrap ("failed to mint " ++ k.codec.coinsString (k.integerCoins 1) ++ " for reserve"))
      else .ok ctx)
    let newRemainder := if newRemainder < 0 then newRemainder + k.conversionFactor else newRemainder
    let ctx ← k.setRemainderAmount ctx newRemainder
    return k.emitEventFractionalBalanceChange ctx moduleAddr fractionalAmount newFractionalBalance

/-- The checks that `MintCoins` and `BurnCoins` share: the module is not the reserve's, exists and
has the permission, and the coins are valid. -/
def checkModule (name : ModuleName) (permission : Permission) (amt : Coins)
    (reserveText permissionText : String) : Except Err Unit :=
  if name = moduleName then
    .error (.panicked s!"module account {name} {reserveText}")
  else
    match k.modules.getModuleAccount name with
    | none => .error (unknownModule name)
    | some acc =>
      if permission ∉ acc.permissions then
        .error (.panicked s!"module account {name} does not have permissions to {permissionText}")
      else if ¬ amt.IsValid then
        .error (.wrapped .invalidCoins (k.codec.coinsString amt))
      else .ok ()

def mintCoins (name : ModuleName) (amt : Coins) : Except Err (Ctx S) := do
  k.checkModule name .minter amt "cannot be minted to" "mint tokens"
  let extendedAmount := amt.amountOf k.extendedCoinDenom
  let ctx ← (
    if k.passthroughCoins amt ≠ [] then
      callBank ctx fun s => k.bk.mintCoins s name (k.passthroughCoins amt)
    else .ok ctx)
  if 0 < extendedAmount then k.mintExtendedCoin ctx name extendedAmount else .ok ctx

def burnExtendedCoinReserve (amt : ℤ) : Except Err (Ctx S) :=
  let integerBurnAmount := amt.tdiv k.conversionFactor
  if 0 < integerBurnAmount then
    callBank ctx fun s => k.bk.burnCoins s moduleName (k.integerCoins integerBurnAmount)
  else .ok ctx

def burnExtendedCoin (name : ModuleName) (amt : ℤ) : Except Err (Ctx S) :=
  let moduleAddr := k.modules.getModuleAddress name
  if name = moduleName then
    k.burnExtendedCoinReserve ctx amt
  else do
    let prevFractionalBalance := getFractionalBalance ctx moduleAddr
    let prevRemainder := getRemainderAmount ctx
    let integerBurnAmount := amt.tdiv k.conversionFactor
    let fractionalBurnAmount := amt % k.conversionFactor
    let newFractionalBalance := prevFractionalBalance - fractionalBurnAmount
    let requiresBorrow := newFractionalBalance < 0
    let newRemainder := prevRemainder + fractionalBurnAmount
    let overflowingRemainder := k.conversionFactor ≤ newRemainder
    let integerBurnAmount :=
      if requiresBorrow ∧ overflowingRemainder then integerBurnAmount + 1 else integerBurnAmount
    let newFractionalBalance :=
      if requiresBorrow then newFractionalBalance + k.conversionFactor else newFractionalBalance
    let newRemainder :=
      if overflowingRemainder then newRemainder - k.conversionFactor else newRemainder
    let ctx ← (
      if requiresBorrow ∧ ¬ overflowingRemainder then
        (callBank ctx fun s =>
          k.bk.sendCoinsFromModuleToModule s name moduleName (k.integerCoins 1)).mapError
            (k.updateInsufficientFundsError ctx moduleAddr amt)
      else .ok ctx)
    let ctx ← (
      if ¬ requiresBorrow ∧ overflowingRemainder then
        (callBank ctx fun s => k.bk.burnCoins s moduleName (k.integerCoins 1)).mapError
          (Err.wrap ("failed to burn " ++ k.codec.coinsString (k.integerCoins 1) ++ " for reserve"))
      else .ok ctx)
    let ctx ← (
      if integerBurnAmount ≠ 0 then
        (callBank ctx fun s =>
          k.bk.burnCoins s name (k.integerCoins integerBurnAmount)).mapError
            (k.updateInsufficientFundsError ctx moduleAddr amt)
      else .ok ctx)
    let ctx ← k.setFractionalBalance ctx moduleAddr newFractionalBalance
    let ctx ← k.setRemainderAmount ctx newRemainder
    return k.emitEventFractionalBalanceChange ctx moduleAddr prevFractionalBalance
      newFractionalBalance

def burnCoins (name : ModuleName) (amt : Coins) : Except Err (Ctx S) := do
  k.checkModule name .burner amt "cannot be burned from" "burn tokens"
  let extendedAmount := amt.amountOf k.extendedCoinDenom
  let ctx ← (
    if k.passthroughCoins amt ≠ [] then
      callBank ctx fun s => k.bk.burnCoins s name (k.passthroughCoins amt)
    else .ok ctx)
  if 0 < extendedAmount then k.burnExtendedCoin ctx name extendedAmount else .ok ctx

end CosmosEvm.PreciseBank.Keeper
