import CosmosEvm.Lib.Digit
import CosmosEvm.Lib.Ledger
import CosmosEvm.Store.Context

/-!
# The x/precisebank keeper

The keeper extends an integer coin of `x/bank` by a fractional balance for each account, kept below the
conversion factor.
-/

namespace CosmosEvm.PreciseBank

open SparseLedger

def moduleName : ModuleName := "precisebank"

structure Keeper (S : Type) where
  coinInfo : EvmCoinInfo
  modules : ModuleAccounts
  bk : BankKeeper S
  codec : Codec
  reserve : ModuleAccount
  getModuleAccount_moduleName : modules.getModuleAccount moduleName = some reserve
  minter_mem : .minter ∈ reserve.permissions
  burner_mem : .burner ∈ reserve.permissions

namespace Keeper

variable {S : Type} (k : Keeper S) (ctx : Ctx S)

def conversionFactor : ℤ := k.coinInfo.decimals.conversionFactor

def integerCoinDenom : Denom := k.coinInfo.denom

def extendedCoinDenom : Denom := k.coinInfo.extendedDenom

theorem conversionFactor_pos : 0 < k.conversionFactor := k.coinInfo.decimals.conversionFactor_pos

theorem isDigit_fraction (amt : ℤ) :
    Digit.IsDigit k.conversionFactor (amt % k.conversionFactor) :=
  Digit.isDigit_emod k.conversionFactor_pos amt

theorem ediv_mul_add_emod (amt : ℤ) :
    amt / k.conversionFactor * k.conversionFactor + amt % k.conversionFactor = amt :=
  Int.mul_comm _ _ ▸ Int.mul_ediv_add_emod amt k.conversionFactor

theorem getModuleAddress_moduleName :
    k.modules.getModuleAddress moduleName = k.reserve.address := by
  simp [ModuleAccounts.getModuleAddress, k.getModuleAccount_moduleName]

/-- A call on the `x/bank` keeper, whose events go to the context's event manager. -/
def callBank (call : S → Except Err (S × List Event)) : Except Err (Ctx S) := do
  let (sdk, events) ← call ctx.store.sdk
  return { store := { ctx.store with sdk }, events := ctx.events ++ events }

def integerCoins (amt : ℤ) : Coins := Coins.newCoins ⟨k.integerCoinDenom, amt⟩

def validateFractionalAmount (amt : ℤ) : Except String Unit :=
  if ¬ 0 < amt then
    .error s!"non-positive amount {amt}"
  else if k.conversionFactor ≤ amt then
    .error s!"amount {amt} exceeds max of {k.conversionFactor - 1}"
  else
    .ok ()

def getFractionalBalance (ctx : Ctx S) (address : AccAddress) : ℤ :=
  valueAt ctx.store.fractionalBalances address

def setFractionalBalance (address : AccAddress) (amount : ℤ) :
    Except Err (Ctx S) :=
  if address = [] then
    .error (.panicked "address cannot be empty")
  else if amount = 0 then
    .ok { ctx with store := { ctx.store with
      fractionalBalances := ctx.store.fractionalBalances.erase address } }
  else
    match k.validateFractionalAmount amount with
    | .error text => .error (.panicked s!"amount is invalid: {text}")
    | .ok () => .ok { ctx with store := { ctx.store with
        fractionalBalances := ctx.store.fractionalBalances.insert address amount } }

def getTotalSumFractionalBalances (ctx : Ctx S) : ℤ :=
  total ctx.store.fractionalBalances

def getRemainderAmount (ctx : Ctx S) : ℤ := ctx.store.remainderAmount.getD 0

def setRemainderAmount (amount : ℤ) : Except Err (Ctx S) :=
  if amount = 0 then
    .ok { ctx with store := { ctx.store with remainderAmount := none } }
  else
    match k.validateFractionalAmount amount with
    | .error text => .error (.panicked s!"remainder amount is invalid: {text}")
    | .ok () => .ok { ctx with store := { ctx.store with remainderAmount := some amount } }

def emitEventFractionalBalanceChange (address : AccAddress) (beforeAmount afterAmount : ℤ) :
    Ctx S :=
  ctx.emitEvents [⟨"fractional_balance_change",
    [("address", k.codec.accAddressString address),
      ("delta", (afterAmount - beforeAmount).repr)]⟩]

def getBalance (address : AccAddress) (denom : Denom) : ℤ :=
  if denom = k.extendedCoinDenom ∧ address = k.modules.getModuleAddress moduleName then
    0
  else if denom ≠ k.extendedCoinDenom then
    k.bk.getBalance ctx.store.sdk address denom
  else
    k.bk.getBalance ctx.store.sdk address k.integerCoinDenom * k.conversionFactor +
      getFractionalBalance ctx address

def spendableCoin (address : AccAddress) (denom : Denom) : ℤ :=
  if denom = k.extendedCoinDenom ∧ address = k.modules.getModuleAddress moduleName then
    0
  else if denom ≠ k.extendedCoinDenom then
    k.bk.spendableCoin ctx.store.sdk address denom
  else
    k.bk.spendableCoin ctx.store.sdk address k.integerCoinDenom * k.conversionFactor +
      getFractionalBalance ctx address

def sumExtendedCoin (amt : Coins) : ℤ :=
  amt.amountOf k.integerCoinDenom * k.conversionFactor + amt.amountOf k.extendedCoinDenom

end Keeper

end CosmosEvm.PreciseBank
