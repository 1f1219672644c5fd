import CosmosEvm.Sdk.Keepers
import Mathlib.Data.Finmap

namespace CosmosEvm

structure EvmStore where
  code : Finmap fun _ : Hash => Bytes
  codeHash : Finmap fun _ : Address => Hash
  storage : Finmap fun _ : Address × Hash => Bytes

structure MultiStore (S : Type) where
  sdk : S
  fractionalBalances : Finmap fun _ : AccAddress => ℤ
  remainderAmount : Option ℤ
  evm : EvmStore

structure Context (σ : Type) where
  store : σ
  events : List Event

abbrev Ctx (S : Type) := Context (MultiStore S)

namespace Context

variable {σ : Type}

def emitEvents (ctx : Context σ) (events : List Event) : Context σ :=
  { ctx with events := ctx.events ++ events }

@[simp]
theorem emitEvents_store (ctx : Context σ) (events : List Event) :
    (ctx.emitEvents events).store = ctx.store := rfl

end Context

structure Decimals where
  value : ℕ
  pos : 0 < value
  le_eighteen : value ≤ 18

/-- The `ConversionFactor` table, from `1e17` at one decimal down to `1e0` at eighteen. -/
def Decimals.conversionFactor (decimals : Decimals) : ℤ := 10 ^ (18 - decimals.value)

theorem Decimals.conversionFactor_pos (decimals : Decimals) : 0 < decimals.conversionFactor := by
  unfold Decimals.conversionFactor
  positivity

/-- `EvmCoinInfo`, as `setEVMCoinInfo` accepts it: an 18-decimal coin is its own extended coin. -/
structure EvmCoinInfo where
  denom : Denom
  extendedDenom : Denom
  decimals : Decimals
  validateDenom_denom : validateDenom denom = true
  validateDenom_extendedDenom : validateDenom extendedDenom = true
  denom_eq_of_eighteen : decimals.value = 18 → denom = extendedDenom

end CosmosEvm
