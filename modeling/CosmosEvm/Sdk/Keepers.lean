import CosmosEvm.Sdk.Bytes
import CosmosEvm.Sdk.Coins

/-!
# The keepers of the Cosmos SDK

`x/auth` and `x/bank` live outside the repository. Their keepers are parameters here: a state type, the
operations the repository calls on it, and what it relies on of them as named laws.
-/

namespace CosmosEvm

abbrev ModuleName := String

inductive SdkError where
  | invalidCoins
  | unauthorized
  | unknownAddress
  | insufficientFunds
  | insufficientFee
  | invalidSequence
  | nonceGap
  | invalidType
  | other
deriving DecidableEq

inductive Err where
  | wrapped (root : SdkError) (text : String)
  | panicked (text : String)
deriving DecidableEq

def Err.isInsufficientFunds : Err → Bool
  | .wrapped .insufficientFunds _ => true
  | _ => false

/-- `fmt.Errorf` with `%w`: the registered error below stays visible. -/
def Err.wrap (text : String) : Err → Err
  | .wrapped root inner => .wrapped root s!"{text}: {inner}"
  | .panicked inner => .panicked inner

def Err.text : Err → String
  | .wrapped _ text => text
  | .panicked text => text

structure Event where
  type : String
  attributes : List (String × String)
deriving DecidableEq

def Event.getAttribute (event : Event) (key : String) : Option String :=
  (event.attributes.find? fun entry => entry.1 = key).map Prod.snd

structure Codec where
  accAddressString : AccAddress → String
  accAddressFromBech32 : String → Option AccAddress
  coinsString : Coins → String
  parseCoinsNormalized : String → Option Coins

inductive Permission where
  | minter
  | burner
  | staking
deriving DecidableEq

structure ModuleAccount where
  address : AccAddress
  permissions : List Permission
  address_ne_nil : address ≠ []

/-- The table of registered module accounts. An address is derived from the module's name, so two
modules never share one. -/
structure ModuleAccounts where
  getModuleAccount : ModuleName → Option ModuleAccount
  address_injective : ∀ {left right : ModuleName} {accLeft accRight : ModuleAccount},
    getModuleAccount left = some accLeft → getModuleAccount right = some accRight →
      accLeft.address = accRight.address → left = right

def ModuleAccounts.getModuleAddress (modules : ModuleAccounts) (name : ModuleName) : AccAddress :=
  ((modules.getModuleAccount name).map ModuleAccount.address).getD []

theorem ModuleAccounts.getModuleAddress_eq (modules : ModuleAccounts) {name : ModuleName}
    {acc : ModuleAccount} (hacc : modules.getModuleAccount name = some acc) :
    modules.getModuleAddress name = acc.address := by
  rw [getModuleAddress, hacc]
  rfl

/-- The operations of the `x/bank` keeper, over the states `S` of the stores it works on. A call
returns the new state and the events it emits. -/
structure BankKeeper (S : Type) where
  getBalance : S → AccAddress → Denom → ℤ
  spendableCoin : S → AccAddress → Denom → ℤ
  getSupply : S → Denom → ℤ
  blockedAddr : AccAddress → Bool
  sendCoins : S → AccAddress → AccAddress → Coins → Except Err (S × List Event)
  sendCoinsFromAccountToModule :
    S → AccAddress → ModuleName → Coins → Except Err (S × List Event)
  sendCoinsFromModuleToModule :
    S → ModuleName → ModuleName → Coins → Except Err (S × List Event)
  mintCoins : S → ModuleName → Coins → Except Err (S × List Event)
  burnCoins : S → ModuleName → Coins → Except Err (S × List Event)

namespace BankKeeper

variable {S : Type}

/-- The part of `amt` that account `a` sees when it goes to, or comes from, account `who`. -/
def share (amt : Coins) (who a : AccAddress) (denom : Denom) : ℤ :=
  if a = who then amt.amountOf denom else 0

structure MovesExactly (bk : BankKeeper S) (modules : ModuleAccounts) : Prop where
  sendCoins_balance : ∀ {s s' : S} {sender recipient : AccAddress} {amt : Coins}
    {events : List Event}, bk.sendCoins s sender recipient amt = .ok (s', events) →
      ∀ a denom, bk.getBalance s' a denom = bk.getBalance s a denom - share amt sender a denom +
        share amt recipient a denom
  sendCoinsFromAccountToModule_eq : ∀ {s : S} {sender : AccAddress} {name : ModuleName}
    {acc : ModuleAccount} {amt : Coins}, modules.getModuleAccount name = some acc →
      bk.sendCoinsFromAccountToModule s sender name amt = bk.sendCoins s sender acc.address amt
  sendCoinsFromModuleToModule_eq : ∀ {s : S} {sender recipient : ModuleName}
    {accSender accRecipient : ModuleAccount} {amt : Coins},
      modules.getModuleAccount sender = some accSender →
      modules.getModuleAccount recipient = some accRecipient →
      bk.sendCoinsFromModuleToModule s sender recipient amt =
        bk.sendCoins s accSender.address accRecipient.address amt
  mintCoins_balance : ∀ {s s' : S} {name : ModuleName} {acc : ModuleAccount} {amt : Coins}
    {events : List Event}, modules.getModuleAccount name = some acc →
      bk.mintCoins s name amt = .ok (s', events) →
      ∀ a denom, bk.getBalance s' a denom = bk.getBalance s a denom + share amt acc.address a denom
  burnCoins_balance : ∀ {s s' : S} {name : ModuleName} {acc : ModuleAccount} {amt : Coins}
    {events : List Event}, modules.getModuleAccount name = some acc →
      bk.burnCoins s name amt = .ok (s', events) →
      ∀ a denom, bk.getBalance s' a denom = bk.getBalance s a denom - share amt acc.address a denom

/-- The rest of what the repository relies on. Locked coins are what a balance has above its spendable part:
no operation here changes them, and module accounts have none. -/
structure Lawful (bk : BankKeeper S) (modules : ModuleAccounts) : Prop
    extends MovesExactly bk modules where
  spendable_nonneg : ∀ s a denom, 0 ≤ bk.spendableCoin s a denom
  module_spendable : ∀ {name : ModuleName} {acc : ModuleAccount},
    modules.getModuleAccount name = some acc →
      ∀ s denom, bk.spendableCoin s acc.address denom = bk.getBalance s acc.address denom
  sendCoins_spendable : ∀ {s s' : S} {sender recipient : AccAddress} {amt : Coins}
    {events : List Event}, bk.sendCoins s sender recipient amt = .ok (s', events) →
      ∀ a denom, bk.spendableCoin s' a denom = bk.spendableCoin s a denom -
        share amt sender a denom + share amt recipient a denom
  sendCoins_supply : ∀ {s s' : S} {sender recipient : AccAddress} {amt : Coins}
    {events : List Event}, bk.sendCoins s sender recipient amt = .ok (s', events) →
      ∀ denom, bk.getSupply s' denom = bk.getSupply s denom
  sendCoins_ok_iff : ∀ {s : S} {sender recipient : AccAddress} {amt : Coins}, amt.IsValid →
    ((∃ result, bk.sendCoins s sender recipient amt = .ok result) ↔
      ∀ denom, amt.amountOf denom ≤ bk.spendableCoin s sender denom)
  mintCoins_spendable : ∀ {s s' : S} {name : ModuleName} {acc : ModuleAccount} {amt : Coins}
    {events : List Event}, modules.getModuleAccount name = some acc →
      bk.mintCoins s name amt = .ok (s', events) →
      ∀ a denom, bk.spendableCoin s' a denom =
        bk.spendableCoin s a denom + share amt acc.address a denom
  mintCoins_supply : ∀ {s s' : S} {name : ModuleName} {amt : Coins} {events : List Event},
    bk.mintCoins s name amt = .ok (s', events) →
      ∀ denom, bk.getSupply s' denom = bk.getSupply s denom + amt.amountOf denom
  mintCoins_ok : ∀ {s : S} {name : ModuleName} {acc : ModuleAccount} {amt : Coins},
    modules.getModuleAccount name = some acc → .minter ∈ acc.permissions → amt.IsValid →
      ∃ result, bk.mintCoins s name amt = .ok result
  burnCoins_spendable : ∀ {s s' : S} {name : ModuleName} {acc : ModuleAccount} {amt : Coins}
    {events : List Event}, modules.getModuleAccount name = some acc →
      bk.burnCoins s name amt = .ok (s', events) →
      ∀ a denom, bk.spendableCoin s' a denom =
        bk.spendableCoin s a denom - share amt acc.address a denom
  burnCoins_supply : ∀ {s s' : S} {name : ModuleName} {amt : Coins} {events : List Event},
    bk.burnCoins s name amt = .ok (s', events) →
      ∀ denom, bk.getSupply s' denom = bk.getSupply s denom - amt.amountOf denom
  burnCoins_ok_iff : ∀ {s : S} {name : ModuleName} {acc : ModuleAccount} {amt : Coins},
    modules.getModuleAccount name = some acc → .burner ∈ acc.permissions → amt.IsValid →
      ((∃ result, bk.burnCoins s name amt = .ok result) ↔
        ∀ denom, amt.amountOf denom ≤ bk.spendableCoin s acc.address denom)

end BankKeeper

end CosmosEvm
