import CosmosEvm.Sdk.Keepers
import Mathlib.Tactic.Ring

/-!
# Linear measures of the bank

The balance of one account, its spendable part, the total supply and what the emitted events add up to all
change in the same way: coins that reach an account add its weight times their amount, coins that leave it
take that away.
-/

namespace CosmosEvm.BankKeeper

variable {S : Type}

structure Tracks (bk : BankKeeper S) (modules : ModuleAccounts)
    (measure : S → List Event → Denom → ℤ) (weight : AccAddress → ℤ) : Prop where
  sendCoins : ∀ {s s' : S} {sender recipient : AccAddress} {amt : Coins} {events : List Event},
    bk.sendCoins s sender recipient amt = .ok (s', events) → ∀ earlier denom,
      measure s' (earlier ++ events) denom =
        measure s earlier denom + (weight recipient - weight sender) * amt.amountOf denom
  mintCoins : ∀ {s s' : S} {name : ModuleName} {acc : ModuleAccount} {amt : Coins}
    {events : List Event}, modules.getModuleAccount name = some acc →
      bk.mintCoins s name amt = .ok (s', events) → ∀ earlier denom,
        measure s' (earlier ++ events) denom =
          measure s earlier denom + weight acc.address * amt.amountOf denom
  burnCoins : ∀ {s s' : S} {name : ModuleName} {acc : ModuleAccount} {amt : Coins}
    {events : List Event}, modules.getModuleAccount name = some acc →
      bk.burnCoins s name amt = .ok (s', events) → ∀ earlier denom,
        measure s' (earlier ++ events) denom =
          measure s earlier denom - weight acc.address * amt.amountOf denom

def weightOf (a other : AccAddress) : ℤ := if other = a then 1 else 0

@[simp]
theorem weightOf_self (a : AccAddress) : weightOf a a = 1 := by simp [weightOf]

theorem weightOf_of_ne {a other : AccAddress} (hne : other ≠ a) : weightOf a other = 0 := by
  simp [weightOf, hne]

theorem share_eq_weightOf_mul (amt : Coins) (who a : AccAddress) (denom : Denom) :
    share amt who a denom = weightOf a who * amt.amountOf denom := by
  by_cases heq : a = who
  · simp [share, weightOf, heq]
  · simp [share, weightOf, heq, Ne.symm heq]

variable {bk : BankKeeper S} {modules : ModuleAccounts}

theorem MovesExactly.tracks_balance (hbank : MovesExactly bk modules) (a : AccAddress) :
    Tracks bk modules (fun s _ denom => bk.getBalance s a denom) (weightOf a) where
  sendCoins hsend _ denom := by
    simp only [hbank.sendCoins_balance hsend a denom, share_eq_weightOf_mul]
    ring
  mintCoins hacc hmint _ denom := by
    simp only [hbank.mintCoins_balance hacc hmint a denom, share_eq_weightOf_mul]
  burnCoins hacc hburn _ denom := by
    simp only [hbank.burnCoins_balance hacc hburn a denom, share_eq_weightOf_mul]

theorem Lawful.tracks_spendable (hbank : Lawful bk modules) (a : AccAddress) :
    Tracks bk modules (fun s _ denom => bk.spendableCoin s a denom) (weightOf a) where
  sendCoins hsend _ denom := by
    simp only [hbank.sendCoins_spendable hsend a denom, share_eq_weightOf_mul]
    ring
  mintCoins hacc hmint _ denom := by
    simp only [hbank.mintCoins_spendable hacc hmint a denom, share_eq_weightOf_mul]
  burnCoins hacc hburn _ denom := by
    simp only [hbank.burnCoins_spendable hacc hburn a denom, share_eq_weightOf_mul]

theorem Lawful.tracks_supply (hbank : Lawful bk modules) :
    Tracks bk modules (fun s _ denom => bk.getSupply s denom) fun _ => 1 where
  sendCoins hsend _ denom := by
    simp [hbank.sendCoins_supply hsend denom]
  mintCoins _ hmint _ denom := by
    simp [hbank.mintCoins_supply hmint denom]
  burnCoins _ hburn _ denom := by
    simp [hbank.burnCoins_supply hburn denom]

end CosmosEvm.BankKeeper
