import Mathlib.Data.List.Pairwise
import Mathlib.Data.List.Sort
import Mathlib.Data.String.Basic
import Mathlib.Tactic.Linarith

/-!
# Coins

`sdk.Coins` is a list of amounts by denomination. A valid set is strictly sorted by denomination and holds
positive amounts only, so a denomination occurs at most once and reading its amount is a search.
-/

namespace CosmosEvm

abbrev Denom := String

structure Coin where
  denom : Denom
  amount : ℤ
deriving DecidableEq

abbrev Coins := List Coin

/-- `sdk.ValidateDenom`: three to 128 characters, a letter first, then letters, digits and `/:._-`. -/
def validateDenom (denom : Denom) : Bool :=
  match denom.toList with
  | [] => false
  | first :: rest =>
    first.isAlpha && decide (2 ≤ rest.length) && decide (rest.length ≤ 127) &&
      rest.all fun c => c.isAlphanum || ['/', ':', '.', '_', '-'].contains c

namespace Coins

/-- `Coins.IsValid`: valid denominations in strictly increasing order, each with a positive
amount. -/
def IsValid (coins : Coins) : Prop :=
  (∀ coin ∈ coins, validateDenom coin.denom = true ∧ 0 < coin.amount) ∧
    coins.Pairwise fun left right => left.denom < right.denom

instance (coins : Coins) : Decidable coins.IsValid := by
  unfold IsValid
  infer_instance

def amountOf (coins : Coins) (denom : Denom) : ℤ :=
  ((coins.find? fun coin => coin.denom = denom).map Coin.amount).getD 0

/-- `Coins.IsAllPositive`: at least one coin, and none that is not positive. -/
def isAllPositive (coins : Coins) : Bool :=
  !coins.isEmpty && coins.all fun coin => 0 < coin.amount

/-- `Coins.Sub` of one coin that the set covers: the coin's entry is lowered, and entries that reach
zero are dropped. -/
def sub (coins : Coins) (taken : Coin) : Coins :=
  (coins.map fun coin =>
      if coin.denom = taken.denom then { coin with amount := coin.amount - taken.amount }
      else coin).filter fun coin => coin.amount ≠ 0

def newCoins (coin : Coin) : Coins := if coin.amount = 0 then [] else [coin]

@[simp]
theorem amountOf_nil (denom : Denom) : amountOf [] denom = 0 := rfl

theorem amountOf_cons (coin : Coin) (coins : Coins) (denom : Denom) :
    amountOf (coin :: coins) denom =
      if coin.denom = denom then coin.amount else amountOf coins denom := by
  by_cases hdenom : coin.denom = denom <;> simp [amountOf, hdenom]

theorem amountOf_newCoins (coin : Coin) (denom : Denom) :
    amountOf (newCoins coin) denom = if coin.denom = denom then coin.amount else 0 := by
  unfold newCoins
  split
  · rename_i hzero
    simp [hzero]
  · simp [amountOf_cons]

theorem IsValid.tail {coin : Coin} {coins : Coins} (hvalid : IsValid (coin :: coins)) :
    IsValid coins :=
  ⟨fun other hother => hvalid.1 other (List.mem_cons_of_mem coin hother), hvalid.2.of_cons⟩

theorem isValid_newCoins {coin : Coin} (hdenom : validateDenom coin.denom = true)
    (hamount : 0 ≤ coin.amount) : IsValid (newCoins coin) := by
  unfold newCoins
  split
  · exact ⟨by simp, List.Pairwise.nil⟩
  · rename_i hne
    refine ⟨?_, List.pairwise_singleton _ _⟩
    simp only [List.mem_singleton, forall_eq]
    exact ⟨hdenom, lt_of_le_of_ne hamount (Ne.symm hne)⟩

theorem amountOf_eq_zero_of_forall_ne {coins : Coins} {denom : Denom}
    (hne : ∀ coin ∈ coins, coin.denom ≠ denom) : amountOf coins denom = 0 := by
  have hnone : coins.find? (fun coin => coin.denom = denom) = none := by
    rw [List.find?_eq_none]
    intro coin hcoin
    simpa using hne coin hcoin
  simp [amountOf, hnone]

theorem IsValid.amountOf_nonneg {coins : Coins} (hvalid : IsValid coins) (denom : Denom) :
    0 ≤ amountOf coins denom := by
  induction coins with
  | nil => simp
  | cons coin coins ih =>
    rw [amountOf_cons]
    split
    · exact (hvalid.1 coin List.mem_cons_self).2.le
    · exact ih hvalid.tail

theorem IsValid.amountOf_of_mem {coins : Coins} (hvalid : IsValid coins) {coin : Coin}
    (hcoin : coin ∈ coins) : amountOf coins coin.denom = coin.amount := by
  induction coins with
  | nil => simp at hcoin
  | cons head coins ih =>
    rw [amountOf_cons]
    rcases List.mem_cons.mp hcoin with rfl | htail
    · simp
    · have hlt := List.rel_of_pairwise_cons hvalid.2 htail
      rw [if_neg (ne_of_lt hlt)]
      exact ih hvalid.tail htail

theorem IsValid.amountOf_le_iff {coins : Coins} (hvalid : IsValid coins) {bound : Denom → ℤ}
    (hbound : ∀ denom, 0 ≤ bound denom) :
    (∀ denom, amountOf coins denom ≤ bound denom) ↔ ∀ coin ∈ coins, coin.amount ≤ bound coin.denom := by
  constructor
  · intro hle coin hcoin
    rw [← hvalid.amountOf_of_mem hcoin]
    exact hle coin.denom
  · intro hle denom
    by_cases hex : ∃ coin ∈ coins, coin.denom = denom
    · obtain ⟨coin, hcoin, rfl⟩ := hex
      rw [hvalid.amountOf_of_mem hcoin]
      exact hle coin hcoin
    · rw [amountOf_eq_zero_of_forall_ne fun coin hcoin heq => hex ⟨coin, hcoin, heq⟩]
      exact hbound denom

theorem IsValid.sub_eq_filter {coins : Coins} (hvalid : IsValid coins) (denom : Denom) :
    coins.sub ⟨denom, coins.amountOf denom⟩ = coins.filter fun coin => coin.denom ≠ denom := by
  have hgeneral : ∀ (amount : ℤ) (rest : Coins),
      (∀ coin ∈ rest, coin.denom = denom → coin.amount = amount) →
      (∀ coin ∈ rest, 0 < coin.amount) →
      rest.sub ⟨denom, amount⟩ = rest.filter fun coin => coin.denom ≠ denom := by
    intro amount rest
    induction rest with
    | nil => intro _ _; rfl
    | cons coin rest ih =>
      intro hamount hpos
      have htail := ih (fun other hother => hamount other (List.mem_cons_of_mem coin hother))
        (fun other hother => hpos other (List.mem_cons_of_mem coin hother))
      have hhead := hamount coin List.mem_cons_self
      have hne := (hpos coin List.mem_cons_self).ne'
      unfold sub at htail ⊢
      by_cases hdenom : coin.denom = denom
      · simpa [hdenom, hhead hdenom] using htail
      · simpa [hdenom, hne] using htail
  refine hgeneral _ coins ?_ fun coin hcoin => (hvalid.1 coin hcoin).2
  rintro coin hcoin rfl
  exact (hvalid.amountOf_of_mem hcoin).symm

theorem IsValid.filter {coins : Coins} (hvalid : IsValid coins) (keep : Coin → Bool) :
    IsValid (coins.filter keep) :=
  ⟨fun coin hcoin => hvalid.1 coin (List.mem_of_mem_filter hcoin), hvalid.2.filter keep⟩

theorem amountOf_filter_ne (coins : Coins) (denom other : Denom) :
    amountOf (coins.filter fun coin => coin.denom ≠ denom) other =
      if other = denom then 0 else amountOf coins other := by
  induction coins with
  | nil => simp
  | cons coin coins ih =>
    by_cases hdenom : coin.denom = denom
    · by_cases hother : other = denom
      · simp_all
      · have hne : coin.denom ≠ other := fun heq => hother (heq.symm.trans hdenom)
        simp_all [amountOf_cons]
    · by_cases hother : other = denom
      · simp_all [amountOf_cons]
      · simp_all [amountOf_cons]

theorem IsValid.isAllPositive_iff {coins : Coins} (hvalid : IsValid coins) :
    coins.isAllPositive = true ↔ coins ≠ [] := by
  simp only [isAllPositive, Bool.and_eq_true, Bool.not_eq_eq_eq_not, Bool.not_true,
    List.isEmpty_eq_false_iff, List.all_eq_true, decide_eq_true_eq, and_iff_left_iff_imp]
  exact fun _ coin hcoin => (hvalid.1 coin hcoin).2

end Coins

end CosmosEvm
