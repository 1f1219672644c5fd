import CosmosEvm.Lib.Lockstep
import CosmosEvm.PreciseBank.MintBurnLaw

namespace CosmosEvm

structure BankKeeper.Guarded {S : Type} (bk : BankKeeper S) (modules : ModuleAccounts) : Prop where
  mintCoins : ∀ {s : S} {name : ModuleName} {amt : Coins} {result : S × List Event},
    bk.mintCoins s name amt = .ok result →
      ∃ acc, modules.getModuleAccount name = some acc ∧ .minter ∈ acc.permissions
  burnCoins : ∀ {s : S} {name : ModuleName} {amt : Coins} {result : S × List Event},
    bk.burnCoins s name amt = .ok result →
      ∃ acc, modules.getModuleAccount name = some acc ∧ .burner ∈ acc.permissions

namespace PreciseBank.Keeper

open SparseLedger Digit Result BankKeeper Lockstep

variable {S : Type} {k : Keeper S} {ctx ctx' : Ctx S}

structure NoFractions (ctx : Ctx S) : Prop where
  fractional : ctx.store.fractionalBalances = ∅
  remainder : getRemainderAmount ctx = 0

theorem NoFractions.getFractionalBalance_eq (hno : NoFractions ctx) (a : AccAddress) :
    getFractionalBalance ctx a = 0 := by
  rw [getFractionalBalance, hno.fractional]
  rfl

theorem NoFractions.of_bankMove {flow : (AccAddress → ℤ) → Denom → ℤ} (hno : NoFractions ctx)
    (hmove : BankMove k ctx ctx' flow) : NoFractions ctx' where
  fractional := by rw [hmove.store_eq, hno.fractional]
  remainder := by rw [hmove.getRemainderAmount_eq, hno.remainder]

section Eighteen

variable (heighteen : k.coinInfo.decimals.value = 18)

include heighteen

theorem conversionFactor_eq_one : k.conversionFactor = 1 := by
  unfold conversionFactor Decimals.conversionFactor
  rw [heighteen]
  rfl

theorem extendedCoinDenom_eq : k.extendedCoinDenom = k.integerCoinDenom :=
  (k.coinInfo.denom_eq_of_eighteen heighteen).symm

theorem isDigit_iff_of_eighteen {d : ℤ} : IsDigit k.conversionFactor d ↔ d = 0 := by
  rw [conversionFactor_eq_one heighteen, IsDigit]
  omega

theorem NoFractions.coversCarries (hno : NoFractions ctx) : CoversCarries k ctx := by
  have hone := conversionFactor_eq_one heighteen
  constructor
  · exact fun a => (isDigit_iff_of_eighteen heighteen).mpr (hno.getFractionalBalance_eq a)
  · exact (isDigit_iff_of_eighteen heighteen).mpr hno.remainder
  · intro left right _ hle
    rw [hno.getFractionalBalance_eq, hno.getFractionalBalance_eq] at hle
    omega
  · intro a hle
    rw [hno.getFractionalBalance_eq, hno.remainder] at hle
    omega

theorem amountOf_passthroughCoins_add {amt : Coins} (hvalid : amt.IsValid) (denom : Denom) :
    (k.passthroughCoins amt).amountOf denom +
      (k.integerCoins (amt.amountOf k.extendedCoinDenom)).amountOf denom = amt.amountOf denom := by
  rw [amountOf_passthroughCoins hvalid, amountOf_integerCoins, extendedCoinDenom_eq heighteen]
  by_cases hdenom : denom = k.integerCoinDenom
  · rw [hdenom, if_pos rfl, if_pos rfl, zero_add]
  · rw [if_neg hdenom, if_neg (Ne.symm hdenom), add_zero]

structure PlainMove (k : Keeper S) (ctx ctx' : Ctx S)
    (flow : (AccAddress → ℤ) → Denom → ℤ) : Prop where
  noFractions : NoFractions ctx'
  measure_eq : ∀ {measure : S → Denom → ℤ} {weight : AccAddress → ℤ},
    Tracks k.bk k.modules (fun s _ denom => measure s denom) weight → ∀ denom,
      measure ctx'.store.sdk denom = measure ctx.store.sdk denom + flow weight denom

end Eighteen

structure Mirrors (k : Keeper S) (ctx : Ctx S) (s : S) : Prop where
  noFractions : NoFractions ctx
  balance : ∀ a denom, k.bk.getBalance ctx.store.sdk a denom = k.bk.getBalance s a denom
  spendable : ∀ a denom, k.bk.spendableCoin ctx.store.sdk a denom = k.bk.spendableCoin s a denom
  supply : ∀ denom, k.bk.getSupply ctx.store.sdk denom = k.bk.getSupply s denom

theorem NoFractions.mirrors (hno : NoFractions ctx) : Mirrors k ctx ctx.store.sdk :=
  ⟨hno, fun _ _ => rfl, fun _ _ => rfl, fun _ => rfl⟩

theorem BankMove.plainMove {flow : (AccAddress → ℤ) → Denom → ℤ} (hmove : BankMove k ctx ctx' flow)
    (hno : NoFractions ctx) : PlainMove k ctx ctx' flow where
  noFractions := hno.of_bankMove hmove
  measure_eq htracks denom := hmove.measure_eq htracks denom

theorem PlainMove.trans {ctx'' : Ctx S} {flow flow' : (AccAddress → ℤ) → Denom → ℤ}
    (hfirst : PlainMove k ctx ctx' flow) (hsecond : PlainMove k ctx' ctx'' flow') :
    PlainMove k ctx ctx'' fun weight denom => flow weight denom + flow' weight denom where
  noFractions := hsecond.noFractions
  measure_eq htracks denom := by
    rw [hsecond.measure_eq htracks, hfirst.measure_eq htracks, add_assoc]

theorem PlainMove.congr {flow flow' : (AccAddress → ℤ) → Denom → ℤ} (hmove : PlainMove k ctx ctx' flow)
    (hflow : ∀ weight denom, flow weight denom = flow' weight denom) : PlainMove k ctx ctx' flow' where
  noFractions := hmove.noFractions
  measure_eq htracks denom := by rw [hmove.measure_eq htracks, hflow]

theorem assign_empty_zero (address : AccAddress) :
    assign (∅ : Finmap fun _ : AccAddress => ℤ) address 0 = ∅ := by
  rw [assign, if_pos rfl]
  rfl

theorem PlainMove.afterFractionalSend {flow : (AccAddress → ℤ) → Denom → ℤ} (hmove : PlainMove k ctx ctx' flow)
    (sender recipient : AccAddress) :
    PlainMove k ctx (k.afterFractionalSend ctx' sender recipient 0 0 0 0) flow where
  noFractions := by
    refine ⟨?_, hmove.noFractions.remainder⟩
    change assign (assign ctx'.store.fractionalBalances sender 0) recipient 0 = ∅
    rw [hmove.noFractions.fractional, assign_empty_zero, assign_empty_zero]
  measure_eq htracks denom := hmove.measure_eq htracks denom

theorem PlainMove.afterFractionalChange {flow : (AccAddress → ℤ) → Denom → ℤ}
    (hmove : PlainMove k ctx ctx' flow) (address : AccAddress) :
    PlainMove k ctx (k.afterFractionalChange ctx' address 0 0 0) flow where
  noFractions := by
    refine ⟨?_, getRemainderAmount_afterFractionalChange address 0 0 0⟩
    change assign ctx'.store.fractionalBalances address 0 = ∅
    rw [hmove.noFractions.fractional, assign_empty_zero]
  measure_eq htracks denom := hmove.measure_eq htracks denom

section Eighteen

variable (heighteen : k.coinInfo.decimals.value = 18)

include heighteen

theorem FractionalSend.plainMove {sender recipient : AccAddress} {amt : ℤ} (hne : sender ≠ recipient)
    (hno : NoFractions ctx) (hsent : FractionalSend k ctx sender recipient amt ctx') :
    PlainMove k ctx ctx' fun weight => k.atInteger ((weight recipient - weight sender) * amt) := by
  cases hsent with
  | self heq => exact absurd heq hne
  | @moved ctx₁ f' g' paid gained _ _ _ hmove _ hf' hg' hpaid hgained =>
    obtain rfl := (isDigit_iff_of_eighteen heighteen).mp hf'
    obtain rfl := (isDigit_iff_of_eighteen heighteen).mp hg'
    simp only [hno.getFractionalBalance_eq, conversionFactor_eq_one heighteen, mul_one, add_zero, sub_zero]
      at hpaid hgained ⊢
    subst hpaid hgained
    refine ((hmove.plainMove hno).congr fun weight denom => ?_).afterFractionalSend sender recipient
    rw [sub_self, mul_zero, add_zero, sub_mul]

theorem FractionalChange.plainMove {address : AccAddress} {delta : ℤ} (hno : NoFractions ctx)
    (hchange : FractionalChange k ctx address delta ctx') :
    PlainMove k ctx ctx' fun weight => k.atInteger (weight address * delta) := by
  obtain @⟨ctx₁, f', r', units, reserveUnits, hmove, -, hf', hr', hvalue, hcirculating⟩ := hchange
  obtain rfl := (isDigit_iff_of_eighteen heighteen).mp hf'
  obtain rfl := (isDigit_iff_of_eighteen heighteen).mp hr'
  simp only [hno.getFractionalBalance_eq, hno.remainder, conversionFactor_eq_one heighteen, mul_one, add_zero,
    sub_zero] at hvalue hcirculating ⊢
  subst hvalue
  obtain rfl : reserveUnits = 0 := by omega
  refine ((hmove.plainMove hno).congr fun weight denom => ?_).afterFractionalChange address
  rw [mul_zero, add_zero]

theorem PlainMove.whole {amt : Coins} (hvalid : amt.IsValid) (factor : (AccAddress → ℤ) → ℤ)
    {ctx₁ : Ctx S} {extended : Except Err (Ctx S)}
    (hfirst : PlainMove k ctx ctx₁ fun weight denom =>
      factor weight * (k.passthroughCoins amt).amountOf denom)
    (hextended : extended = .ok ctx' → PlainMove k ctx₁ ctx' fun weight =>
      k.atInteger (factor weight * amt.amountOf k.extendedCoinDenom))
    (hok : (if 0 < amt.amountOf k.extendedCoinDenom then extended else .ok ctx₁) = .ok ctx') :
    PlainMove k ctx ctx' fun weight denom => factor weight * amt.amountOf denom := by
  rcases ite_eq_ok_iff.mp hok with ⟨-, hsecond⟩ | ⟨hpos, rfl⟩
  · refine (hfirst.trans (hextended hsecond)).congr fun weight denom => ?_
    rw [← amountOf_passthroughCoins_add heighteen hvalid denom, mul_add, amountOf_integerCoins, mul_ite, mul_zero,
      atInteger]
  · have hzero : amt.amountOf k.extendedCoinDenom = 0 :=
      le_antisymm (not_lt.mp hpos) (hvalid.amountOf_nonneg _)
    refine hfirst.congr fun weight denom => ?_
    rw [← amountOf_passthroughCoins_add heighteen hvalid denom, hzero, amountOf_integerCoins, ite_self,
      add_zero]

theorem exists_two_steps_iff {amt : Coins} (hvalid : amt.IsValid) {spendable : Denom → ℤ}
    (hspendable : ∀ denom, 0 ≤ spendable denom) {first : Except Err (Ctx S)}
    {extended : Ctx S → Except Err (Ctx S)}
    (hfirst : (∃ ctx₁, first = .ok ctx₁) ↔
      ∀ denom, (k.passthroughCoins amt).amountOf denom ≤ spendable denom)
    (hextended : ∀ ctx₁, first = .ok ctx₁ → ((∃ ctx', extended ctx₁ = .ok ctx') ↔
      amt.amountOf k.extendedCoinDenom ≤ spendable k.integerCoinDenom)) :
    (∃ ctx' ctx₁, first = .ok ctx₁ ∧
      (if 0 < amt.amountOf k.extendedCoinDenom then extended ctx₁ else .ok ctx₁) = .ok ctx') ↔
      ∀ denom, amt.amountOf denom ≤ spendable denom := by
  have hdenom := extendedCoinDenom_eq heighteen
  constructor
  · rintro ⟨ctx', ctx₁, hone, htwo⟩ denom
    have hpass := hfirst.mp ⟨ctx₁, hone⟩ denom
    rw [amountOf_passthroughCoins hvalid] at hpass
    by_cases hcase : denom = k.extendedCoinDenom
    swap
    · rwa [if_neg hcase] at hpass
    rw [hcase]
    rcases ite_eq_ok_iff.mp htwo with ⟨-, hsecond⟩ | ⟨hpos, -⟩
    · rw [hdenom]
      rw [hdenom] at hextended
      exact (hextended ctx₁ hone).mp ⟨ctx', hsecond⟩
    · exact (not_lt.mp hpos).trans (hspendable _)
  · intro hcovers
    obtain ⟨ctx₁, hone⟩ := hfirst.mpr fun denom => by
      rw [amountOf_passthroughCoins hvalid]
      split_ifs
      · exact hspendable denom
      · exact hcovers denom
    by_cases hpos : 0 < amt.amountOf k.extendedCoinDenom
    · obtain ⟨ctx', htwo⟩ := (hextended ctx₁ hone).mpr (by rw [hdenom]; exact hcovers k.integerCoinDenom)
      exact ⟨ctx', ctx₁, hone, by rw [if_pos hpos, htwo]⟩
    · exact ⟨ctx₁, ctx₁, hone, if_neg hpos⟩

theorem PlainMove.spendable_integer (hbank : Lawful k.bk k.modules) {amt : Coins} (hvalid : amt.IsValid)
    {factor : (AccAddress → ℤ) → ℤ} (hmove : PlainMove k ctx ctx' fun weight denom =>
      factor weight * (k.passthroughCoins amt).amountOf denom) (a : AccAddress) :
    k.bk.spendableCoin ctx'.store.sdk a k.integerCoinDenom =
      k.bk.spendableCoin ctx.store.sdk a k.integerCoinDenom := by
  rw [hmove.measure_eq (hbank.tracks_spendable a), amountOf_passthroughCoins hvalid,
    if_pos (extendedCoinDenom_eq heighteen).symm, mul_zero, add_zero]

theorem Mirrors.getBalance_eq {s : S} (hmirrors : Mirrors k ctx s) {a : AccAddress}
    (ha : a ≠ k.reserve.address) (denom : Denom) : k.getBalance ctx a denom = k.bk.getBalance s a denom := by
  by_cases hdenom : denom = k.extendedCoinDenom
  · rw [hdenom, getBalance_extendedCoinDenom ha, valueOf, hmirrors.noFractions.getFractionalBalance_eq,
      conversionFactor_eq_one heighteen, extendedCoinDenom_eq heighteen, mul_one, add_zero, hmirrors.balance]
  · rw [← hmirrors.balance, getBalance, if_neg (fun h => hdenom h.1), if_pos hdenom]

theorem Mirrors.spendableCoin_eq {s : S} (hmirrors : Mirrors k ctx s) {a : AccAddress}
    (ha : a ≠ k.reserve.address) (denom : Denom) :
    k.spendableCoin ctx a denom = k.bk.spendableCoin s a denom := by
  by_cases hdenom : denom = k.extendedCoinDenom
  · rw [hdenom, spendableCoin_extendedCoinDenom ha, valueOf, hmirrors.noFractions.getFractionalBalance_eq,
      conversionFactor_eq_one heighteen, extendedCoinDenom_eq heighteen, mul_one, add_zero, hmirrors.spendable]
  · rw [spendableCoin_of_ne hdenom, hmirrors.spendable]

end Eighteen

inductive CoinCall where
  | sendCoins (sender recipient : AccAddress) (amt : Coins)
  | mintCoins (name : ModuleName) (amt : Coins)
  | burnCoins (name : ModuleName) (amt : Coins)

namespace CoinCall

def exec (k : Keeper S) (ctx : Ctx S) : CoinCall → Except Err (Ctx S)
  | sendCoins sender recipient amt => k.sendCoins ctx sender recipient amt
  | mintCoins name amt => k.mintCoins ctx name amt
  | burnCoins name amt => k.burnCoins ctx name amt

def execBank (bk : BankKeeper S) (s : S) : CoinCall → Except Err S
  | sendCoins sender recipient amt => (bk.sendCoins s sender recipient amt).map Prod.fst
  | mintCoins name amt => (bk.mintCoins s name amt).map Prod.fst
  | burnCoins name amt => (bk.burnCoins s name amt).map Prod.fst

/-- Valid coins, two accounts or a module, and none of them precisebank's. -/
def Admitted (k : Keeper S) : CoinCall → Prop
  | sendCoins sender recipient amt => amt.IsValid ∧ sender ≠ recipient ∧ sender ≠ [] ∧ recipient ≠ [] ∧
      sender ≠ k.reserve.address ∧ recipient ≠ k.reserve.address
  | mintCoins name amt => amt.IsValid ∧ name ≠ moduleName
  | burnCoins name amt => amt.IsValid ∧ name ≠ moduleName

def flow (k : Keeper S) : CoinCall → (AccAddress → ℤ) → Denom → ℤ
  | sendCoins sender recipient amt => fun weight denom =>
    (weight recipient - weight sender) * amt.amountOf denom
  | mintCoins name amt => fun weight denom => weight (k.modules.getModuleAddress name) * amt.amountOf denom
  | burnCoins name amt => fun weight denom => -weight (k.modules.getModuleAddress name) * amt.amountOf denom

def Allowed (k : Keeper S) (spendable : AccAddress → Denom → ℤ) : CoinCall → Prop
  | sendCoins sender _ amt => ∀ denom, amt.amountOf denom ≤ spendable sender denom
  | mintCoins name _ => ∃ acc, k.modules.getModuleAccount name = some acc ∧ .minter ∈ acc.permissions
  | burnCoins name amt => ∃ acc, k.modules.getModuleAccount name = some acc ∧ .burner ∈ acc.permissions ∧
      ∀ denom, amt.amountOf denom ≤ spendable acc.address denom

end CoinCall

theorem exists_execBank_iff (hbank : Lawful k.bk k.modules) (hguarded : Guarded k.bk k.modules)
    {call : CoinCall} (hadmitted : call.Admitted k) (s : S) :
    (∃ s', call.execBank k.bk s = .ok s') ↔ call.Allowed k (k.bk.spendableCoin s) := by
  have hmap : ∀ {result : Except Err (S × List Event)},
      (∃ s', result.map Prod.fst = .ok s') ↔ ∃ pair, result = .ok pair := by
    intro result
    simp only [map_eq_ok_iff]
    exact ⟨fun ⟨_, pair, hok, _⟩ => ⟨pair, hok⟩, fun ⟨pair, hok⟩ => ⟨pair.1, pair, hok, rfl⟩⟩
  cases call with
  | sendCoins sender recipient amt => exact hmap.trans (hbank.sendCoins_ok_iff hadmitted.1)
  | mintCoins name amt =>
    refine hmap.trans ⟨fun ⟨_, hok⟩ => hguarded.mintCoins hok, ?_⟩
    rintro ⟨acc, hacc, hminter⟩
    exact hbank.mintCoins_ok hacc hminter hadmitted.1
  | burnCoins name amt =>
    refine hmap.trans ⟨fun ⟨result, hok⟩ => ?_, ?_⟩
    · obtain ⟨acc, hacc, hburner⟩ := hguarded.burnCoins hok
      exact ⟨acc, hacc, hburner, (hbank.burnCoins_ok_iff hacc hburner hadmitted.1).mp ⟨result, hok⟩⟩
    · rintro ⟨acc, hacc, hburner, hcovers⟩
      exact (hbank.burnCoins_ok_iff hacc hburner hadmitted.1).mpr hcovers

theorem execBank_measure_eq (hguarded : Guarded k.bk k.modules) {call : CoinCall} {s s' : S}
    (hok : call.execBank k.bk s = .ok s') {measure : S → Denom → ℤ} {weight : AccAddress → ℤ}
    (htracks : Tracks k.bk k.modules (fun s _ denom => measure s denom) weight) (denom : Denom) :
    measure s' denom = measure s denom + call.flow k weight denom := by
  cases call with
  | sendCoins sender recipient amt =>
    obtain ⟨⟨s₁, events⟩, hsend, rfl⟩ := map_eq_ok_iff.mp hok
    exact htracks.sendCoins hsend [] denom
  | mintCoins name amt =>
    obtain ⟨⟨s₁, events⟩, hmint, rfl⟩ := map_eq_ok_iff.mp hok
    obtain ⟨acc, hacc, -⟩ := hguarded.mintCoins hmint
    rw [CoinCall.flow, k.modules.getModuleAddress_eq hacc]
    exact htracks.mintCoins hacc hmint [] denom
  | burnCoins name amt =>
    obtain ⟨⟨s₁, events⟩, hburn, rfl⟩ := map_eq_ok_iff.mp hok
    obtain ⟨acc, hacc, -⟩ := hguarded.burnCoins hburn
    simp only [CoinCall.flow, k.modules.getModuleAddress_eq hacc, neg_mul, ← sub_eq_add_neg]
    exact htracks.burnCoins hacc hburn [] denom

section Eighteen

variable (heighteen : k.coinInfo.decimals.value = 18)

include heighteen

/-- Without fractions every borrow and carry is zero, and only the bank's own condition is left. -/
theorem exists_exec_iff (hbank : Lawful k.bk k.modules) (hno : NoFractions ctx) {call : CoinCall}
    (hadmitted : call.Admitted k) :
    (∃ ctx', call.exec k ctx = .ok ctx') ↔ call.Allowed k (k.bk.spendableCoin ctx.store.sdk) := by
  cases call with
  | sendCoins sender recipient amt =>
    obtain ⟨hvalid, hne, hsender', hrecipient', hsender, hrecipient⟩ := hadmitted
    simp only [CoinCall.exec, sendCoins_eq_ok_iff, hvalid, true_and]
    refine exists_two_steps_iff heighteen hvalid (hbank.spendable_nonneg _ sender)
      (exists_passthrough_sendCoins_iff hbank hvalid) fun ctx₁ hfirst => ?_
    have hmove := (bankMove_passthrough_sendCoins hvalid hfirst).plainMove hno
    rw [exists_sendExtendedCoins_iff hbank (hmove.noFractions.coversCarries heighteen) hsender hrecipient hne
      hsender' hrecipient' (hvalid.amountOf_nonneg _), hmove.noFractions.mirrors.spendableCoin_eq heighteen hsender,
      extendedCoinDenom_eq heighteen, hmove.spendable_integer heighteen hbank hvalid]
  | mintCoins name amt =>
    obtain ⟨hvalid, hname⟩ := hadmitted
    simp only [CoinCall.exec, mintCoins_eq_ok_iff, hvalid, and_true, hname, ne_eq, not_false_eq_true,
      true_and]
    refine ⟨fun ⟨_, hregistered, _⟩ => hregistered, fun ⟨acc, hacc, hminter⟩ => ?_⟩
    obtain ⟨ctx', hok⟩ := exists_mintCoins hbank hname hacc hminter hvalid fun hmove =>
      (hno.of_bankMove hmove).coversCarries heighteen
    exact ⟨ctx', ⟨acc, hacc, hminter⟩, (mintCoins_eq_ok_iff.mp hok).2⟩
  | burnCoins name amt =>
    obtain ⟨hvalid, hname⟩ := hadmitted
    have hiff : ∀ {acc : ModuleAccount}, k.modules.getModuleAccount name = some acc →
        .burner ∈ acc.permissions → ((∃ ctx' ctx₁, (if k.passthroughCoins amt ≠ [] then
            callBank ctx fun s => k.bk.burnCoins s name (k.passthroughCoins amt)
          else .ok ctx) = .ok ctx₁ ∧
          (if 0 < amt.amountOf k.extendedCoinDenom then
            k.burnExtendedCoin ctx₁ name (amt.amountOf k.extendedCoinDenom)
          else .ok ctx₁) = .ok ctx') ↔
        ∀ denom, amt.amountOf denom ≤ k.bk.spendableCoin ctx.store.sdk acc.address denom) := by
      intro acc hacc hburner
      refine exists_two_steps_iff heighteen hvalid (hbank.spendable_nonneg _ acc.address)
        (exists_passthrough_burnCoins_iff hbank hacc hburner hvalid) fun ctx₁ hfirst => ?_
      have hmove := (bankMove_passthrough_burnCoins hacc hfirst).plainMove hno
      rw [exists_burnExtendedCoin_iff hbank (hmove.noFractions.coversCarries heighteen) hname hacc hburner
        (hvalid.amountOf_nonneg _),
        hmove.noFractions.mirrors.getBalance_eq heighteen (module_address_ne_reserve hname hacc),
        ← hbank.module_spendable hacc, extendedCoinDenom_eq heighteen,
        hmove.spendable_integer heighteen hbank hvalid]
    simp only [CoinCall.exec, burnCoins_eq_ok_iff, hvalid, and_true, hname, ne_eq, not_false_eq_true,
      true_and]
    constructor
    · rintro ⟨ctx', ⟨acc, hacc, hburner⟩, hsteps⟩
      exact ⟨acc, hacc, hburner, (hiff hacc hburner).mp ⟨ctx', hsteps⟩⟩
    · rintro ⟨acc, hacc, hburner, hcovers⟩
      obtain ⟨ctx', hsteps⟩ := (hiff hacc hburner).mpr hcovers
      exact ⟨ctx', ⟨acc, hacc, hburner⟩, hsteps⟩

theorem exec_plainMove (hbank : Lawful k.bk k.modules) (hno : NoFractions ctx) {call : CoinCall}
    (hadmitted : call.Admitted k) (hok : call.exec k ctx = .ok ctx') : PlainMove k ctx ctx' (call.flow k) := by
  cases call with
  | sendCoins sender recipient amt =>
    obtain ⟨hvalid, hne, hsender', hrecipient', hsender, hrecipient⟩ := hadmitted
    obtain ⟨-, ctx₁, hfirst, hsecond⟩ := sendCoins_eq_ok_iff.mp hok
    have hmove := (bankMove_passthrough_sendCoins hvalid hfirst).plainMove hno
    exact hmove.whole heighteen hvalid (fun weight => weight recipient - weight sender)
      (fun hsend => (fractionalSend_of_ok hbank.toMovesExactly (hmove.noFractions.coversCarries heighteen).fractional
        hsender hrecipient (hvalid.amountOf_nonneg _) hsend).plainMove heighteen hne hmove.noFractions) hsecond
  | mintCoins name amt =>
    obtain ⟨⟨hname, ⟨acc, hacc, -⟩, hvalid⟩, ctx₁, hfirst, hsecond⟩ := mintCoins_eq_ok_iff.mp hok
    have hmove := (bankMove_passthrough_mintCoins hacc hfirst).plainMove hno
    have hcovers := hmove.noFractions.coversCarries heighteen
    simp only [CoinCall.flow, k.modules.getModuleAddress_eq hacc]
    exact hmove.whole heighteen hvalid (fun weight => weight acc.address)
      (fun hmint => (fractionalChange_of_mint hbank.toMovesExactly hcovers.fractional hcovers.remainder hname hacc
        (hvalid.amountOf_nonneg _) hmint).plainMove heighteen hmove.noFractions) hsecond
  | burnCoins name amt =>
    obtain ⟨⟨hname, ⟨acc, hacc, -⟩, hvalid⟩, ctx₁, hfirst, hsecond⟩ := burnCoins_eq_ok_iff.mp hok
    have hmove := (bankMove_passthrough_burnCoins hacc hfirst).plainMove hno
    have hcovers := hmove.noFractions.coversCarries heighteen
    simp only [CoinCall.flow, k.modules.getModuleAddress_eq hacc]
    exact hmove.whole heighteen hvalid (fun weight => -weight acc.address)
      (fun hburn => ((fractionalChange_of_burn hbank.toMovesExactly hcovers.fractional hcovers.remainder hname hacc
        (hvalid.amountOf_nonneg _) hburn).plainMove heighteen hmove.noFractions).congr fun weight denom => by
          rw [mul_neg, neg_mul]) hsecond

end Eighteen

section Eighteen

variable (heighteen : k.coinInfo.decimals.value = 18)

include heighteen

theorem Mirrors.agree (hbank : Lawful k.bk k.modules) (hguarded : Guarded k.bk k.modules) {call : CoinCall}
    (hadmitted : call.Admitted k) {s : S} (hmirrors : Mirrors k ctx s) :
    Agree (Mirrors k) (call.exec k ctx) (call.execBank k.bk s) where
  ok_iff := by
    rw [exists_exec_iff heighteen hbank hmirrors.noFractions hadmitted,
      exists_execBank_iff hbank hguarded hadmitted,
      show k.bk.spendableCoin ctx.store.sdk = k.bk.spendableCoin s from
        funext fun a => funext (hmirrors.spendable a)]
  related {ctx' s'} hleft hright := by
    have hmove := exec_plainMove heighteen hbank hmirrors.noFractions hadmitted hleft
    refine ⟨hmove.noFractions, fun a denom => ?_, fun a denom => ?_, fun denom => ?_⟩
    · rw [hmove.measure_eq (hbank.tracks_balance a), hmirrors.balance,
        execBank_measure_eq hguarded hright (hbank.tracks_balance a)]
    · rw [hmove.measure_eq (hbank.tracks_spendable a), hmirrors.spendable,
        execBank_measure_eq hguarded hright (hbank.tracks_spendable a)]
    · rw [hmove.measure_eq hbank.tracks_supply, hmirrors.supply,
        execBank_measure_eq hguarded hright hbank.tracks_supply]

/-- On a chain of 18 decimals x/precisebank is `x/bank`: over every run of calls the same ones succeed, and
afterwards balances, spendable coins and supply are the same and there is no fraction and no remainder. -/
theorem refinesBank_of_eighteen (hbank : Lawful k.bk k.modules) (hguarded : Guarded k.bk k.modules)
    (hno : NoFractions ctx) {calls : List CoinCall} (hadmitted : ∀ call ∈ calls, call.Admitted k) :
    (attempts (CoinCall.exec k) ctx calls).2 =
      (attempts (CoinCall.execBank k.bk) ctx.store.sdk calls).2 ∧
    Mirrors k (attempts (CoinCall.exec k) ctx calls).1
      (attempts (CoinCall.execBank k.bk) ctx.store.sdk calls).1 ∧
    ∀ a, a ≠ k.reserve.address → ∀ denom,
      k.getBalance (attempts (CoinCall.exec k) ctx calls).1 a denom =
        k.bk.getBalance (attempts (CoinCall.execBank k.bk) ctx.store.sdk calls).1 a denom ∧
      k.spendableCoin (attempts (CoinCall.exec k) ctx calls).1 a denom =
        k.bk.spendableCoin (attempts (CoinCall.execBank k.bk) ctx.store.sdk calls).1 a denom := by
  have hagree : ∀ {ctx : Ctx S} {s : S} {call : CoinCall}, call.Admitted k →
      Mirrors k ctx s → Agree (Mirrors k) (call.exec k ctx) (call.execBank k.bk s) :=
    fun hcall hmirrors => hmirrors.agree heighteen hbank hguarded hcall
  obtain ⟨hmirrors, houtcomes⟩ := attempts_agree hagree hadmitted hno.mirrors
  exact ⟨houtcomes, hmirrors, fun a ha denom =>
    ⟨hmirrors.getBalance_eq heighteen ha denom, hmirrors.spendableCoin_eq heighteen ha denom⟩⟩

end Eighteen

theorem guarded_preciseBankKeeper (coinInfo : EvmCoinInfo) :
    Guarded (Evmd.preciseBankKeeper coinInfo).bk (Evmd.preciseBankKeeper coinInfo).modules where
  mintCoins {ledger name amt result} hok := by
    obtain ⟨acc, hacc, hminter, -⟩ := Ledger.mintCoins_eq_ok_iff.mp hok
    exact ⟨acc, hacc, hminter⟩
  burnCoins {ledger name amt result} hok := by
    obtain ⟨acc, hacc, hburner, -⟩ := Ledger.burnCoins_eq_ok_iff.mp hok
    exact ⟨acc, hacc, hburner⟩

/-- A transfer of two denominations, a mint, a burn by a module that may not burn and a transfer of too
much. -/
theorem refinesBank_eighteenDecimals :
    let alice : AccAddress := List.replicate 20 7
    let bob : AccAddress := List.replicate 20 8
    let k := Evmd.preciseBankKeeper Evmd.eighteenDecimalsCoin
    let ctx := Evmd.genesisContext [(alice, [⟨"aatom", 5⟩, ⟨"other", 1⟩])]
    let calls : List CoinCall := [.sendCoins alice bob [⟨"aatom", 2⟩, ⟨"other", 1⟩],
      .mintCoins "evm" [⟨"aatom", 3⟩], .burnCoins "distribution" [⟨"aatom", 1⟩],
      .sendCoins alice bob [⟨"aatom", 4⟩]]
    (attempts (CoinCall.exec k) ctx calls).2 = [true, true, false, false] ∧
      (attempts (CoinCall.execBank k.bk) ctx.store.sdk calls).2 = [true, true, false, false] ∧
      Mirrors k (attempts (CoinCall.exec k) ctx calls).1
        (attempts (CoinCall.execBank k.bk) ctx.store.sdk calls).1 := by
  intro alice bob k ctx calls
  have hadmitted : ∀ call ∈ calls, call.Admitted k := by
    simp only [calls, List.forall_mem_cons, List.not_mem_nil, false_implies, implies_true, and_true,
      CoinCall.Admitted]
    decide +kernel
  have hno : NoFractions ctx := ⟨rfl, rfl⟩
  obtain ⟨houtcomes, hmirrors, -⟩ := refinesBank_of_eighteen (k := k) rfl
    (Evmd.preciseBankKeeper_lawful _) (guarded_preciseBankKeeper _) hno hadmitted
  have hleft : (attempts (CoinCall.exec k) ctx calls).2 = [true, true, false, false] := by decide +kernel
  exact ⟨hleft, houtcomes ▸ hleft, hmirrors⟩

end PreciseBank.Keeper

end CosmosEvm
