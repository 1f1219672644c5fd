import CosmosEvm.PreciseBank.MintBurn
import CosmosEvm.Sdk.Auth
import CosmosEvm.Sdk.Measure
import Mathlib.Tactic.LinearCombination

namespace CosmosEvm.PreciseBank.Keeper

open SparseLedger Digit Result BankKeeper

variable {S : Type} {k : Keeper S} {ctx ctx' : Ctx S}

def withFractional (ctx : Ctx S) (fractional : Finmap fun _ : AccAddress => ℤ) :
    Ctx S :=
  { ctx with store := { ctx.store with fractionalBalances := fractional } }

def withRemainder (ctx : Ctx S) (amount : ℤ) : Ctx S :=
  { ctx with store := { ctx.store with
    remainderAmount := if amount = 0 then none else some amount } }

theorem callBank_eq_ok_iff {call : S → Except Err (S × List Event)} :
    callBank ctx call = .ok ctx' ↔ ∃ sdk events, call ctx.store.sdk = .ok (sdk, events) ∧
      ctx' = { store := { ctx.store with sdk }, events := ctx.events ++ events } := by
  unfold callBank
  rw [bind_eq_ok_iff]
  constructor
  · rintro ⟨⟨sdk, events⟩, hcall, hctx⟩
    exact ⟨sdk, events, hcall, (pure_eq_ok_iff.mp hctx).symm⟩
  · rintro ⟨sdk, events, hcall, rfl⟩
    exact ⟨(sdk, events), hcall, rfl⟩

theorem validateFractionalAmount_eq_ok_iff {amt : ℤ} :
    k.validateFractionalAmount amt = .ok () ↔ 0 < amt ∧ amt < k.conversionFactor := by
  unfold validateFractionalAmount
  split
  · rename_i hpos
    simp [hpos]
  · rename_i hpos
    split
    · rename_i hle
      simp [hle]
    · rename_i hle
      simp only [true_iff]
      omega

theorem validateFractionalAmount_iff_isDigit {amt : ℤ} (hne : amt ≠ 0) :
    k.validateFractionalAmount amt = .ok () ↔ IsDigit k.conversionFactor amt := by
  rw [validateFractionalAmount_eq_ok_iff]
  exact and_congr_left fun _ => ⟨le_of_lt, fun hnonneg => hnonneg.lt_of_ne hne.symm⟩

theorem setFractionalBalance_eq_ok_iff {address : AccAddress} {amount : ℤ} :
    k.setFractionalBalance ctx address amount = .ok ctx' ↔ address ≠ [] ∧
      IsDigit k.conversionFactor amount ∧
      ctx' = withFractional ctx (assign ctx.store.fractionalBalances address amount) := by
  have hdigit : IsDigit k.conversionFactor 0 := ⟨le_rfl, k.conversionFactor_pos⟩
  unfold setFractionalBalance assign
  by_cases haddress : address = []
  · simp [haddress]
  by_cases hzero : amount = 0
  · simp [haddress, hzero, hdigit, withFractional, eq_comm]
  · simp only [haddress, if_false, hzero, ne_eq, not_false_eq_true, true_and,
      ← validateFractionalAmount_iff_isDigit hzero]
    cases k.validateFractionalAmount amount with
    | error text => simp
    | ok value => simp [withFractional, eq_comm]

theorem setRemainderAmount_eq_ok_iff {amount : ℤ} :
    k.setRemainderAmount ctx amount = .ok ctx' ↔
      IsDigit k.conversionFactor amount ∧ ctx' = withRemainder ctx amount := by
  have hdigit : IsDigit k.conversionFactor 0 := ⟨le_rfl, k.conversionFactor_pos⟩
  unfold setRemainderAmount
  by_cases hzero : amount = 0
  · simp [hzero, hdigit, withRemainder, eq_comm]
  · simp only [hzero, if_false, ← validateFractionalAmount_iff_isDigit hzero]
    cases k.validateFractionalAmount amount with
    | error text => simp
    | ok value => simp [hzero, withRemainder, eq_comm]

@[simp]
theorem getRemainderAmount_withRemainder (amount : ℤ) :
    getRemainderAmount (withRemainder ctx amount) = amount := by
  unfold getRemainderAmount withRemainder
  by_cases hzero : amount = 0 <;> simp [hzero]

theorem subFromFractionalBalance_eq {current amount : ℤ}
    (hcurrent : IsDigit k.conversionFactor current) (hamount : IsDigit k.conversionFactor amount) :
    k.subFromFractionalBalance current amount =
      .ok (current - amount + borrow current amount * k.conversionFactor,
        decide (current < amount)) := by
  unfold subFromFractionalBalance borrow
  rw [if_neg (not_le.mpr hcurrent.2), if_neg (not_le.mpr hamount.2)]
  by_cases hlt : current < amount
  · simp [hlt]
  · simp [hlt]

theorem addToFractionalBalance_eq {current amount : ℤ}
    (hcurrent : IsDigit k.conversionFactor current) (hamount : IsDigit k.conversionFactor amount) :
    k.addToFractionalBalance current amount =
      .ok (current + amount - carry k.conversionFactor current amount * k.conversionFactor,
        decide (k.conversionFactor ≤ current + amount)) := by
  unfold addToFractionalBalance carry
  rw [if_neg (not_le.mpr hcurrent.2), if_neg (not_le.mpr hamount.2)]
  by_cases hle : k.conversionFactor ≤ current + amount
  · simp [hle]
  · simp [hle]

theorem amountOf_integerCoins (amt : ℤ) (denom : Denom) :
    (k.integerCoins amt).amountOf denom = if k.integerCoinDenom = denom then amt else 0 :=
  Coins.amountOf_newCoins _ _

theorem isValid_integerCoins {amt : ℤ} (hamt : 0 ≤ amt) : (k.integerCoins amt).IsValid :=
  Coins.isValid_newCoins k.coinInfo.validateDenom_denom hamt

structure BankMove (k : Keeper S) (ctx ctx' : Ctx S)
    (flow : (AccAddress → ℤ) → Denom → ℤ) : Prop where
  store_eq : ctx'.store = { ctx.store with sdk := ctx'.store.sdk }
  measure_eq : ∀ {measure : S → List Event → Denom → ℤ} {weight : AccAddress → ℤ},
    Tracks k.bk k.modules measure weight → ∀ denom,
      measure ctx'.store.sdk ctx'.events denom =
        measure ctx.store.sdk ctx.events denom + flow weight denom

def atInteger (k : Keeper S) (amount : ℤ) (denom : Denom) : ℤ :=
  if k.integerCoinDenom = denom then amount else 0

section

variable {flow flow' : (AccAddress → ℤ) → Denom → ℤ} {sender recipient : AccAddress} {amt : Coins}
  {name : ModuleName} {acc : ModuleAccount}

@[simp]
theorem atInteger_self (amount : ℤ) : k.atInteger amount k.integerCoinDenom = amount := by
  simp [atInteger]

theorem BankMove.refl (ctx : Ctx S) : BankMove k ctx ctx fun _ _ => 0 where
  store_eq := rfl
  measure_eq _ _ := by simp

theorem BankMove.trans {ctx'' : Ctx S} (hfirst : BankMove k ctx ctx' flow)
    (hsecond : BankMove k ctx' ctx'' flow') :
    BankMove k ctx ctx'' fun weight denom => flow weight denom + flow' weight denom where
  store_eq := by rw [hsecond.store_eq, hfirst.store_eq]
  measure_eq htracks denom := by
    rw [hsecond.measure_eq htracks, hfirst.measure_eq htracks, add_assoc]

theorem BankMove.congr (hmove : BankMove k ctx ctx' flow)
    (hflow : ∀ weight denom, flow weight denom = flow' weight denom) : BankMove k ctx ctx' flow' where
  store_eq := hmove.store_eq
  measure_eq htracks denom := by rw [hmove.measure_eq htracks, hflow]

theorem BankMove.ite {condition : Prop} [Decidable condition] {call : Except Err (Ctx S)}
    (hcall : call = .ok ctx' → BankMove k ctx ctx' flow)
    (hok : (if condition then call else .ok ctx) = .ok ctx') :
    BankMove k ctx ctx' fun weight denom => if condition then flow weight denom else 0 := by
  rcases ite_eq_ok_iff.mp hok with ⟨hcondition, hcall'⟩ | ⟨hcondition, rfl⟩
  · exact (hcall hcall').congr fun _ _ => by rw [if_pos hcondition]
  · exact (BankMove.refl ctx).congr fun _ _ => by rw [if_neg hcondition]

theorem bankMove_sendCoins (hok : callBank ctx (fun s => k.bk.sendCoins s sender recipient amt) = .ok ctx') :
    BankMove k ctx ctx' fun weight denom =>
      (weight recipient - weight sender) * amt.amountOf denom := by
  obtain ⟨sdk, events, hsend, rfl⟩ := callBank_eq_ok_iff.mp hok
  exact ⟨rfl, fun htracks denom => htracks.sendCoins hsend ctx.events denom⟩

theorem bankMove_mintCoins (hacc : k.modules.getModuleAccount name = some acc)
    (hok : callBank ctx (fun s => k.bk.mintCoins s name amt) = .ok ctx') :
    BankMove k ctx ctx' fun weight denom => weight acc.address * amt.amountOf denom := by
  obtain ⟨sdk, events, hmint, rfl⟩ := callBank_eq_ok_iff.mp hok
  exact ⟨rfl, fun htracks denom => htracks.mintCoins hacc hmint ctx.events denom⟩

theorem bankMove_burnCoins (hacc : k.modules.getModuleAccount name = some acc)
    (hok : callBank ctx (fun s => k.bk.burnCoins s name amt) = .ok ctx') :
    BankMove k ctx ctx' fun weight denom => -(weight acc.address * amt.amountOf denom) := by
  obtain ⟨sdk, events, hburn, rfl⟩ := callBank_eq_ok_iff.mp hok
  refine ⟨rfl, fun htracks denom => ?_⟩
  rw [htracks.burnCoins hacc hburn ctx.events denom, sub_eq_add_neg]

theorem ite_mapError_eq_ok_iff {condition : Prop} [Decidable condition] {rewrite : Err → Err}
    {call : Except Err (Ctx S)} : (if condition then call.mapError rewrite else .ok ctx) = .ok ctx' ↔
      (if condition then call else .ok ctx) = .ok ctx' := by
  split
  · exact mapError_eq_ok_iff
  · rfl

theorem ite_pos_mul_eq (factor : ℤ) {amount : ℤ} (hamount : 0 ≤ amount) :
    (if 0 < amount then factor * amount else 0) = factor * amount := by
  rcases hamount.eq_or_lt with rfl | hpos
  · simp
  · rw [if_pos hpos]

section Reaches

variable {touched : AccAddress → Prop}

theorem reaches_ite {condition : Prop} [Decidable condition]
    {call : Except Err (Ctx S)}
    (hcall : call = .ok ctx' → k.bk.Reaches k.modules touched ctx.store.sdk ctx'.store.sdk)
    (hok : (if condition then call else .ok ctx) = .ok ctx') :
    k.bk.Reaches k.modules touched ctx.store.sdk ctx'.store.sdk := by
  rcases ite_eq_ok_iff.mp hok with ⟨_, hcall'⟩ | ⟨_, rfl⟩
  · exact hcall hcall'
  · exact .refl

theorem reaches_sendCoins {sender recipient : AccAddress} {amt : Coins} (hsender : touched sender)
    (hrecipient : touched recipient)
    (hok : callBank ctx (fun s => k.bk.sendCoins s sender recipient amt) = .ok ctx') :
    k.bk.Reaches k.modules touched ctx.store.sdk ctx'.store.sdk := by
  obtain ⟨sdk, events, hsend, rfl⟩ := callBank_eq_ok_iff.mp hok
  exact .sendCoins .refl hsender hrecipient hsend

theorem reaches_mintCoins {name : ModuleName} {acc : ModuleAccount} {amt : Coins}
    (hacc : k.modules.getModuleAccount name = some acc) (htouched : touched acc.address)
    (hok : callBank ctx (fun s => k.bk.mintCoins s name amt) = .ok ctx') :
    k.bk.Reaches k.modules touched ctx.store.sdk ctx'.store.sdk := by
  obtain ⟨sdk, events, hmint, rfl⟩ := callBank_eq_ok_iff.mp hok
  exact .mintCoins .refl hacc htouched hmint

theorem reaches_burnCoins {name : ModuleName} {acc : ModuleAccount} {amt : Coins}
    (hacc : k.modules.getModuleAccount name = some acc) (htouched : touched acc.address)
    (hok : callBank ctx (fun s => k.bk.burnCoins s name amt) = .ok ctx') :
    k.bk.Reaches k.modules touched ctx.store.sdk ctx'.store.sdk := by
  obtain ⟨sdk, events, hburn, rfl⟩ := callBank_eq_ok_iff.mp hok
  exact .burnCoins .refl hacc htouched hburn

end Reaches

theorem sendIntegerCoins_moves (hbank : MovesExactly k.bk k.modules) {amt integerAmt f g e : ℤ}
    (hnonneg : 0 ≤ integerAmt) (hok : k.sendIntegerCoins ctx sender recipient amt integerAmt (decide (f < e))
      (decide (k.conversionFactor ≤ g + e)) = .ok ctx') :
    (BankMove k ctx ctx' fun weight => k.atInteger
      (weight recipient * (integerAmt + carry k.conversionFactor g e) -
        weight sender * (integerAmt + borrow f e) +
        weight k.reserve.address * (integerAmt + borrow f e - (integerAmt + carry k.conversionFactor g e)))) ∧
    ∀ {touched : AccAddress → Prop}, touched k.reserve.address → touched sender → touched recipient →
      k.bk.Reaches k.modules touched ctx.store.sdk ctx'.store.sdk := by
  unfold sendIntegerCoins at hok
  obtain ⟨ctx₁, hfirst, hok⟩ := bind_eq_ok_iff.mp hok
  obtain ⟨ctx₂, hsecond, hthird⟩ := bind_eq_ok_iff.mp hok
  simp only [hbank.sendCoinsFromAccountToModule_eq k.getModuleAccount_moduleName, k.getModuleAddress_moduleName,
    ite_mapError_eq_ok_iff] at hfirst hsecond hthird
  refine ⟨(((BankMove.ite bankMove_sendCoins hfirst).trans (.ite bankMove_sendCoins hsecond)).trans
    (.ite bankMove_sendCoins hthird)).congr fun weight denom => ?_, fun hreserve hsender hrecipient =>
    ((reaches_ite (reaches_sendCoins hsender hrecipient) hfirst).trans
      (reaches_ite (reaches_sendCoins hsender hreserve) hsecond)).trans
      (reaches_ite (reaches_sendCoins hreserve hrecipient) hthird)⟩
  simp only [amountOf_integerCoins, atInteger]
  by_cases hdenom : k.integerCoinDenom = denom
  · simp only [hdenom, if_true]
    rw [ite_pos_mul_eq _ (by split <;> omega)]
    unfold borrow carry
    by_cases hb : f < e <;> by_cases hc : k.conversionFactor ≤ g + e <;> simp [hb, hc] <;> ring
  · simp [hdenom]

end

/-- What `sendExtendedCoins` leaves behind between two accounts other than the reserve, once the bank
has moved the integer coins. -/
def afterFractionalSend (k : Keeper S) (ctx : Ctx S)
    (sender recipient : AccAddress) (f f' g g' : ℤ) : Ctx S :=
  k.emitEventFractionalBalanceChange (k.emitEventFractionalBalanceChange
    (withFractional ctx (assign (assign ctx.store.fractionalBalances sender f') recipient g'))
    sender f f') recipient g g'

@[simp]
theorem emitEventFractionalBalanceChange_store (address : AccAddress) (before after : ℤ) :
    (k.emitEventFractionalBalanceChange ctx address before after).store = ctx.store := rfl

@[simp]
theorem afterFractionalSend_sdk (sender recipient : AccAddress) (f f' g g' : ℤ) :
    (k.afterFractionalSend ctx sender recipient f f' g g').store.sdk = ctx.store.sdk := rfl

@[simp]
theorem getRemainderAmount_afterFractionalSend (sender recipient : AccAddress) (f f' g g' : ℤ) :
    getRemainderAmount (k.afterFractionalSend ctx sender recipient f f' g g') =
      getRemainderAmount ctx := rfl

theorem getFractionalBalance_afterFractionalSend (sender recipient address : AccAddress)
    (f f' g g' : ℤ) :
    getFractionalBalance (k.afterFractionalSend ctx sender recipient f f' g g') address =
      if address = recipient then g' else if address = sender then f'
      else getFractionalBalance ctx address := by
  simp [afterFractionalSend, getFractionalBalance, withFractional, valueAt_assign]

theorem getTotalSumFractionalBalances_afterFractionalSend {sender recipient : AccAddress}
    (hne : sender ≠ recipient) (f f' g g' : ℤ) :
    getTotalSumFractionalBalances (k.afterFractionalSend ctx sender recipient f f' g g') =
      getTotalSumFractionalBalances ctx + f' - getFractionalBalance ctx sender + g' -
        getFractionalBalance ctx recipient := by
  simp [afterFractionalSend, getTotalSumFractionalBalances, getFractionalBalance, withFractional,
    total_assign, valueAt_assign_of_ne _ _ hne.symm]

theorem sendExtendedCoins_eq_ok_iff {sender recipient : AccAddress} {amt : ℤ}
    (hsender : sender ≠ k.reserve.address) (hrecipient : recipient ≠ k.reserve.address)
    (hne : sender ≠ recipient) (hamt : 0 ≤ amt)
    (hf : IsDigit k.conversionFactor (getFractionalBalance ctx sender))
    (hg : IsDigit k.conversionFactor (getFractionalBalance ctx recipient)) :
    let f := getFractionalBalance ctx sender
    let g := getFractionalBalance ctx recipient
    let e := amt % k.conversionFactor
    k.sendExtendedCoins ctx sender recipient amt = .ok ctx' ↔
      sender ≠ [] ∧ recipient ≠ [] ∧
      ∃ ctx₁, k.sendIntegerCoins ctx sender recipient amt (amt / k.conversionFactor)
          (decide (f < e)) (decide (k.conversionFactor ≤ g + e)) = .ok ctx₁ ∧
        ctx' = k.afterFractionalSend ctx₁ sender recipient
          f (f - e + borrow f e * k.conversionFactor)
          g (g + e - carry k.conversionFactor g e * k.conversionFactor) := by
  intro f g e
  have he : IsDigit k.conversionFactor e := k.isDigit_fraction amt
  have hf' := isDigit_sub_add_borrow hf he
  have hg' := isDigit_add_sub_carry hg he
  unfold sendExtendedCoins
  simp only [k.getModuleAddress_moduleName, hsender, hrecipient, hne, or_self, if_false,
    Int.tdiv_eq_ediv_of_nonneg hamt]
  rw [subFromFractionalBalance_eq hf he, addToFractionalBalance_eq hg he]
  simp only [bind_eq_ok_iff, Except.ok.injEq, exists_eq_left', pure_eq_ok_iff,
    setFractionalBalance_eq_ok_iff]
  constructor
  · rintro ⟨ctx₁, hinteger, ctx₂, ⟨hsender', _, rfl⟩, ctx₃, ⟨hrecipient', _, rfl⟩, rfl⟩
    exact ⟨hsender', hrecipient', ctx₁, hinteger, rfl⟩
  · rintro ⟨hsender', hrecipient', ctx₁, hinteger, rfl⟩
    exact ⟨ctx₁, hinteger, _, ⟨hsender', hf', rfl⟩, _, ⟨hrecipient', hg', rfl⟩, rfl⟩

theorem sendExtendedCoins_self {account : AccAddress} (haccount : account ≠ k.reserve.address)
    (amt : ℤ) : k.sendExtendedCoins ctx account account amt = .ok ctx := by
  simp [sendExtendedCoins, k.getModuleAddress_moduleName, haccount]

/-- A send of `amt` extended units between accounts other than the reserve: whole units go through the bank, and the
two digits take the rest. -/
inductive FractionalSend (k : Keeper S) (ctx : Ctx S) (sender recipient : AccAddress) (amt : ℤ) : Ctx S → Prop where
  | self (heq : sender = recipient) : FractionalSend k ctx sender recipient amt ctx
  | moved {ctx₁ : Ctx S} {f' g' paid gained : ℤ} (hne : sender ≠ recipient) (hsender : sender ≠ [])
      (hrecipient : recipient ≠ [])
      (hmove : BankMove k ctx ctx₁ fun weight => k.atInteger (weight recipient * gained - weight sender * paid +
        weight k.reserve.address * (paid - gained)))
      (hreaches : ∀ {touched : AccAddress → Prop}, touched k.reserve.address → touched sender →
        touched recipient → k.bk.Reaches k.modules touched ctx.store.sdk ctx₁.store.sdk)
      (hf' : IsDigit k.conversionFactor f') (hg' : IsDigit k.conversionFactor g')
      (hpaid : paid * k.conversionFactor + getFractionalBalance ctx sender - f' = amt)
      (hgained : gained * k.conversionFactor + g' - getFractionalBalance ctx recipient = amt) :
      FractionalSend k ctx sender recipient amt (k.afterFractionalSend ctx₁ sender recipient
        (getFractionalBalance ctx sender) f' (getFractionalBalance ctx recipient) g')

/-- Balances and remainder are digits, and where two of them make a whole coin the reserve has one. -/
structure CoversCarries (k : Keeper S) (ctx : Ctx S) : Prop where
  fractional : ∀ a, IsDigit k.conversionFactor (getFractionalBalance ctx a)
  remainder : IsDigit k.conversionFactor (getRemainderAmount ctx)
  balances : ∀ {left right : AccAddress}, left ≠ right →
    k.conversionFactor ≤ getFractionalBalance ctx left + getFractionalBalance ctx right →
      1 ≤ k.bk.getBalance ctx.store.sdk k.reserve.address k.integerCoinDenom
  balance_remainder : ∀ {a : AccAddress}, k.conversionFactor ≤ getFractionalBalance ctx a + getRemainderAmount ctx →
    1 ≤ k.bk.getBalance ctx.store.sdk k.reserve.address k.integerCoinDenom

theorem fractionalSend_of_ok {sender recipient : AccAddress} {amt : ℤ} (hbank : MovesExactly k.bk k.modules)
    (hdigits : ∀ a, IsDigit k.conversionFactor (getFractionalBalance ctx a))
    (hsender : sender ≠ k.reserve.address) (hrecipient : recipient ≠ k.reserve.address) (hamt : 0 ≤ amt)
    (hok : k.sendExtendedCoins ctx sender recipient amt = .ok ctx') :
    FractionalSend k ctx sender recipient amt ctx' := by
  by_cases hne : sender = recipient
  · subst hne
    rw [sendExtendedCoins_self hsender, Except.ok.injEq] at hok
    exact hok ▸ .self rfl
  obtain ⟨hsender', hrecipient', ctx₁, hinteger, rfl⟩ := (sendExtendedCoins_eq_ok_iff hsender hrecipient hne hamt
    (hdigits sender) (hdigits recipient)).mp hok
  obtain ⟨hmove, hreaches⟩ := sendIntegerCoins_moves hbank (Int.ediv_nonneg hamt k.conversionFactor_pos.le) hinteger
  have he := k.isDigit_fraction amt
  have hsplit := k.ediv_mul_add_emod amt
  refine .moved hne hsender' hrecipient' hmove hreaches (isDigit_sub_add_borrow (hdigits sender) he)
    (isDigit_add_sub_carry (hdigits recipient) he) ?_ ?_
  · linear_combination hsplit
  · linear_combination hsplit

theorem passthroughCoins_eq_filter {amt : Coins} (hvalid : amt.IsValid) :
    k.passthroughCoins amt = amt.filter fun coin => coin.denom ≠ k.extendedCoinDenom := by
  unfold passthroughCoins
  by_cases hpos : 0 < amt.amountOf k.extendedCoinDenom
  · simp only [hpos, if_true]
    exact hvalid.sub_eq_filter k.extendedCoinDenom
  · simp only [hpos, if_false]
    symm
    rw [List.filter_eq_self]
    intro coin hcoin
    have hamount := hvalid.amountOf_of_mem hcoin
    have hcoinpos := (hvalid.1 coin hcoin).2
    rw [decide_eq_true_eq]
    intro heq
    rw [heq] at hamount
    omega

theorem isValid_passthroughCoins {amt : Coins} (hvalid : amt.IsValid) :
    (k.passthroughCoins amt).IsValid := by
  rw [passthroughCoins_eq_filter hvalid]
  exact hvalid.filter _

theorem amountOf_passthroughCoins {amt : Coins} (hvalid : amt.IsValid) (denom : Denom) :
    (k.passthroughCoins amt).amountOf denom =
      if denom = k.extendedCoinDenom then 0 else amt.amountOf denom := by
  rw [passthroughCoins_eq_filter hvalid, Coins.amountOf_filter_ne]

theorem BankMove.passthrough {condition : Prop} [Decidable condition] {amt : Coins}
    {call : Except Err (Ctx S)} (factor : (AccAddress → ℤ) → ℤ)
    (hcondition : condition ↔ amt ≠ [])
    (hcall : call = .ok ctx' →
      BankMove k ctx ctx' fun weight denom => factor weight * amt.amountOf denom)
    (hok : (if condition then call else .ok ctx) = .ok ctx') :
    BankMove k ctx ctx' fun weight denom => factor weight * amt.amountOf denom := by
  refine (BankMove.ite hcall hok).congr fun weight denom => ?_
  by_cases hc : condition
  · rw [if_pos hc]
  · have hnil : amt = [] := by simpa using mt hcondition.mpr hc
    simp [hc, hnil]

theorem sendCoins_eq_ok_iff {sender recipient : AccAddress} {amt : Coins} :
    k.sendCoins ctx sender recipient amt = .ok ctx' ↔ amt.IsValid ∧ ∃ ctx₁,
      (if (k.passthroughCoins amt).isAllPositive then
        callBank ctx fun s => k.bk.sendCoins s sender recipient (k.passthroughCoins amt)
      else .ok ctx) = .ok ctx₁ ∧
      (if 0 < amt.amountOf k.extendedCoinDenom then
        k.sendExtendedCoins ctx₁ sender recipient (amt.amountOf k.extendedCoinDenom)
      else .ok ctx₁) = .ok ctx' := by
  unfold sendCoins
  by_cases hvalid : amt.IsValid
  · simp only [hvalid, not_true_eq_false, if_false, true_and]
    exact bind_eq_ok_iff
  · simp [hvalid]

theorem bankMove_passthrough_sendCoins {sender recipient : AccAddress} {amt : Coins}
    (hvalid : amt.IsValid)
    (hok : (if (k.passthroughCoins amt).isAllPositive then
        callBank ctx fun s => k.bk.sendCoins s sender recipient (k.passthroughCoins amt)
      else .ok ctx) = .ok ctx') :
    BankMove k ctx ctx' fun weight denom =>
      (weight recipient - weight sender) * (k.passthroughCoins amt).amountOf denom :=
  BankMove.passthrough (fun weight => weight recipient - weight sender)
    (isValid_passthroughCoins hvalid).isAllPositive_iff bankMove_sendCoins hok

end CosmosEvm.PreciseBank.Keeper
