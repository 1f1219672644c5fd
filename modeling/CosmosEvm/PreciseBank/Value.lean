import CosmosEvm.PreciseBank.Backing

namespace CosmosEvm.PreciseBank.Keeper

open SparseLedger Digit Result BankKeeper

variable {S : Type} {k : Keeper S} {ctx ctx' : Ctx S}

/-- The value of an account in extended units, with its integer coins read by `measure`. -/
def valueOf (k : Keeper S) (measure : S → Denom → ℤ) (ctx : Ctx S)
    (a : AccAddress) : ℤ :=
  measure ctx.store.sdk k.integerCoinDenom * k.conversionFactor + getFractionalBalance ctx a

section

variable {a : AccAddress} {measure : S → Denom → ℤ} {weight : AccAddress → ℤ}
  {flow : (AccAddress → ℤ) → Denom → ℤ} {sender recipient : AccAddress} {amt : ℤ}

theorem getBalance_extendedCoinDenom (ha : a ≠ k.reserve.address) :
    k.getBalance ctx a k.extendedCoinDenom =
      k.valueOf (fun s denom => k.bk.getBalance s a denom) ctx a := by
  simp [getBalance, valueOf, k.getModuleAddress_moduleName, ha]

theorem getBalance_reserve : k.getBalance ctx k.reserve.address k.extendedCoinDenom = 0 := by
  simp [getBalance, k.getModuleAddress_moduleName]

theorem spendableCoin_extendedCoinDenom (ha : a ≠ k.reserve.address) :
    k.spendableCoin ctx a k.extendedCoinDenom =
      k.valueOf (fun s denom => k.bk.spendableCoin s a denom) ctx a := by
  simp [spendableCoin, valueOf, k.getModuleAddress_moduleName, ha]

theorem spendableCoin_of_ne {denom : Denom} (hne : denom ≠ k.extendedCoinDenom) :
    k.spendableCoin ctx a denom = k.bk.spendableCoin ctx.store.sdk a denom := by
  simp [spendableCoin, hne]

theorem BankMove.valueOf_eq (htracks : Tracks k.bk k.modules (fun s _ denom => measure s denom) weight)
    (hmove : BankMove k ctx ctx' flow) :
    k.valueOf measure ctx' a =
      k.valueOf measure ctx a + flow weight k.integerCoinDenom * k.conversionFactor := by
  unfold valueOf
  rw [hmove.measure_eq htracks, hmove.getFractionalBalance_eq]
  ring

theorem FractionalSend.valueOf_eq (hsent : FractionalSend k ctx sender recipient amt ctx')
    (htracks : Tracks k.bk k.modules (fun s _ denom => measure s denom) (weightOf a)) (ha : a ≠ k.reserve.address) :
    k.valueOf measure ctx' a =
      k.valueOf measure ctx a + (weightOf a recipient - weightOf a sender) * amt := by
  cases hsent with
  | self heq =>
    rw [heq]
    ring
  | moved hne _ _ hmove _ _ _ hpaid hgained =>
    unfold valueOf
    rw [afterFractionalSend_sdk, getFractionalBalance_afterFractionalSend,
      hmove.measure_eq htracks, hmove.getFractionalBalance_eq]
    simp only [atInteger_self, weightOf_of_ne (Ne.symm ha)]
    by_cases hr : a = recipient
    · subst hr
      simp only [if_true, weightOf_self, weightOf_of_ne hne]
      linear_combination hgained
    by_cases hs : a = sender
    · subst hs
      simp only [if_neg hr, if_true, weightOf_self, weightOf_of_ne (Ne.symm hr)]
      linear_combination -hpaid
    · simp only [if_neg hr, if_neg hs, weightOf_of_ne (Ne.symm hr), weightOf_of_ne (Ne.symm hs)]
      ring

theorem FractionalSend.frame (hsent : FractionalSend k ctx sender recipient amt ctx') :
    getRemainderAmount ctx' = getRemainderAmount ctx ∧
    (∀ {measure : S → Denom → ℤ},
      Tracks k.bk k.modules (fun s _ denom => measure s denom) (fun _ => 1) →
        ∀ denom, measure ctx'.store.sdk denom = measure ctx.store.sdk denom) := by
  cases hsent with
  | self => exact ⟨rfl, fun _ _ => rfl⟩
  | moved _ _ _ hmove =>
    refine ⟨hmove.getRemainderAmount_eq, fun htracks denom => ?_⟩
    rw [afterFractionalSend_sdk, hmove.measure_eq htracks]
    unfold atInteger
    split <;> ring

theorem exists_callBank_sendCoins_iff (hbank : Lawful k.bk k.modules) {amt : Coins} (hvalid : amt.IsValid) :
    (∃ ctx', callBank ctx (fun s => k.bk.sendCoins s sender recipient amt) = .ok ctx') ↔
      ∀ denom, amt.amountOf denom ≤ k.bk.spendableCoin ctx.store.sdk sender denom := by
  have hiff : (∃ result, k.bk.sendCoins ctx.store.sdk sender recipient amt = .ok result) ↔ _ :=
    hbank.sendCoins_ok_iff hvalid
  rw [← hiff]
  simp only [callBank_eq_ok_iff]
  constructor
  · rintro ⟨_, sdk, events, hsend, -⟩
    exact ⟨(sdk, events), hsend⟩
  · rintro ⟨⟨sdk, events⟩, hsend⟩
    exact ⟨_, sdk, events, hsend, rfl⟩

theorem forall_amountOf_integerCoins_le_iff {spendable : Denom → ℤ}
    (hspendable : ∀ denom, 0 ≤ spendable denom) :
    (∀ denom, (k.integerCoins amt).amountOf denom ≤ spendable denom) ↔
      amt ≤ spendable k.integerCoinDenom := by
  constructor
  · intro hle
    simpa [amountOf_integerCoins] using hle k.integerCoinDenom
  · intro hle denom
    rw [amountOf_integerCoins]
    split
    · rename_i heq
      rw [← heq]
      exact hle
    · exact hspendable denom

theorem exists_sendCoins_integerCoins_iff (hbank : Lawful k.bk k.modules) (hamt : 0 ≤ amt) :
    (∃ ctx', callBank ctx (fun s => k.bk.sendCoins s sender recipient (k.integerCoins amt)) =
      .ok ctx') ↔ amt ≤ k.bk.spendableCoin ctx.store.sdk sender k.integerCoinDenom := by
  rw [exists_callBank_sendCoins_iff hbank (isValid_integerCoins hamt)]
  exact forall_amountOf_integerCoins_le_iff (hbank.spendable_nonneg ctx.store.sdk sender)

theorem exists_ite_sendCoins_integerCoins_iff (hbank : Lawful k.bk k.modules) (hamt : 0 ≤ amt)
    {rewrite : Err → Err} :
    (∃ ctx', (if 0 < amt then
        (callBank ctx fun s =>
          k.bk.sendCoins s sender recipient (k.integerCoins amt)).mapError rewrite
      else .ok ctx) = .ok ctx') ↔
      amt ≤ k.bk.spendableCoin ctx.store.sdk sender k.integerCoinDenom := by
  rcases hamt.eq_or_lt with rfl | hpos
  · simp [hbank.spendable_nonneg ctx.store.sdk sender k.integerCoinDenom]
  · simp only [hpos, if_true, mapError_eq_ok_iff]
    exact exists_sendCoins_integerCoins_iff hbank hamt

/-- The sender needs the borrowed coin on top; the carry is paid by the reserve. -/
theorem exists_sendIntegerCoins_iff (hbank : Lawful k.bk k.modules) {integerAmt f g e : ℤ}
    (hsender : sender ≠ k.reserve.address) (hrecipient : recipient ≠ k.reserve.address)
    (hne : sender ≠ recipient) (hnonneg : 0 ≤ integerAmt) (hreserve : ¬ f < e → k.conversionFactor ≤ g + e →
      1 ≤ k.bk.getBalance ctx.store.sdk k.reserve.address k.integerCoinDenom) :
    (∃ ctx', k.sendIntegerCoins ctx sender recipient amt integerAmt (decide (f < e))
      (decide (k.conversionFactor ≤ g + e)) = .ok ctx') ↔
      integerAmt + borrow f e ≤ k.bk.spendableCoin ctx.store.sdk sender k.integerCoinDenom := by
  have hmoved : ∀ {ctx₁ : Ctx S} {rewrite : Err → Err}, (if 0 < integerAmt then
        (callBank ctx fun s =>
          k.bk.sendCoins s sender recipient (k.integerCoins integerAmt)).mapError rewrite
      else .ok ctx) = .ok ctx₁ → ∀ a, k.bk.spendableCoin ctx₁.store.sdk a k.integerCoinDenom =
        k.bk.spendableCoin ctx.store.sdk a k.integerCoinDenom +
          (weightOf a recipient - weightOf a sender) * integerAmt := by
    intro ctx₁ rewrite hok a
    have hmove := BankMove.ite (fun h => bankMove_sendCoins (mapError_eq_ok_iff.mp h)) hok
    rw [hmove.measure_eq (hbank.tracks_spendable a), amountOf_integerCoins, if_pos rfl,
      ite_pos_mul_eq _ hnonneg]
  unfold sendIntegerCoins
  simp only [hbank.sendCoinsFromAccountToModule_eq k.getModuleAccount_moduleName,
    k.getModuleAddress_moduleName]
  simp only [exists_bind_eq_ok_iff]
  by_cases hb : f < e <;> by_cases hc : k.conversionFactor ≤ g + e <;>
    simp only [hb, hc, borrow, decide_true, decide_false, Bool.and_self, Bool.not_true,
      Bool.not_false, Bool.and_false, Bool.and_true, if_true, if_false, Bool.false_eq_true,
      Except.ok.injEq, exists_eq', exists_eq_left', and_true, mapError_eq_ok_iff, add_zero]
  · exact exists_ite_sendCoins_integerCoins_iff hbank (by omega)
  · have hborrow : ∀ {ctx₁ : Ctx S}, (if 0 < integerAmt then
          (callBank ctx fun s =>
            k.bk.sendCoins s sender recipient (k.integerCoins integerAmt)).mapError
              (k.updateInsufficientFundsError ctx sender amt)
        else .ok ctx) = .ok ctx₁ → ((∃ ctx₂, callBank ctx₁ (fun s =>
          k.bk.sendCoins s sender k.reserve.address (k.integerCoins 1)) = .ok ctx₂) ↔
        1 ≤ k.bk.spendableCoin ctx.store.sdk sender k.integerCoinDenom - integerAmt) := by
      intro ctx₁ hok
      rw [exists_sendCoins_integerCoins_iff hbank zero_le_one, hmoved hok, weightOf_self,
        weightOf_of_ne hne.symm, zero_sub, neg_one_mul, ← sub_eq_add_neg]
    constructor
    · rintro ⟨ctx₁, hdirect, hrest⟩
      have := (hborrow hdirect).mp hrest
      omega
    · intro hle
      have hwhole : integerAmt ≤
          k.bk.spendableCoin ctx.store.sdk sender k.integerCoinDenom := by omega
      obtain ⟨ctx₁, hdirect⟩ := (exists_ite_sendCoins_integerCoins_iff hbank hnonneg).mpr hwhole
      exact ⟨ctx₁, hdirect, (hborrow hdirect).mpr (by omega)⟩
  · constructor
    · rintro ⟨ctx₁, hdirect, _⟩
      exact (exists_ite_sendCoins_integerCoins_iff hbank hnonneg).mp ⟨ctx₁, hdirect⟩
    · intro hle
      obtain ⟨ctx₁, hdirect⟩ := (exists_ite_sendCoins_integerCoins_iff hbank hnonneg).mpr hle
      refine ⟨ctx₁, hdirect, (exists_sendCoins_integerCoins_iff hbank zero_le_one).mpr ?_⟩
      rw [hmoved hdirect, weightOf_of_ne hsender, weightOf_of_ne hrecipient, sub_self, zero_mul,
        add_zero, hbank.module_spendable k.getModuleAccount_moduleName]
      exact hreserve hb hc
  · exact exists_ite_sendCoins_integerCoins_iff hbank hnonneg

theorem Backed.coversCarries (hbacked : Backed k ctx) : CoversCarries k ctx := by
  have hone : k.conversionFactor ≤ getTotalSumFractionalBalances ctx + getRemainderAmount ctx →
      1 ≤ k.bk.getBalance ctx.store.sdk k.reserve.address k.integerCoinDenom := by
    intro hle
    refine le_of_mul_le_mul_right ?_ k.conversionFactor_pos
    rw [one_mul, hbacked.backing]
    exact hle
  have hnonneg : ∀ a, 0 ≤ getFractionalBalance ctx a := fun a => (hbacked.fractional a).1
  refine ⟨hbacked.fractional, hbacked.remainder, fun hne hle => hone ?_, fun {a} hle => hone ?_⟩
  · have htotal := valueAt_add_valueAt_le_total hnonneg hne
    exact (hle.trans htotal).trans (le_add_of_nonneg_right hbacked.remainder.1)
  · have htotal := valueAt_le_total hnonneg a
    exact hle.trans (add_le_add_left htotal _)

theorem exists_sendExtendedCoins_iff (hbank : Lawful k.bk k.modules) (hcovers : CoversCarries k ctx)
    (hsender : sender ≠ k.reserve.address) (hrecipient : recipient ≠ k.reserve.address)
    (hne : sender ≠ recipient) (hsender' : sender ≠ []) (hrecipient' : recipient ≠ []) (hamt : 0 ≤ amt) :
    (∃ ctx', k.sendExtendedCoins ctx sender recipient amt = .ok ctx') ↔
      amt ≤ k.spendableCoin ctx sender k.extendedCoinDenom := by
  have hf := hcovers.fractional sender
  have hg := hcovers.fractional recipient
  have he := k.isDigit_fraction amt
  have hinteger : (∃ ctx₁, k.sendIntegerCoins ctx sender recipient amt (amt / k.conversionFactor)
      (decide (getFractionalBalance ctx sender < amt % k.conversionFactor)) (decide
        (k.conversionFactor ≤ getFractionalBalance ctx recipient + amt % k.conversionFactor)) =
      .ok ctx₁) ↔ _ :=
    exists_sendIntegerCoins_iff hbank hsender hrecipient hne
      (Int.ediv_nonneg hamt k.conversionFactor_pos.le)
      fun hb hc => hcovers.balances hne (by linarith)
  rw [spendableCoin_extendedCoinDenom hsender, valueOf]
  nth_rewrite 2 [← k.ediv_mul_add_emod amt]
  rw [mul_add_le_mul_add_iff hf he, ← hinteger]
  simp only [sendExtendedCoins_eq_ok_iff hsender hrecipient hne hamt hf hg]
  constructor
  · rintro ⟨_, -, -, ctx₁, hok, -⟩
    exact ⟨ctx₁, hok⟩
  · rintro ⟨ctx₁, hok⟩
    exact ⟨_, hsender', hrecipient', ctx₁, hok, rfl⟩

theorem exists_passthrough_sendCoins_iff (hbank : Lawful k.bk k.modules) {amt : Coins} (hvalid : amt.IsValid) :
    (∃ ctx', (if (k.passthroughCoins amt).isAllPositive then
        callBank ctx fun s => k.bk.sendCoins s sender recipient (k.passthroughCoins amt)
      else .ok ctx) = .ok ctx') ↔
      ∀ denom, (k.passthroughCoins amt).amountOf denom ≤
        k.bk.spendableCoin ctx.store.sdk sender denom := by
  have hpass := isValid_passthroughCoins (k := k) hvalid
  by_cases hnil : k.passthroughCoins amt = []
  · simp [hnil, Coins.isAllPositive, hbank.spendable_nonneg]
  · simp only [hpass.isAllPositive_iff.mpr hnil, if_true]
    exact exists_callBank_sendCoins_iff hbank hpass

end

def movedValue (k : Keeper S) (amt : Coins) : ℤ :=
  (k.passthroughCoins amt).amountOf k.integerCoinDenom * k.conversionFactor +
    amt.amountOf k.extendedCoinDenom

section

variable {amt : Coins} {sender recipient : AccAddress}

theorem movedValue_of_ne (hvalid : amt.IsValid) (hdenom : k.integerCoinDenom ≠ k.extendedCoinDenom) :
    k.movedValue amt = k.sumExtendedCoin amt := by
  simp [movedValue, sumExtendedCoin, amountOf_passthroughCoins hvalid, hdenom]

theorem movedValue_of_eq (hvalid : amt.IsValid) (hdenom : k.integerCoinDenom = k.extendedCoinDenom) :
    k.movedValue amt = amt.amountOf k.extendedCoinDenom := by
  simp [movedValue, amountOf_passthroughCoins hvalid, hdenom]

theorem sendCoins_valueOf (hbank : MovesExactly k.bk k.modules) (hbacked : Backed k ctx)
    {measure : S → Denom → ℤ} {a : AccAddress}
    (htracks : Tracks k.bk k.modules (fun s _ denom => measure s denom) (weightOf a))
    (ha : a ≠ k.reserve.address) (hsender : sender ≠ k.reserve.address)
    (hrecipient : recipient ≠ k.reserve.address) (hok : k.sendCoins ctx sender recipient amt = .ok ctx') :
    k.valueOf measure ctx' a =
      k.valueOf measure ctx a + (weightOf a recipient - weightOf a sender) * k.movedValue amt := by
  obtain ⟨hvalid, ctx₁, hpass, hextended⟩ := sendCoins_eq_ok_iff.mp hok
  have hmove := bankMove_passthrough_sendCoins hvalid hpass
  have hmiddle : Backed k ctx₁ := hbacked.of_bankMove hbank hmove
    (by simp [weightOf_of_ne hsender, weightOf_of_ne hrecipient])
  have hfirst := hmove.valueOf_eq htracks (a := a)
  unfold movedValue
  rcases ite_eq_ok_iff.mp hextended with ⟨hpos, hsend⟩ | ⟨hpos, rfl⟩
  · have hsent := fractionalSend_of_ok hbank hmiddle.fractional hsender hrecipient hpos.le hsend
    rw [hsent.valueOf_eq htracks ha, hfirst]
    ring
  · have hzero : amt.amountOf k.extendedCoinDenom = 0 :=
      le_antisymm (not_lt.mp hpos) (hvalid.amountOf_nonneg _)
    rw [hfirst, hzero]
    ring

theorem sendCoins_frame (hbank : MovesExactly k.bk k.modules) (hbacked : Backed k ctx)
    (hsender : sender ≠ k.reserve.address) (hrecipient : recipient ≠ k.reserve.address)
    (hok : k.sendCoins ctx sender recipient amt = .ok ctx') :
    getRemainderAmount ctx' = getRemainderAmount ctx ∧
    (∀ {measure : S → Denom → ℤ},
      Tracks k.bk k.modules (fun s _ denom => measure s denom) (fun _ => 1) →
        ∀ denom, measure ctx'.store.sdk denom = measure ctx.store.sdk denom) := by
  obtain ⟨hvalid, ctx₁, hpass, hextended⟩ := sendCoins_eq_ok_iff.mp hok
  have hmove := bankMove_passthrough_sendCoins hvalid hpass
  have hmiddle : Backed k ctx₁ := hbacked.of_bankMove hbank hmove
    (by simp [weightOf_of_ne hsender, weightOf_of_ne hrecipient])
  have hfirst : getRemainderAmount ctx₁ = getRemainderAmount ctx ∧
      (∀ {measure : S → Denom → ℤ},
        Tracks k.bk k.modules (fun s _ denom => measure s denom) (fun _ => 1) →
          ∀ denom, measure ctx₁.store.sdk denom = measure ctx.store.sdk denom) := by
    refine ⟨hmove.getRemainderAmount_eq, fun htracks denom => ?_⟩
    rw [hmove.measure_eq htracks, sub_self, zero_mul, add_zero]
  rcases ite_eq_ok_iff.mp hextended with ⟨hpos, hsend⟩ | ⟨hpos, rfl⟩
  · have hsecond := (fractionalSend_of_ok hbank hmiddle.fractional hsender hrecipient hpos.le hsend).frame
    exact ⟨hsecond.1.trans hfirst.1, fun htracks denom =>
      (hsecond.2 htracks denom).trans (hfirst.2 htracks denom)⟩
  · exact hfirst

theorem passthrough_spendableCoin (hbank : Lawful k.bk k.modules) (hbacked : Backed k ctx)
    (hsender : sender ≠ k.reserve.address) (hrecipient : recipient ≠ k.reserve.address)
    (hne : sender ≠ recipient) (hvalid : amt.IsValid) (hpass : (if (k.passthroughCoins amt).isAllPositive then
        callBank ctx fun s => k.bk.sendCoins s sender recipient (k.passthroughCoins amt)
      else .ok ctx) = .ok ctx') :
    Backed k ctx' ∧ k.spendableCoin ctx' sender k.extendedCoinDenom =
      k.spendableCoin ctx sender k.extendedCoinDenom -
        (k.passthroughCoins amt).amountOf k.integerCoinDenom * k.conversionFactor := by
  have hmove := bankMove_passthrough_sendCoins hvalid hpass
  refine ⟨hbacked.of_bankMove hbank.toMovesExactly hmove
    (by simp [weightOf_of_ne hsender, weightOf_of_ne hrecipient]), ?_⟩
  rw [spendableCoin_extendedCoinDenom hsender, hmove.valueOf_eq (hbank.tracks_spendable sender),
    spendableCoin_extendedCoinDenom hsender, weightOf_self, weightOf_of_ne hne.symm]
  ring

theorem passthrough_le_of_movedValue_le (hbacked : Backed k ctx) (hsender : sender ≠ k.reserve.address)
    (hvalid : amt.IsValid) (hvalue : k.movedValue amt ≤ k.spendableCoin ctx sender k.extendedCoinDenom) :
    (k.passthroughCoins amt).amountOf k.integerCoinDenom ≤
      k.bk.spendableCoin ctx.store.sdk sender k.integerCoinDenom := by
  have hextended := hvalid.amountOf_nonneg k.extendedCoinDenom
  have hzero : IsDigit k.conversionFactor 0 := ⟨le_rfl, k.conversionFactor_pos⟩
  have hle : (k.passthroughCoins amt).amountOf k.integerCoinDenom * k.conversionFactor + 0 ≤
      k.bk.spendableCoin ctx.store.sdk sender k.integerCoinDenom * k.conversionFactor +
        getFractionalBalance ctx sender := by
    rw [spendableCoin_extendedCoinDenom hsender] at hvalue
    unfold movedValue valueOf at hvalue
    linarith
  have hunits := (mul_add_le_mul_add_iff (hbacked.fractional sender) hzero).mp hle
  rcases borrow_eq_zero_or_one (getFractionalBalance ctx sender) 0 with hb | hb <;> omega

/-- Both steps of a transfer fit exactly when their sum does, in extended units. -/
theorem exists_sendCoins_iff (hbank : Lawful k.bk k.modules) (hbacked : Backed k ctx)
    (hsender : sender ≠ k.reserve.address) (hrecipient : recipient ≠ k.reserve.address)
    (hne : sender ≠ recipient) (hsender' : sender ≠ []) (hrecipient' : recipient ≠ []) (hvalid : amt.IsValid) :
    (∃ ctx', k.sendCoins ctx sender recipient amt = .ok ctx') ↔
      k.movedValue amt ≤ k.spendableCoin ctx sender k.extendedCoinDenom ∧
      ∀ denom, denom ≠ k.extendedCoinDenom → denom ≠ k.integerCoinDenom →
        amt.amountOf denom ≤ k.spendableCoin ctx sender denom := by
  have hpassIff : (∃ ctx₁, (if (k.passthroughCoins amt).isAllPositive then
        callBank ctx fun s => k.bk.sendCoins s sender recipient (k.passthroughCoins amt)
      else .ok ctx) = .ok ctx₁) ↔ _ := exists_passthrough_sendCoins_iff hbank hvalid
  simp only [sendCoins_eq_ok_iff, hvalid, true_and]
  constructor
  · rintro ⟨ctx', ctx₁, hpass, hextended⟩
    have hcover := hpassIff.mp ⟨ctx₁, hpass⟩
    obtain ⟨hbacked₁, hleft⟩ :=
      passthrough_spendableCoin hbank hbacked hsender hrecipient hne hvalid hpass
    refine ⟨?_, fun denom hext _ => ?_⟩
    · rcases ite_eq_ok_iff.mp hextended with ⟨hpos, hsend⟩ | ⟨hpos, rfl⟩
      · have hle := (exists_sendExtendedCoins_iff hbank hbacked₁.coversCarries hsender hrecipient hne hsender'
          hrecipient' hpos.le).mp ⟨ctx', hsend⟩
        unfold movedValue
        linarith
      · have hscaled := mul_le_mul_of_nonneg_right (hcover k.integerCoinDenom)
          k.conversionFactor_pos.le
        rw [spendableCoin_extendedCoinDenom hsender]
        unfold movedValue valueOf
        linarith [(hbacked.fractional sender).1]
    · have hother := hcover denom
      rw [amountOf_passthroughCoins hvalid, if_neg hext] at hother
      rw [spendableCoin_of_ne hext]
      exact hother
  · rintro ⟨hvalue, hothers⟩
    have hint := passthrough_le_of_movedValue_le hbacked hsender hvalid hvalue
    obtain ⟨ctx₁, hpass⟩ := hpassIff.mpr fun denom => by
      by_cases hdenom : denom = k.integerCoinDenom
      · rw [hdenom]
        exact hint
      · rw [amountOf_passthroughCoins hvalid]
        split
        · exact hbank.spendable_nonneg ctx.store.sdk sender denom
        · rename_i hext
          rw [← spendableCoin_of_ne hext]
          exact hothers denom hext hdenom
    obtain ⟨hbacked₁, hleft⟩ :=
      passthrough_spendableCoin hbank hbacked hsender hrecipient hne hvalid hpass
    by_cases hpos : 0 < amt.amountOf k.extendedCoinDenom
    · obtain ⟨ctx', hsend⟩ := (exists_sendExtendedCoins_iff hbank hbacked₁.coversCarries hsender hrecipient hne
        hsender' hrecipient' hpos.le).mpr (by unfold movedValue at hvalue; linarith)
      exact ⟨ctx', ctx₁, hpass, by rw [if_pos hpos, hsend]⟩
    · exact ⟨ctx₁, ctx₁, hpass, by rw [if_neg hpos]⟩

end

/-- `SendCoins` is a transfer of the value that `SumExtendedCoin` gives. -/
def SendValueLaw (k : Keeper S) (ctx : Ctx S) (sender recipient : AccAddress)
    (amt : Coins) : Prop :=
  ((∃ ctx', k.sendCoins ctx sender recipient amt = .ok ctx') ↔
    k.sumExtendedCoin amt ≤ k.spendableCoin ctx sender k.extendedCoinDenom ∧
    ∀ denom, denom ≠ k.extendedCoinDenom → denom ≠ k.integerCoinDenom →
      amt.amountOf denom ≤ k.spendableCoin ctx sender denom) ∧
  ∀ ctx', k.sendCoins ctx sender recipient amt = .ok ctx' →
    k.getBalance ctx' sender k.extendedCoinDenom =
      k.getBalance ctx sender k.extendedCoinDenom - k.sumExtendedCoin amt ∧
    k.getBalance ctx' recipient k.extendedCoinDenom =
      k.getBalance ctx recipient k.extendedCoinDenom + k.sumExtendedCoin amt ∧
    (∀ a, a ≠ sender → a ≠ recipient →
      k.getBalance ctx' a k.extendedCoinDenom = k.getBalance ctx a k.extendedCoinDenom) ∧
    getRemainderAmount ctx' = getRemainderAmount ctx ∧
    k.bk.getSupply ctx'.store.sdk k.integerCoinDenom =
      k.bk.getSupply ctx.store.sdk k.integerCoinDenom

theorem sendCoins_getBalance (hbank : MovesExactly k.bk k.modules) (hbacked : Backed k ctx)
    {sender recipient : AccAddress} {amt : Coins} (hsender : sender ≠ k.reserve.address)
    (hrecipient : recipient ≠ k.reserve.address) (a : AccAddress)
    (hok : k.sendCoins ctx sender recipient amt = .ok ctx') :
    k.getBalance ctx' a k.extendedCoinDenom = k.getBalance ctx a k.extendedCoinDenom +
      (weightOf a recipient - weightOf a sender) * k.movedValue amt := by
  by_cases ha : a = k.reserve.address
  · rw [ha, getBalance_reserve, getBalance_reserve, weightOf_of_ne hsender,
      weightOf_of_ne hrecipient]
    ring
  · rw [getBalance_extendedCoinDenom ha, getBalance_extendedCoinDenom ha]
    exact sendCoins_valueOf hbank hbacked (hbank.tracks_balance a) ha hsender hrecipient hok

theorem sumExtendedCoin_of_eq (hdenom : k.integerCoinDenom = k.extendedCoinDenom) (amt : Coins) :
    k.sumExtendedCoin amt = amt.amountOf k.extendedCoinDenom * (k.conversionFactor + 1) := by
  rw [sumExtendedCoin, hdenom]
  ring

theorem sendValueLaw_of_sum_eq (hbank : Lawful k.bk k.modules) (hbacked : Backed k ctx)
    {sender recipient : AccAddress} {amt : Coins} (hsender : sender ≠ k.reserve.address)
    (hrecipient : recipient ≠ k.reserve.address) (hne : sender ≠ recipient)
    (hsender' : sender ≠ []) (hrecipient' : recipient ≠ []) (hvalid : amt.IsValid)
    (hsum : k.movedValue amt = k.sumExtendedCoin amt) :
    k.SendValueLaw ctx sender recipient amt := by
  have hiff := exists_sendCoins_iff hbank hbacked hsender hrecipient hne hsender' hrecipient' hvalid
  rw [hsum] at hiff
  refine ⟨hiff, fun ctx' hok => ?_⟩
  have hbalance := fun a =>
    sendCoins_getBalance hbank.toMovesExactly hbacked hsender hrecipient a hok
  obtain ⟨hremainder, hsupply⟩ :=
    sendCoins_frame hbank.toMovesExactly hbacked hsender hrecipient hok
  refine ⟨?_, ?_, fun a hs hr => ?_, hremainder, hsupply hbank.tracks_supply _⟩
  · rw [hbalance, hsum, weightOf_self, weightOf_of_ne hne.symm]
    ring
  · rw [hbalance, hsum, weightOf_self, weightOf_of_ne hne]
    ring
  · rw [hbalance, weightOf_of_ne (Ne.symm hs), weightOf_of_ne (Ne.symm hr)]
    ring

/-- The value law holds unless the integer coin is its own extended coin and the transfer moves some
of it: `SumExtendedCoin` then counts the coin twice, and the transfer moves it once. -/
theorem sendValueLaw_iff (hbank : Lawful k.bk k.modules) (hbacked : Backed k ctx)
    {sender recipient : AccAddress} {amt : Coins} (hsender : sender ≠ k.reserve.address)
    (hrecipient : recipient ≠ k.reserve.address) (hne : sender ≠ recipient)
    (hsender' : sender ≠ []) (hrecipient' : recipient ≠ []) (hvalid : amt.IsValid) :
    k.SendValueLaw ctx sender recipient amt ↔
      k.integerCoinDenom ≠ k.extendedCoinDenom ∨ amt.amountOf k.extendedCoinDenom = 0 ∨
      ∃ denom, k.spendableCoin ctx sender denom < amt.amountOf denom := by
  have hiff := exists_sendCoins_iff hbank hbacked hsender hrecipient hne hsender' hrecipient' hvalid
  by_cases hdenom : k.integerCoinDenom = k.extendedCoinDenom
  swap
  · have hlaw := sendValueLaw_of_sum_eq hbank hbacked hsender hrecipient hne hsender' hrecipient'
      hvalid (movedValue_of_ne hvalid hdenom)
    simp [hlaw, hdenom]
  have hmoved := movedValue_of_eq hvalid hdenom
  have hsum := sumExtendedCoin_of_eq hdenom amt
  by_cases hzero : amt.amountOf k.extendedCoinDenom = 0
  · have hlaw := sendValueLaw_of_sum_eq hbank hbacked hsender hrecipient hne hsender' hrecipient'
      hvalid (by rw [hmoved, hsum, hzero, zero_mul])
    simp [hlaw, hzero]
  have hpos : 0 < amt.amountOf k.extendedCoinDenom :=
    lt_of_le_of_ne (hvalid.amountOf_nonneg _) (Ne.symm hzero)
  have hcovered : (∀ denom, amt.amountOf denom ≤ k.spendableCoin ctx sender denom) ↔
      ∃ ctx', k.sendCoins ctx sender recipient amt = .ok ctx' := by
    rw [hiff, hmoved]
    refine ⟨fun hall => ⟨hall _, fun denom _ _ => hall denom⟩, fun ⟨hvalue, hothers⟩ denom => ?_⟩
    by_cases hext : denom = k.extendedCoinDenom
    · rw [hext]
      exact hvalue
    · exact hothers denom hext (hdenom ▸ hext)
  have hscaled : amt.amountOf k.extendedCoinDenom < k.sumExtendedCoin amt := by
    rw [hsum]
    linarith [mul_pos hpos k.conversionFactor_pos]
  simp only [hdenom, hzero, ne_eq, not_true_eq_false, false_or]
  constructor
  · rintro ⟨-, heffect⟩
    by_contra hnone
    push Not at hnone
    obtain ⟨ctx', hok⟩ := hcovered.mp hnone
    have hlaw := (heffect ctx' hok).1
    rw [sendCoins_getBalance hbank.toMovesExactly hbacked hsender hrecipient sender hok,
      weightOf_self, weightOf_of_ne hne.symm, hmoved] at hlaw
    linarith
  · rintro ⟨denom, hlt⟩
    have hfails : ¬ ∃ ctx', k.sendCoins ctx sender recipient amt = .ok ctx' := fun hok =>
      absurd (hcovered.mpr hok denom) (not_le.mpr hlt)
    refine ⟨iff_of_false hfails fun ⟨hvalue, hothers⟩ => hfails ?_, fun ctx' hok =>
      absurd ⟨ctx', hok⟩ hfails⟩
    rw [hiff, hmoved]
    exact ⟨hscaled.le.trans hvalue, hothers⟩

theorem sendValueLaw_sixDecimals :
    let alice : AccAddress := List.replicate 20 7
    let bob : AccAddress := List.replicate 20 8
    (Evmd.preciseBankKeeper Evmd.sixDecimalsCoin).SendValueLaw
      (Evmd.genesisContext [(alice, [⟨"utest", 5⟩])]) alice bob
      [⟨"atest", 1500000000000⟩, ⟨"utest", 1⟩] := by
  intro alice bob
  refine (sendValueLaw_iff (Evmd.preciseBankKeeper_lawful _)
    (backed_genesisContext _ _ (by decide +kernel)) ?_ ?_ ?_ ?_ ?_ ?_).mpr (Or.inl ?_) <;>
    decide +kernel

/-- On a chain of 18 decimals a transfer of 2 out of 5 takes 2, while `SumExtendedCoin` says 4. -/
theorem not_sendValueLaw_eighteenDecimals :
    let alice : AccAddress := List.replicate 20 7
    let bob : AccAddress := List.replicate 20 8
    let k := Evmd.preciseBankKeeper Evmd.eighteenDecimalsCoin
    let ctx := Evmd.genesisContext [(alice, [⟨"aatom", 5⟩])]
    let amt : Coins := [⟨"aatom", 2⟩]
    Backed k ctx ∧ amt.IsValid ∧ k.sumExtendedCoin amt = 4 ∧
      (∃ ctx', k.sendCoins ctx alice bob amt = .ok ctx' ∧
        k.getBalance ctx' alice k.extendedCoinDenom = 3) ∧
      ¬ k.SendValueLaw ctx alice bob amt := by
  intro alice bob k ctx amt
  have hsome : (k.sendCoins ctx alice bob amt).toOption.isSome = true := by decide +kernel
  have hbalance : (k.sendCoins ctx alice bob amt).toOption.map
      (fun ctx' => k.getBalance ctx' alice k.extendedCoinDenom) = some 3 := by decide +kernel
  obtain ⟨ctx', hok⟩ := exists_eq_ok_of_isSome hsome
  rw [hok] at hbalance
  have hthree : k.getBalance ctx' alice k.extendedCoinDenom = 3 := Option.some.inj hbalance
  refine ⟨backed_genesisContext _ _ (by decide +kernel), by decide, by decide +kernel,
    ⟨ctx', hok, hthree⟩, fun hlaw => ?_⟩
  have hfall := (hlaw.2 ctx' hok).1
  rw [hthree] at hfall
  exact absurd hfall (by decide +kernel)

end CosmosEvm.PreciseBank.Keeper
