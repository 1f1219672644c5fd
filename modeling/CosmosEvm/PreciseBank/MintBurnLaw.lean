import CosmosEvm.PreciseBank.Flow

namespace CosmosEvm.PreciseBank.Keeper

open SparseLedger Digit Result BankKeeper

variable {S : Type} {k : Keeper S} {ctx ctx' : Ctx S}

structure ValueChange (k : Keeper S) (ctx ctx' : Ctx S) (address : AccAddress)
    (delta : ℤ) : Prop where
  balance : k.getBalance ctx' address k.extendedCoinDenom =
    k.getBalance ctx address k.extendedCoinDenom + delta
  others : ∀ a, a ≠ address →
    k.getBalance ctx' a k.extendedCoinDenom = k.getBalance ctx a k.extendedCoinDenom
  circulating : k.circulatingValue ctx' = k.circulatingValue ctx + delta

theorem ValueChange.refl (ctx : Ctx S) (address : AccAddress) :
    ValueChange k ctx ctx address 0 where
  balance := by ring
  others _ _ := rfl
  circulating := by ring

theorem ValueFlow.valueChange (hbank : Lawful k.bk k.modules) {address : AccAddress} {delta : ℤ}
    (haddress : address ≠ k.reserve.address)
    (hflow : ValueFlow k ctx ctx' [address] (fun a => weightOf a address * delta) delta) :
    ValueChange k ctx ctx' address delta := by
  have hreserve : weightOf k.reserve.address address * delta = 0 := by
    rw [weightOf_of_ne haddress, zero_mul]
  have hbalance := hflow.getBalance_eq hbank.toMovesExactly hreserve
  refine ⟨?_, fun a ha => ?_, hflow.circulating⟩
  · rw [hbalance, weightOf_self, one_mul]
  · rw [hbalance, weightOf_of_ne (Ne.symm ha), zero_mul, add_zero]

section

variable {name : ModuleName} {acc : ModuleAccount} {amt : Coins} (hbank : Lawful k.bk k.modules)
  (hacc : k.modules.getModuleAccount name = some acc)

include hbank hacc

theorem exists_callBank_mintCoins (hminter : .minter ∈ acc.permissions) (hvalid : amt.IsValid) :
    ∃ ctx', callBank ctx (fun s => k.bk.mintCoins s name amt) = .ok ctx' := by
  obtain ⟨⟨sdk, events⟩, hmint⟩ := hbank.mintCoins_ok (s := ctx.store.sdk) hacc hminter hvalid
  exact ⟨_, callBank_eq_ok_iff.mpr ⟨sdk, events, hmint, rfl⟩⟩

theorem exists_callBank_burnCoins_iff (hburner : .burner ∈ acc.permissions) (hvalid : amt.IsValid) :
    (∃ ctx', callBank ctx (fun s => k.bk.burnCoins s name amt) = .ok ctx') ↔
      ∀ denom, amt.amountOf denom ≤ k.bk.spendableCoin ctx.store.sdk acc.address denom := by
  rw [← hbank.burnCoins_ok_iff hacc hburner hvalid]
  simp only [callBank_eq_ok_iff]
  constructor
  · rintro ⟨_, sdk, events, hburn, -⟩
    exact ⟨(sdk, events), hburn⟩
  · rintro ⟨⟨sdk, events⟩, hburn⟩
    exact ⟨_, sdk, events, hburn, rfl⟩

theorem exists_burnCoins_integerCoins_iff {amt : ℤ} (hburner : .burner ∈ acc.permissions) (hamt : 0 ≤ amt) :
    (∃ ctx', callBank ctx (fun s => k.bk.burnCoins s name (k.integerCoins amt)) = .ok ctx') ↔
      amt ≤ k.bk.spendableCoin ctx.store.sdk acc.address k.integerCoinDenom := by
  rw [exists_callBank_burnCoins_iff hbank hacc hburner (isValid_integerCoins hamt)]
  exact forall_amountOf_integerCoins_le_iff (hbank.spendable_nonneg ctx.store.sdk acc.address)

theorem exists_passthrough_burnCoins_iff (hburner : .burner ∈ acc.permissions) (hvalid : amt.IsValid) :
    (∃ ctx', (if k.passthroughCoins amt ≠ [] then
        callBank ctx fun s => k.bk.burnCoins s name (k.passthroughCoins amt)
      else .ok ctx) = .ok ctx') ↔
      ∀ denom, (k.passthroughCoins amt).amountOf denom ≤
        k.bk.spendableCoin ctx.store.sdk acc.address denom := by
  by_cases hnil : k.passthroughCoins amt = []
  · simp [hnil, hbank.spendable_nonneg]
  · simp only [ne_eq, hnil, not_false_eq_true, if_true]
    exact exists_callBank_burnCoins_iff hbank hacc hburner (isValid_passthroughCoins hvalid)

end

section

variable {name : ModuleName} {acc : ModuleAccount} {f r e amt : ℤ} (hbank : Lawful k.bk k.modules)

include hbank

theorem exists_mintIntegerCoins {integerMintAmount : ℤ} (hacc : k.modules.getModuleAccount name = some acc)
    (hminter : .minter ∈ acc.permissions) (hnonneg : 0 ≤ integerMintAmount)
    (hreserve : k.conversionFactor ≤ f + e → ¬ r < e →
      1 ≤ k.bk.getBalance ctx.store.sdk k.reserve.address k.integerCoinDenom) :
    ∃ ctx', k.mintIntegerCoins ctx name integerMintAmount (decide (k.conversionFactor ≤ f + e))
      (decide (r < e)) = .ok ctx' := by
  have hcarry : ∃ ctx₁, (if (decide (k.conversionFactor ≤ f + e) && !decide (r < e)) = true then
        callBank ctx fun s => k.bk.sendCoinsFromModuleToModule s moduleName name (k.integerCoins 1)
      else .ok ctx) = .ok ctx₁ := by
    by_cases hcase : (decide (k.conversionFactor ≤ f + e) && !decide (r < e)) = true
    · simp only [hcase, if_true,
        hbank.sendCoinsFromModuleToModule_eq k.getModuleAccount_moduleName hacc]
      rw [exists_sendCoins_integerCoins_iff hbank zero_le_one,
        hbank.module_spendable k.getModuleAccount_moduleName]
      simp only [Bool.and_eq_true, decide_eq_true_eq, Bool.not_eq_true', decide_eq_false_iff_not]
        at hcase
      exact hreserve hcase.1 hcase.2
    · exact ⟨ctx, by rw [if_neg hcase]⟩
  have hguard : ∀ (ctx₁ : Ctx S) (minted : ℤ), 0 ≤ minted →
      ∃ ctx₂, (if 0 < minted then
        callBank ctx₁ fun s => k.bk.mintCoins s name (k.integerCoins minted)
      else .ok ctx₁) = .ok ctx₂ := by
    intro ctx₁ minted hminted
    split
    · exact exists_callBank_mintCoins hbank hacc hminter (isValid_integerCoins hminted)
    · exact ⟨ctx₁, rfl⟩
  unfold mintIntegerCoins
  obtain ⟨ctx₁, hfirst⟩ := hcarry
  obtain ⟨ctx₂, hsecond⟩ := hguard ctx₁ (if (decide (k.conversionFactor ≤ f + e) &&
    decide (r < e)) = true then integerMintAmount + 1 else integerMintAmount) (by split <;> omega)
  simp only [exists_bind_eq_ok_iff]
  refine ⟨ctx₁, hfirst, ctx₂, hsecond, ?_⟩
  split
  · exact exists_callBank_mintCoins hbank k.getModuleAccount_moduleName k.minter_mem
      (isValid_integerCoins zero_le_one)
  · exact ⟨ctx₂, rfl⟩

/-- The module needs the borrowed coin on top; the carry is paid by the reserve. -/
theorem exists_burnIntegerCoins_iff {integerBurnAmount : ℤ} (hname : name ≠ moduleName)
    (hacc : k.modules.getModuleAccount name = some acc) (hburner : .burner ∈ acc.permissions)
    (hnonneg : 0 ≤ integerBurnAmount) (hreserve : ¬ f < e → k.conversionFactor ≤ r + e →
      1 ≤ k.bk.getBalance ctx.store.sdk k.reserve.address k.integerCoinDenom) :
    (∃ ctx', k.burnIntegerCoins ctx name integerBurnAmount (decide (f < e))
      (decide (k.conversionFactor ≤ r + e)) = .ok ctx') ↔ integerBurnAmount + borrow f e ≤
        k.bk.spendableCoin ctx.store.sdk acc.address k.integerCoinDenom := by
  have hne := module_address_ne_reserve hname hacc
  have hguard : ∀ (ctx₁ : Ctx S) (burned : ℤ), 0 ≤ burned →
      ((∃ ctx₂, (if burned ≠ 0 then
        callBank ctx₁ fun s => k.bk.burnCoins s name (k.integerCoins burned)
      else .ok ctx₁) = .ok ctx₂) ↔
        burned ≤ k.bk.spendableCoin ctx₁.store.sdk acc.address k.integerCoinDenom) := by
    intro ctx₁ burned hburned
    by_cases hzero : burned = 0
    · simp [hzero, hbank.spendable_nonneg ctx₁.store.sdk acc.address k.integerCoinDenom]
    · simp only [ne_eq, hzero, not_false_eq_true, if_true]
      exact exists_burnCoins_integerCoins_iff hbank hacc hburner hburned
  unfold burnIntegerCoins
  simp only [hbank.sendCoinsFromModuleToModule_eq hacc k.getModuleAccount_moduleName,
    exists_bind_eq_ok_iff]
  by_cases hb : f < e <;> by_cases ho : k.conversionFactor ≤ r + e <;>
    simp only [hb, ho, borrow, decide_true, decide_false, Bool.and_self, Bool.not_true,
      Bool.not_false, Bool.and_false, Bool.and_true, if_true, if_false, Bool.false_eq_true,
      Except.ok.injEq, exists_eq_left', add_zero]
  · exact hguard ctx _ (by omega)
  · have hleft : ∀ {ctx₁ : Ctx S}, callBank ctx (fun s =>
        k.bk.sendCoins s acc.address k.reserve.address (k.integerCoins 1)) = .ok ctx₁ →
        k.bk.spendableCoin ctx₁.store.sdk acc.address k.integerCoinDenom =
          k.bk.spendableCoin ctx.store.sdk acc.address k.integerCoinDenom - 1 := by
      intro ctx₁ hsend
      rw [(bankMove_sendCoins hsend).measure_eq (hbank.tracks_spendable acc.address),
        weightOf_self, weightOf_of_ne hne.symm, amountOf_integerCoins, if_pos rfl]
      ring
    constructor
    · rintro ⟨ctx₁, hsend, hrest⟩
      have hle := (hguard ctx₁ integerBurnAmount hnonneg).mp hrest
      rw [hleft hsend] at hle
      omega
    · intro hle
      obtain ⟨ctx₁, hsend⟩ := (exists_sendCoins_integerCoins_iff hbank zero_le_one).mpr
        (show 1 ≤ k.bk.spendableCoin ctx.store.sdk acc.address k.integerCoinDenom by omega)
      refine ⟨ctx₁, hsend, (hguard ctx₁ integerBurnAmount hnonneg).mpr ?_⟩
      rw [hleft hsend]
      omega
  · have hleft : ∀ {ctx₁ : Ctx S}, callBank ctx (fun s =>
        k.bk.burnCoins s moduleName (k.integerCoins 1)) = .ok ctx₁ →
        k.bk.spendableCoin ctx₁.store.sdk acc.address k.integerCoinDenom =
          k.bk.spendableCoin ctx.store.sdk acc.address k.integerCoinDenom := by
      intro ctx₁ hburn
      rw [(bankMove_burnCoins k.getModuleAccount_moduleName hburn).measure_eq
        (hbank.tracks_spendable acc.address), weightOf_of_ne hne.symm]
      ring
    constructor
    · rintro ⟨ctx₁, hburn, hrest⟩
      rw [← hleft hburn]
      exact (hguard ctx₁ integerBurnAmount hnonneg).mp hrest
    · intro hle
      have hone := hreserve hb ho
      rw [← hbank.module_spendable k.getModuleAccount_moduleName] at hone
      obtain ⟨ctx₁, hburn⟩ := (exists_burnCoins_integerCoins_iff hbank
        k.getModuleAccount_moduleName k.burner_mem zero_le_one).mpr hone
      refine ⟨ctx₁, hburn, (hguard ctx₁ integerBurnAmount hnonneg).mpr ?_⟩
      rw [hleft hburn]
      exact hle
  · exact hguard ctx _ hnonneg

theorem exists_mintExtendedCoin (hcovers : CoversCarries k ctx) (hname : name ≠ moduleName)
    (hacc : k.modules.getModuleAccount name = some acc) (hminter : .minter ∈ acc.permissions) (hamt : 0 ≤ amt) :
    ∃ ctx', k.mintExtendedCoin ctx name amt = .ok ctx' := by
  have hinteger : ∃ ctx₁, k.mintIntegerCoins ctx name (amt / k.conversionFactor)
      (decide (k.conversionFactor ≤
        getFractionalBalance ctx acc.address + amt % k.conversionFactor))
      (decide (getRemainderAmount ctx < amt % k.conversionFactor)) = .ok ctx₁ :=
    exists_mintIntegerCoins hbank hacc hminter (Int.ediv_nonneg hamt k.conversionFactor_pos.le)
      fun hc hs => hcovers.balance_remainder (by linarith)
  obtain ⟨ctx₁, hinteger⟩ := hinteger
  exact ⟨_, (mintExtendedCoin_eq_ok_iff hname hacc hamt (hcovers.fractional acc.address)
    hcovers.remainder).mpr ⟨ctx₁, hinteger, rfl⟩⟩

theorem exists_mintCoins {amt : Coins} (hname : name ≠ moduleName)
    (hacc : k.modules.getModuleAccount name = some acc) (hminter : .minter ∈ acc.permissions) (hvalid : amt.IsValid)
    (hcovers : ∀ {ctx₁ : Ctx S}, (BankMove k ctx ctx₁ fun weight denom =>
      weight acc.address * (k.passthroughCoins amt).amountOf denom) → CoversCarries k ctx₁) :
    ∃ ctx', k.mintCoins ctx name amt = .ok ctx' := by
  obtain ⟨ctx₁, hfirst⟩ : ∃ ctx₁, (if k.passthroughCoins amt ≠ [] then
        callBank ctx fun s => k.bk.mintCoins s name (k.passthroughCoins amt)
      else .ok ctx) = .ok ctx₁ := by
    split_ifs
    · exact exists_callBank_mintCoins hbank hacc hminter (isValid_passthroughCoins hvalid)
    · exact ⟨ctx, rfl⟩
  obtain ⟨ctx', hsecond⟩ : ∃ ctx', (if 0 < amt.amountOf k.extendedCoinDenom then
        k.mintExtendedCoin ctx₁ name (amt.amountOf k.extendedCoinDenom)
      else .ok ctx₁) = .ok ctx' := by
    split_ifs with hpos
    · exact exists_mintExtendedCoin hbank (hcovers (bankMove_passthrough_mintCoins hacc hfirst)) hname hacc hminter
        hpos.le
    · exact ⟨ctx₁, rfl⟩
  exact ⟨ctx', mintCoins_eq_ok_iff.mpr ⟨⟨hname, ⟨acc, hacc, hminter⟩, hvalid⟩, ctx₁, hfirst, hsecond⟩⟩

theorem exists_burnExtendedCoin_iff (hcovers : CoversCarries k ctx) (hname : name ≠ moduleName)
    (hacc : k.modules.getModuleAccount name = some acc) (hburner : .burner ∈ acc.permissions) (hamt : 0 ≤ amt) :
    (∃ ctx', k.burnExtendedCoin ctx name amt = .ok ctx') ↔
      amt ≤ k.getBalance ctx acc.address k.extendedCoinDenom := by
  have hf := hcovers.fractional acc.address
  have he := k.isDigit_fraction amt
  have hinteger : (∃ ctx₁, k.burnIntegerCoins ctx name (amt / k.conversionFactor)
      (decide (getFractionalBalance ctx acc.address < amt % k.conversionFactor))
      (decide (k.conversionFactor ≤ getRemainderAmount ctx + amt % k.conversionFactor)) =
      .ok ctx₁) ↔ _ :=
    exists_burnIntegerCoins_iff hbank hname hacc hburner
      (Int.ediv_nonneg hamt k.conversionFactor_pos.le)
      fun hb ho => hcovers.balance_remainder (by linarith)
  rw [hbank.module_spendable hacc, ← mul_add_le_mul_add_iff hf he, k.ediv_mul_add_emod]
    at hinteger
  rw [getBalance_extendedCoinDenom (module_address_ne_reserve hname hacc), valueOf, ← hinteger]
  simp only [burnExtendedCoin_eq_ok_iff hname hacc hamt hf hcovers.remainder]
  constructor
  · rintro ⟨_, ctx₁, hok, -⟩
    exact ⟨ctx₁, hok⟩
  · rintro ⟨ctx₁, hok⟩
    exact ⟨_, ctx₁, hok, rfl⟩

end

structure SameLedger (k : Keeper S) (ctx ctx' : Ctx S) : Prop where
  fractional : ∀ a, getFractionalBalance ctx' a = getFractionalBalance ctx a
  remainder : getRemainderAmount ctx' = getRemainderAmount ctx
  reserve : k.bk.getBalance ctx'.store.sdk k.reserve.address k.integerCoinDenom =
    k.bk.getBalance ctx.store.sdk k.reserve.address k.integerCoinDenom
  supply : k.bk.getSupply ctx'.store.sdk k.integerCoinDenom =
    k.bk.getSupply ctx.store.sdk k.integerCoinDenom

/-- A balance is written with one digit in only one way, so a change and its opposite restore every digit. -/
theorem FractionalChange.sameLedger {ctx'' : Ctx S} {address : AccAddress} {delta : ℤ}
    (hbank : Lawful k.bk k.modules) (hbacked : Backed k ctx) (hchange : FractionalChange k ctx address delta ctx')
    (hback : FractionalChange k ctx' address (-delta) ctx'') : SameLedger k ctx ctx'' := by
  obtain @⟨ctx₁, f', r', units, reserveUnits, hmove, -, -, -, hvalue, hcirculating⟩ := hchange
  obtain @⟨ctx₂, f'', r'', units', reserveUnits', hmove', -, hf'', hr'', hvalue', hcirculating'⟩ := hback
  rw [getFractionalBalance_afterFractionalChange, if_pos rfl] at hvalue'
  rw [getRemainderAmount_afterFractionalChange] at hcirculating'
  have hunique : (units + units') * k.conversionFactor + f'' =
      0 * k.conversionFactor + getFractionalBalance ctx address := by
    linear_combination hvalue + hvalue'
  have hunique' : (units + reserveUnits + (units' + reserveUnits')) * k.conversionFactor + getRemainderAmount ctx =
      0 * k.conversionFactor + r'' := by
    linear_combination hcirculating + hcirculating'
  obtain ⟨hunits, hfraction⟩ := units_digit_unique hf'' (hbacked.fractional address) hunique
  obtain ⟨hreserve, hremainder⟩ := units_digit_unique hbacked.remainder hr'' hunique'
  have hsum : ∀ {measure : S → Denom → ℤ} {weight : AccAddress → ℤ},
      Tracks k.bk k.modules (fun s _ denom => measure s denom) weight →
        measure ctx₂.store.sdk k.integerCoinDenom = measure ctx.store.sdk k.integerCoinDenom := by
    intro measure weight htracks
    rw [hmove'.measure_eq htracks, afterFractionalChange_sdk, hmove.measure_eq htracks,
      atInteger_self, atInteger_self]
    linear_combination weight address * hunits + weight k.reserve.address * (hreserve - hunits)
  constructor
  · intro a
    rw [getFractionalBalance_afterFractionalChange, hmove'.getFractionalBalance_eq,
      getFractionalBalance_afterFractionalChange, hmove.getFractionalBalance_eq]
    split
    · rename_i ha
      rw [ha, hfraction]
    · rfl
  · rw [getRemainderAmount_afterFractionalChange, hremainder]
  · exact hsum (hbank.tracks_balance k.reserve.address)
  · exact hsum hbank.tracks_supply

theorem getBalance_module_nonneg (hbank : Lawful k.bk k.modules) (hbacked : Backed k ctx)
    {name : ModuleName} {acc : ModuleAccount} (hname : name ≠ moduleName)
    (hacc : k.modules.getModuleAccount name = some acc) :
    0 ≤ k.getBalance ctx acc.address k.extendedCoinDenom := by
  have hspendable := hbank.spendable_nonneg ctx.store.sdk acc.address k.integerCoinDenom
  rw [hbank.module_spendable hacc] at hspendable
  rw [getBalance_extendedCoinDenom (module_address_ne_reserve hname hacc), valueOf]
  exact add_nonneg (mul_nonneg hspendable k.conversionFactor_pos.le)
    (hbacked.fractional acc.address).1

/-- Minting and burning an extended coin at a module other than the reserve's, for a minter, for a
burner and for a module that is both. -/
theorem mintCoins_burnCoins_law (hbank : Lawful k.bk k.modules) (hbacked : Backed k ctx)
    {name : ModuleName} {acc : ModuleAccount} {amt : ℤ} (hname : name ≠ moduleName)
    (hacc : k.modules.getModuleAccount name = some acc) (hamt : 0 ≤ amt) :
    (.minter ∈ acc.permissions →
      ∃ ctx', k.mintCoins ctx name (k.extendedCoins amt) = .ok ctx' ∧
        ValueChange k ctx ctx' acc.address amt) ∧
    (.burner ∈ acc.permissions →
      ((∃ ctx', k.burnCoins ctx name (k.extendedCoins amt) = .ok ctx') ↔
        amt ≤ k.getBalance ctx acc.address k.extendedCoinDenom) ∧
      ∀ ctx', k.burnCoins ctx name (k.extendedCoins amt) = .ok ctx' →
        ValueChange k ctx ctx' acc.address (-amt)) ∧
    (.minter ∈ acc.permissions → .burner ∈ acc.permissions →
      ∀ ctx', k.mintCoins ctx name (k.extendedCoins amt) = .ok ctx' →
        ∃ ctx'', k.burnCoins ctx' name (k.extendedCoins amt) = .ok ctx'' ∧
          SameLedger k ctx ctx'') := by
  have haddress := module_address_ne_reserve hname hacc
  rcases hamt.eq_or_lt with rfl | hpos
  · refine ⟨fun hminter => ⟨ctx, ?_, .refl ctx _⟩, fun hburner => ⟨iff_of_true ⟨ctx, ?_⟩ ?_, ?_⟩,
      fun hminter hburner ctx' hmint => ⟨ctx', ?_, ?_⟩⟩
    · rw [mintCoins_extendedCoins hname hacc hminter le_rfl, if_neg (lt_irrefl 0)]
    · rw [burnCoins_extendedCoins hname hacc hburner le_rfl, if_neg (lt_irrefl 0)]
    · exact getBalance_module_nonneg hbank hbacked hname hacc
    · intro ctx' hburn
      rw [burnCoins_extendedCoins hname hacc hburner le_rfl, if_neg (lt_irrefl 0)] at hburn
      cases hburn
      rw [neg_zero]
      exact .refl ctx _
    · rw [burnCoins_extendedCoins hname hacc hburner le_rfl, if_neg (lt_irrefl 0)]
    · rw [mintCoins_extendedCoins hname hacc hminter le_rfl, if_neg (lt_irrefl 0)] at hmint
      cases hmint
      exact ⟨fun _ => rfl, rfl, rfl, rfl⟩
  · refine ⟨fun hminter => ?_, fun hburner => ⟨?_, fun ctx' hburn => ?_⟩,
      fun hminter hburner ctx' hmint => ?_⟩
    · obtain ⟨ctx', hmint⟩ := exists_mintExtendedCoin hbank hbacked.coversCarries hname hacc hminter hamt
      refine ⟨ctx', ?_, (valueFlow_mintExtendedCoin hbank hbacked hname hacc hamt hmint).valueChange hbank haddress⟩
      rw [mintCoins_extendedCoins hname hacc hminter hamt, if_pos hpos, hmint]
    · simp only [burnCoins_extendedCoins hname hacc hburner hamt, if_pos hpos]
      exact exists_burnExtendedCoin_iff hbank hbacked.coversCarries hname hacc hburner hamt
    · rw [burnCoins_extendedCoins hname hacc hburner hamt, if_pos hpos] at hburn
      exact (valueFlow_burnExtendedCoin hbank hbacked hname hacc hamt hburn).valueChange hbank haddress
    · rw [mintCoins_extendedCoins hname hacc hminter hamt, if_pos hpos] at hmint
      have hflow := valueFlow_mintExtendedCoin hbank hbacked hname hacc hamt hmint
      have hbacked' := hflow.backed
      have hcovers : amt ≤ k.getBalance ctx' acc.address k.extendedCoinDenom := by
        have hnonneg := getBalance_module_nonneg hbank hbacked hname hacc
        rw [(hflow.valueChange hbank haddress).balance]
        omega
      obtain ⟨ctx'', hburn⟩ :=
        (exists_burnExtendedCoin_iff hbank hbacked'.coversCarries hname hacc hburner hamt).mpr hcovers
      have hchange := fractionalChange_of_mint hbank.toMovesExactly hbacked.fractional hbacked.remainder hname hacc
        hamt hmint
      have hback := fractionalChange_of_burn hbank.toMovesExactly hbacked'.fractional hbacked'.remainder hname hacc
        hamt hburn
      refine ⟨ctx'', ?_, hchange.sameLedger hbank hbacked hback⟩
      rw [burnCoins_extendedCoins hname hacc hburner hamt, if_pos hpos, hburn]

theorem mintCoins_burnCoins_law_evm :
    let k := Evmd.preciseBankKeeper Evmd.sixDecimalsCoin
    let ctx := Evmd.genesisContext []
    ∃ ctx', k.mintCoins ctx "evm" (k.extendedCoins 1500000000000) = .ok ctx' ∧
      ValueChange k ctx ctx' (Evmd.moduleAddress "evm").bytes 1500000000000 ∧
      ∃ ctx'', k.burnCoins ctx' "evm" (k.extendedCoins 1500000000000) = .ok ctx'' ∧
        SameLedger k ctx ctx'' := by
  intro k ctx
  have hacc : k.modules.getModuleAccount "evm" =
      some (Evmd.moduleAccount "evm" [.minter, .burner]) := rfl
  have hname : ("evm" : ModuleName) ≠ moduleName := by decide
  have hamt : (0 : ℤ) ≤ 1500000000000 := by decide
  obtain ⟨hmint, -, hrestore⟩ := mintCoins_burnCoins_law (Evmd.preciseBankKeeper_lawful _)
    (backed_genesisContext Evmd.sixDecimalsCoin [] rfl) hname hacc hamt
  obtain ⟨ctx', hok, hchange⟩ := hmint (by simp [Evmd.moduleAccount])
  exact ⟨ctx', hok, hchange,
    hrestore (by simp [Evmd.moduleAccount]) (by simp [Evmd.moduleAccount]) ctx' hok⟩

/-- The precisebank account is a minter and a burner like the others, but the keeper refuses to mint
to it and to burn from it, be it nothing at all. -/
theorem mintCoins_burnCoins_refuse_reserve :
    let k := Evmd.preciseBankKeeper Evmd.sixDecimalsCoin
    let ctx := Evmd.genesisContext []
    Backed k ctx ∧ k.modules.getModuleAccount moduleName = some k.reserve ∧
      .minter ∈ k.reserve.permissions ∧ .burner ∈ k.reserve.permissions ∧
      (¬ ∃ ctx', k.mintCoins ctx moduleName (k.extendedCoins 1) = .ok ctx') ∧
      0 ≤ k.getBalance ctx k.reserve.address k.extendedCoinDenom ∧
      ¬ ∃ ctx', k.burnCoins ctx moduleName (k.extendedCoins 0) = .ok ctx' := by
  intro k ctx
  refine ⟨backed_genesisContext _ [] rfl, rfl, k.minter_mem, k.burner_mem, ?_, ?_, ?_⟩
  · rintro ⟨ctx', hmint⟩
    exact (mintCoins_eq_ok_iff.mp hmint).1.1 rfl
  · rw [getBalance_reserve]
  · rintro ⟨ctx', hburn⟩
    exact (burnCoins_eq_ok_iff.mp hburn).1.1 rfl

end CosmosEvm.PreciseBank.Keeper
