import CosmosEvm.PreciseBank.MintBurnSpec

namespace CosmosEvm.PreciseBank.Keeper

open Result BankKeeper

variable {S : Type} {k : Keeper S} {ctx ctx' : Ctx S} {denom : Denom} {amt : ℤ}

theorem amountOf_singleton (denom other : Denom) (amt : ℤ) :
    Coins.amountOf [⟨denom, amt⟩] other = if denom = other then amt else 0 := by
  rw [Coins.amountOf_cons, Coins.amountOf_nil]

theorem isValid_singleton_iff : Coins.IsValid [⟨denom, amt⟩] ↔ validateDenom denom = true ∧ 0 < amt := by
  simp [Coins.IsValid]

theorem passthroughCoins_singleton (hne : denom ≠ k.extendedCoinDenom) :
    k.passthroughCoins [⟨denom, amt⟩] = [⟨denom, amt⟩] := by
  unfold passthroughCoins
  dsimp only
  rw [amountOf_singleton, if_neg hne, if_neg (lt_irrefl 0)]

theorem not_pos_amountOf_extendedCoinDenom (hne : denom ≠ k.extendedCoinDenom) :
    ¬ 0 < Coins.amountOf [⟨denom, amt⟩] k.extendedCoinDenom := by
  rw [amountOf_singleton, if_neg hne]
  exact lt_irrefl 0

theorem getBalance_of_ne (hne : denom ≠ k.extendedCoinDenom) (address : AccAddress) :
    k.getBalance ctx address denom = k.bk.getBalance ctx.store.sdk address denom := by
  simp [getBalance, hne]

section

variable {name : ModuleName} {acc : ModuleAccount} (hbank : Lawful k.bk k.modules)
  (hne : denom ≠ k.extendedCoinDenom) (hvalid : Coins.IsValid [⟨denom, amt⟩])

include hbank hne hvalid

theorem exists_sendPlainCoin_iff {sender recipient : AccAddress} :
    (∃ ctx', k.sendCoins ctx sender recipient [⟨denom, amt⟩] = .ok ctx') ↔
      amt ≤ k.bk.spendableCoin ctx.store.sdk sender denom := by
  have hpositive : (Coins.isAllPositive [⟨denom, amt⟩]) = true := hvalid.isAllPositive_iff.mpr nofun
  have hcovered : (∀ other, Coins.amountOf [⟨denom, amt⟩] other ≤
      k.bk.spendableCoin ctx.store.sdk sender other) ↔
        amt ≤ k.bk.spendableCoin ctx.store.sdk sender denom := by
    rw [hvalid.amountOf_le_iff fun other => hbank.spendable_nonneg _ _ _]
    simp
  have hsends : (∃ result, k.bk.sendCoins ctx.store.sdk sender recipient [⟨denom, amt⟩] = .ok result) ↔
      amt ≤ k.bk.spendableCoin ctx.store.sdk sender denom :=
    (hbank.sendCoins_ok_iff hvalid).trans hcovered
  rw [← hsends]
  simp only [sendCoins_eq_ok_iff, passthroughCoins_singleton hne, if_pos hpositive, if_neg (not_pos_amountOf_extendedCoinDenom hne)]
  constructor
  · rintro ⟨ctx', -, ctx₁, hcall, -⟩
    obtain ⟨sdk, events, hsend, -⟩ := callBank_eq_ok_iff.mp hcall
    exact ⟨(sdk, events), hsend⟩
  · rintro ⟨⟨sdk, events⟩, hsend⟩
    exact ⟨_, hvalid, _, callBank_eq_ok_iff.mpr ⟨sdk, events, hsend, rfl⟩, rfl⟩

theorem exists_mintPlainCoin (hname : name ≠ moduleName) (hacc : k.modules.getModuleAccount name = some acc)
    (hminter : .minter ∈ acc.permissions) : ∃ ctx', k.mintCoins ctx name [⟨denom, amt⟩] = .ok ctx' := by
  obtain ⟨⟨sdk, events⟩, hmint⟩ := hbank.mintCoins_ok (s := ctx.store.sdk) hacc hminter hvalid
  have hpass : (if k.passthroughCoins [⟨denom, amt⟩] ≠ [] then
        callBank ctx fun s => k.bk.mintCoins s name (k.passthroughCoins [⟨denom, amt⟩])
      else .ok ctx) = callBank ctx fun s => k.bk.mintCoins s name [⟨denom, amt⟩] := by
    rw [passthroughCoins_singleton hne, if_pos (List.cons_ne_nil _ _)]
  exact ⟨_, mintCoins_eq_ok_iff.mpr ⟨⟨hname, ⟨acc, hacc, hminter⟩, hvalid⟩, _,
    hpass.trans (callBank_eq_ok_iff.mpr ⟨sdk, events, hmint, rfl⟩),
    if_neg (not_pos_amountOf_extendedCoinDenom hne)⟩⟩

theorem exists_burnPlainCoin_iff (hname : name ≠ moduleName)
    (hacc : k.modules.getModuleAccount name = some acc) :
    (∃ ctx', k.burnCoins ctx name [⟨denom, amt⟩] = .ok ctx') ↔
      .burner ∈ acc.permissions ∧ amt ≤ k.getBalance ctx acc.address denom := by
  have hcovered : (∀ other, Coins.amountOf [⟨denom, amt⟩] other ≤
      k.bk.spendableCoin ctx.store.sdk acc.address other) ↔ amt ≤ k.getBalance ctx acc.address denom := by
    rw [hvalid.amountOf_le_iff fun other => hbank.spendable_nonneg _ _ _, getBalance_of_ne hne]
    simp [hbank.module_spendable hacc]
  have hpass : (if k.passthroughCoins [⟨denom, amt⟩] ≠ [] then
        callBank ctx fun s => k.bk.burnCoins s name (k.passthroughCoins [⟨denom, amt⟩])
      else .ok ctx) = callBank ctx fun s => k.bk.burnCoins s name [⟨denom, amt⟩] := by
    rw [passthroughCoins_singleton hne, if_pos (List.cons_ne_nil _ _)]
  simp only [burnCoins_eq_ok_iff, hpass, if_neg (not_pos_amountOf_extendedCoinDenom hne)]
  constructor
  · rintro ⟨ctx', ⟨-, ⟨acc', hacc', hburner⟩, -⟩, ctx₁, hcall, -⟩
    cases hacc.symm.trans hacc'
    obtain ⟨sdk, events, hburn, -⟩ := callBank_eq_ok_iff.mp hcall
    exact ⟨hburner, hcovered.mp ((hbank.burnCoins_ok_iff hacc hburner hvalid).mp ⟨_, hburn⟩)⟩
  · rintro ⟨hburner, hle⟩
    obtain ⟨⟨sdk, events⟩, hburn⟩ := (hbank.burnCoins_ok_iff hacc hburner hvalid).mpr (hcovered.mpr hle)
    exact ⟨_, ⟨hname, ⟨acc, hacc, hburner⟩, hvalid⟩, _, callBank_eq_ok_iff.mpr ⟨sdk, events, hburn, rfl⟩, rfl⟩

end

theorem bankMove_mintCoins_singleton {name : ModuleName} {acc : ModuleAccount}
    (hacc : k.modules.getModuleAccount name = some acc) (hne : denom ≠ k.extendedCoinDenom)
    (hok : k.mintCoins ctx name [⟨denom, amt⟩] = .ok ctx') :
    BankMove k ctx ctx' fun weight other =>
      weight acc.address * Coins.amountOf [⟨denom, amt⟩] other := by
  obtain ⟨⟨-, -, hvalid⟩, ctx₁, hpass, hrest⟩ := mintCoins_eq_ok_iff.mp hok
  rw [if_neg (not_pos_amountOf_extendedCoinDenom hne)] at hrest
  cases hrest
  refine (bankMove_passthrough_mintCoins hacc hpass).congr fun weight other => ?_
  rw [amountOf_passthroughCoins_singleton hne hvalid]

section Moves

variable {factor : (AccAddress → ℤ) → ℤ}
  (hmove : BankMove k ctx ctx' fun weight other => factor weight * Coins.amountOf [⟨denom, amt⟩] other)
include hmove

theorem BankMove.getBalance_plainCoin (hbank : MovesExactly k.bk k.modules)
    (hne : denom ≠ k.extendedCoinDenom) (address : AccAddress) :
    k.getBalance ctx' address denom = k.getBalance ctx address denom + factor (weightOf address) * amt := by
  have hmeasure := hmove.measure_eq (hbank.tracks_balance address) denom
  simpa [getBalance_of_ne hne, amountOf_singleton] using hmeasure

theorem BankMove.getSupply_plainCoin (hbank : Lawful k.bk k.modules) :
    k.bk.getSupply ctx'.store.sdk denom =
      k.bk.getSupply ctx.store.sdk denom + factor (fun _ => 1) * amt := by
  have hmeasure := hmove.measure_eq hbank.tracks_supply denom
  simpa [amountOf_singleton] using hmeasure

theorem BankMove.getBalance_eq_of_ne {other : Denom} (hbank : MovesExactly k.bk k.modules)
    (hother : denom ≠ other) (hinteger : other = k.extendedCoinDenom → denom ≠ k.integerCoinDenom)
    (address : AccAddress) : k.getBalance ctx' address other = k.getBalance ctx address other := by
  have hkept : ∀ kept, denom ≠ kept →
      k.bk.getBalance ctx'.store.sdk address kept = k.bk.getBalance ctx.store.sdk address kept := by
    intro kept hkept
    have hmeasure := hmove.measure_eq (hbank.tracks_balance address) kept
    simpa [amountOf_singleton, hkept] using hmeasure
  have hfractional : getFractionalBalance ctx' address = getFractionalBalance ctx address := by
    unfold getFractionalBalance
    rw [hmove.store_eq]
  unfold getBalance
  rw [hfractional, hkept other hother]
  by_cases hext : other = k.extendedCoinDenom
  · rw [hkept _ (hinteger hext)]
  · simp only [hext, not_false_eq_true, if_true, ne_eq]

end Moves

end CosmosEvm.PreciseBank.Keeper
