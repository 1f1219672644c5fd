import CosmosEvm.PreciseBank.Value

namespace CosmosEvm.PreciseBank.Keeper

open SparseLedger Digit Result BankKeeper

variable {S : Type} {k : Keeper S} {ctx ctx' : Ctx S}

/-- A successful transfer keeps the backing equation and moves the extended sum of its coins on the
side that is not the reserve. -/
def ReserveTransferLaw (k : Keeper S) (ctx : Ctx S)
    (sender recipient : AccAddress) (amt : Coins) : Prop :=
  ∀ ctx', k.sendCoins ctx sender recipient amt = .ok ctx' →
    k.bk.getBalance ctx'.store.sdk k.reserve.address k.integerCoinDenom * k.conversionFactor =
      getTotalSumFractionalBalances ctx' + getRemainderAmount ctx' ∧
    (sender ≠ k.reserve.address → k.getBalance ctx' sender k.extendedCoinDenom =
      k.getBalance ctx sender k.extendedCoinDenom - k.sumExtendedCoin amt) ∧
    (recipient ≠ k.reserve.address → k.getBalance ctx' recipient k.extendedCoinDenom =
      k.getBalance ctx recipient k.extendedCoinDenom + k.sumExtendedCoin amt)

/-- The coins that a transfer naming the reserve takes from its sender: the others as they are, and
of the extended coin the whole integer coins. -/
def reserveTransferAmount (k : Keeper S) (amt : Coins) (denom : Denom) : ℤ :=
  (if denom = k.extendedCoinDenom then 0 else amt.amountOf denom) +
    k.atInteger (amt.amountOf k.extendedCoinDenom / k.conversionFactor) denom

theorem sendExtendedCoins_reserve {sender recipient : AccAddress} (amt : ℤ)
    (hreserve : sender = k.reserve.address ∨ recipient = k.reserve.address) :
    k.sendExtendedCoins ctx sender recipient amt =
      k.sendExtendedCoinsReserve ctx sender recipient amt := by
  simp [sendExtendedCoins, k.getModuleAddress_moduleName, hreserve]

theorem bankMove_sendExtendedCoinsReserve {sender recipient : AccAddress} {amt : ℤ}
    (hamt : 0 ≤ amt) (hok : k.sendExtendedCoinsReserve ctx sender recipient amt = .ok ctx') :
    BankMove k ctx ctx' fun weight denom => (weight recipient - weight sender) *
      k.atInteger (amt / k.conversionFactor) denom := by
  unfold sendExtendedCoinsReserve at hok
  rw [Int.tdiv_eq_ediv_of_nonneg hamt] at hok
  have hmove := BankMove.ite (fun h => bankMove_sendCoins (mapError_eq_ok_iff.mp h)) hok
  have hnonneg := Int.ediv_nonneg hamt k.conversionFactor_pos.le
  refine hmove.congr fun weight denom => ?_
  rw [amountOf_integerCoins, atInteger]
  by_cases hdenom : k.integerCoinDenom = denom
  · simp only [hdenom, if_true]
    exact ite_pos_mul_eq _ hnonneg
  · simp [hdenom]

theorem exists_sendExtendedCoinsReserve_iff (hbank : Lawful k.bk k.modules)
    {sender recipient : AccAddress} {amt : ℤ} (hamt : 0 ≤ amt) :
    (∃ ctx', k.sendExtendedCoinsReserve ctx sender recipient amt = .ok ctx') ↔
      amt / k.conversionFactor ≤ k.bk.spendableCoin ctx.store.sdk sender k.integerCoinDenom := by
  unfold sendExtendedCoinsReserve
  rw [Int.tdiv_eq_ediv_of_nonneg hamt]
  exact exists_ite_sendCoins_integerCoins_iff hbank
    (Int.ediv_nonneg hamt k.conversionFactor_pos.le)

theorem bankMove_sendCoins_reserve {sender recipient : AccAddress} {amt : Coins}
    (hreserve : sender = k.reserve.address ∨ recipient = k.reserve.address)
    (hok : k.sendCoins ctx sender recipient amt = .ok ctx') :
    BankMove k ctx ctx' fun weight denom =>
      (weight recipient - weight sender) * k.reserveTransferAmount amt denom := by
  obtain ⟨hvalid, ctx₁, hpass, hextended⟩ := sendCoins_eq_ok_iff.mp hok
  have hfirst := bankMove_passthrough_sendCoins hvalid hpass
  have hnonneg := hvalid.amountOf_nonneg k.extendedCoinDenom
  rw [sendExtendedCoins_reserve _ hreserve] at hextended
  have hsecond := BankMove.ite (bankMove_sendExtendedCoinsReserve hnonneg) hextended
  refine (hfirst.trans hsecond).congr fun weight denom => ?_
  rw [amountOf_passthroughCoins hvalid, reserveTransferAmount]
  rcases hnonneg.eq_or_lt with hzero | hpos
  · simp [← hzero, atInteger]
  · rw [if_pos hpos]
    ring

/-- With the reserve as a party no fraction moves, so that the bank alone decides. -/
theorem exists_sendCoins_reserve_iff (hbank : Lawful k.bk k.modules)
    {sender recipient : AccAddress} {amt : Coins} (hne : sender ≠ recipient)
    (hreserve : sender = k.reserve.address ∨ recipient = k.reserve.address)
    (hvalid : amt.IsValid) :
    (∃ ctx', k.sendCoins ctx sender recipient amt = .ok ctx') ↔
      ∀ denom, k.reserveTransferAmount amt denom ≤
        k.bk.spendableCoin ctx.store.sdk sender denom := by
  have hnonneg := hvalid.amountOf_nonneg k.extendedCoinDenom
  have hunits := Int.ediv_nonneg hnonneg k.conversionFactor_pos.le
  have hpassIff : (∃ ctx₁, (if (k.passthroughCoins amt).isAllPositive then
        callBank ctx fun s => k.bk.sendCoins s sender recipient (k.passthroughCoins amt)
      else .ok ctx) = .ok ctx₁) ↔ _ := exists_passthrough_sendCoins_iff hbank hvalid
  have hspend : ∀ {ctx₁ : Ctx S}, (if (k.passthroughCoins amt).isAllPositive then
        callBank ctx fun s => k.bk.sendCoins s sender recipient (k.passthroughCoins amt)
      else .ok ctx) = .ok ctx₁ → k.bk.spendableCoin ctx₁.store.sdk sender k.integerCoinDenom =
        k.bk.spendableCoin ctx.store.sdk sender k.integerCoinDenom -
          (k.passthroughCoins amt).amountOf k.integerCoinDenom := by
    intro ctx₁ hpass
    rw [(bankMove_passthrough_sendCoins hvalid hpass).measure_eq (hbank.tracks_spendable sender),
      weightOf_self, weightOf_of_ne hne.symm]
    ring
  have hamount : ∀ denom, k.reserveTransferAmount amt denom =
      (k.passthroughCoins amt).amountOf denom +
        k.atInteger (amt.amountOf k.extendedCoinDenom / k.conversionFactor) denom := fun denom => by
    rw [amountOf_passthroughCoins hvalid, reserveTransferAmount]
  simp only [sendCoins_eq_ok_iff, hvalid, true_and, sendExtendedCoins_reserve _ hreserve, hamount]
  constructor
  · rintro ⟨ctx', ctx₁, hpass, hextended⟩ denom
    have hcover := hpassIff.mp ⟨ctx₁, hpass⟩ denom
    unfold atInteger
    split
    · rename_i heq
      rw [← heq] at hcover ⊢
      rcases ite_eq_ok_iff.mp hextended with ⟨hpos, hsend⟩ | ⟨hpos, rfl⟩
      · have hle := (exists_sendExtendedCoinsReserve_iff hbank hnonneg).mp ⟨ctx', hsend⟩
        rw [hspend hpass] at hle
        linarith
      · rw [le_antisymm (not_lt.mp hpos) hnonneg, Int.zero_ediv, add_zero]
        exact hcover
    · rw [add_zero]
      exact hcover
  · intro hall
    have hcover : ∀ denom, (k.passthroughCoins amt).amountOf denom ≤
        k.bk.spendableCoin ctx.store.sdk sender denom := fun denom => by
      have hle := hall denom
      unfold atInteger at hle
      split at hle <;> linarith
    obtain ⟨ctx₁, hpass⟩ := hpassIff.mpr hcover
    have hint := hall k.integerCoinDenom
    rw [atInteger_self] at hint
    obtain ⟨ctx', hsend⟩ := (exists_sendExtendedCoinsReserve_iff hbank hnonneg).mpr
      (show _ ≤ k.bk.spendableCoin ctx₁.store.sdk sender k.integerCoinDenom by
        rw [hspend hpass]; linarith)
    by_cases hpos : 0 < amt.amountOf k.extendedCoinDenom
    · exact ⟨ctx', ctx₁, hpass, by rw [if_pos hpos, hsend]⟩
    · exact ⟨ctx₁, ctx₁, hpass, by rw [if_neg hpos]⟩

theorem sumExtendedCoin_pos_of_mem {amt : Coins} (hvalid : amt.IsValid)
    (hextended : ∃ coin ∈ amt, coin.denom = k.extendedCoinDenom) : 0 < k.sumExtendedCoin amt := by
  obtain ⟨coin, hcoin, hdenom⟩ := hextended
  have hamount := hvalid.amountOf_of_mem hcoin
  have hpos := (hvalid.1 coin hcoin).2
  have hint := mul_nonneg (hvalid.amountOf_nonneg k.integerCoinDenom) k.conversionFactor_pos.le
  rw [hdenom] at hamount
  rw [sumExtendedCoin, hamount]
  linarith

/-- The law of transfers that name the reserve holds only where there is nothing to keep: between the
reserve and itself, or when the call fails. -/
theorem reserveTransferLaw_iff (hbank : Lawful k.bk k.modules) (hbacked : Backed k ctx)
    {sender recipient : AccAddress} {amt : Coins}
    (hreserve : sender = k.reserve.address ∨ recipient = k.reserve.address)
    (hextended : ∃ coin ∈ amt, coin.denom = k.extendedCoinDenom) :
    k.ReserveTransferLaw ctx sender recipient amt ↔
      sender = recipient ∨ ¬ amt.IsValid ∨
      ∃ denom, k.bk.spendableCoin ctx.store.sdk sender denom <
        k.reserveTransferAmount amt denom := by
  by_cases hne : sender = recipient
  · subst hne
    simp only [or_self] at hreserve
    refine iff_of_true (fun ctx' hok => ⟨?_, fun h => absurd hreserve h, fun h => absurd hreserve h⟩)
      (Or.inl rfl)
    have hmove := bankMove_sendCoins_reserve (Or.inl hreserve) hok
    exact (hbacked.of_bankMove hbank.toMovesExactly hmove (by simp)).backing
  by_cases hvalid : amt.IsValid
  swap
  · refine iff_of_true (fun ctx' hok => absurd ?_ hvalid) (Or.inr (Or.inl hvalid))
    exact (sendCoins_eq_ok_iff.mp hok).1
  have hiff : (∃ ctx', k.sendCoins ctx sender recipient amt = .ok ctx') ↔ _ :=
    exists_sendCoins_reserve_iff hbank hne hreserve hvalid
  simp only [hne, hvalid, not_true_eq_false, false_or]
  constructor
  · intro hlaw
    by_contra hcover
    push Not at hcover
    obtain ⟨ctx', hok⟩ := hiff.mpr hcover
    have hmove := bankMove_sendCoins_reserve hreserve hok
    obtain ⟨hbacking, hsender, hrecipient⟩ := hlaw ctx' hok
    have hsum := sumExtendedCoin_pos_of_mem (k := k) hvalid hextended
    -- the backing equation forces the integer coins of the transfer to be none
    have hbalance := hmove.measure_eq (hbank.tracks_balance k.reserve.address) k.integerCoinDenom
    rw [hbalance, hmove.getTotalSumFractionalBalances_eq, hmove.getRemainderAmount_eq,
      ← hbacked.backing] at hbacking
    rcases hreserve with rfl | rfl
    · have hparty := hrecipient (Ne.symm hne)
      rw [getBalance_extendedCoinDenom (Ne.symm hne), getBalance_extendedCoinDenom (Ne.symm hne),
        hmove.valueOf_eq (hbank.tracks_balance recipient), weightOf_self, weightOf_of_ne hne]
        at hparty
      rw [weightOf_self, weightOf_of_ne (Ne.symm hne)] at hbacking
      linarith
    · have hparty := hsender hne
      rw [getBalance_extendedCoinDenom hne, getBalance_extendedCoinDenom hne,
        hmove.valueOf_eq (hbank.tracks_balance sender), weightOf_self,
        weightOf_of_ne (Ne.symm hne)] at hparty
      rw [weightOf_self, weightOf_of_ne hne] at hbacking
      linarith
  · rintro ⟨denom, hlt⟩ ctx' hok
    exact absurd (hiff.mp ⟨ctx', hok⟩ denom) (not_le.mpr hlt)

theorem reserveTransferLaw_of_empty_reserve :
    let bob : AccAddress := List.replicate 20 8
    (Evmd.preciseBankKeeper Evmd.sixDecimalsCoin).ReserveTransferLaw (Evmd.genesisContext [])
      (Evmd.preciseBankKeeper Evmd.sixDecimalsCoin).reserve.address bob
      [⟨"atest", 1500000000000⟩] := by
  intro bob
  refine (reserveTransferLaw_iff (Evmd.preciseBankKeeper_lawful _)
    (backed_genesisContext _ [] rfl) (Or.inl rfl) (by decide +kernel)).mpr
    (Or.inr (Or.inr ⟨"utest", ?_⟩))
  decide +kernel

/-- Paying 1.5 integer coins into the reserve takes one of them, and the reserve backs nothing with
it. -/
theorem not_reserveTransferLaw_toReserve :
    let alice : AccAddress := List.replicate 20 7
    let k := Evmd.preciseBankKeeper Evmd.sixDecimalsCoin
    let ctx := Evmd.genesisContext [(alice, [⟨"utest", 5⟩])]
    let amt : Coins := [⟨"atest", 1500000000000⟩]
    Backed k ctx ∧
      (∃ ctx', k.sendCoins ctx alice k.reserve.address amt = .ok ctx' ∧
        k.bk.getBalance ctx'.store.sdk k.reserve.address k.integerCoinDenom = 1 ∧
        getTotalSumFractionalBalances ctx' + getRemainderAmount ctx' = 0) ∧
      ¬ k.ReserveTransferLaw ctx alice k.reserve.address amt := by
  intro alice k ctx amt
  have hsome : (k.sendCoins ctx alice k.reserve.address amt).toOption.isSome = true := by
    decide +kernel
  have hstate : (k.sendCoins ctx alice k.reserve.address amt).toOption.map (fun ctx' =>
      (k.bk.getBalance ctx'.store.sdk k.reserve.address k.integerCoinDenom,
        getTotalSumFractionalBalances ctx' + getRemainderAmount ctx')) = some (1, 0) := by
    decide +kernel
  obtain ⟨ctx', hok⟩ := exists_eq_ok_of_isSome hsome
  rw [hok] at hstate
  obtain ⟨hbalance, htotal⟩ := Prod.mk.inj (Option.some.inj hstate)
  refine ⟨backed_genesisContext _ _ (by decide +kernel), ⟨ctx', hok, hbalance, htotal⟩,
    fun hlaw => ?_⟩
  have hbacking := (hlaw ctx' hok).1
  rw [hbalance, htotal] at hbacking
  exact absurd hbacking (by decide +kernel)

end CosmosEvm.PreciseBank.Keeper
