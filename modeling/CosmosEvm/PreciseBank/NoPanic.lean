import CosmosEvm.PreciseBank.MintBurnLaw

namespace CosmosEvm

open Result

/-- The error says that funds are insufficient. A panic does not. -/
def Err.Short (err : Err) : Prop := err.isInsufficientFunds = true

theorem Err.Short.wrap {err : Err} (hshort : err.Short) (text : String) : (err.wrap text).Short := by
  cases err with
  | panicked inner => cases hshort
  | wrapped root inner =>
    cases root with
    | insufficientFunds => rfl
    | _ => cases hshort

structure BankKeeper.FailsShort {S : Type} (bk : BankKeeper S) (modules : ModuleAccounts) : Prop where
  sendCoins : ∀ {s : S} {sender recipient : AccAddress} {amt : Coins}, amt.IsValid →
    FailsWith Err.Short (bk.sendCoins s sender recipient amt)
  burnCoins : ∀ {s : S} {name : ModuleName} {acc : ModuleAccount} {amt : Coins},
    modules.getModuleAccount name = some acc → .burner ∈ acc.permissions → amt.IsValid →
      FailsWith Err.Short (bk.burnCoins s name amt)

namespace PreciseBank.Keeper

open SparseLedger Digit BankKeeper

variable {S : Type} {k : Keeper S} {ctx ctx' : Ctx S}

section

variable {kind : Err → Prop} {sender recipient : AccAddress} {amount : ℤ} {name : ModuleName}
  {acc : ModuleAccount} {amt : Coins}

theorem failsWith_callBank {call : S → Except Err (S × List Event)}
    (hcall : FailsWith kind (call ctx.store.sdk)) : FailsWith kind (callBank ctx call) :=
  hcall.bind fun _ _ => .ok _

theorem short_updateInsufficientFundsError {err : Err} (hshort : err.Short) (address : AccAddress) (amt : ℤ) :
    (k.updateInsufficientFundsError ctx address amt err).Short := by
  have hcase : err.isInsufficientFunds = true := hshort
  unfold updateInsufficientFundsError
  rw [if_pos hcase]
  rfl

/-- Every error but for want of funds is ruled out, step by step. -/
theorem failsShort_sendIntegerCoins (hbank : Lawful k.bk k.modules) (hfails : FailsShort k.bk k.modules)
    {amt integerAmt : ℤ} {needsBorrow needsCarry : Bool} (hsender : sender ≠ k.reserve.address)
    (hrecipient : recipient ≠ k.reserve.address) (hnonneg : 0 ≤ integerAmt)
    (hreserve : needsBorrow = false → needsCarry = true →
      1 ≤ k.bk.getBalance ctx.store.sdk k.reserve.address k.integerCoinDenom) :
    FailsWith Err.Short (k.sendIntegerCoins ctx sender recipient amt integerAmt needsBorrow needsCarry) := by
  have hupdate : ∀ err : Err, err.Short → (k.updateInsufficientFundsError ctx sender amt err).Short :=
    fun err hshort => short_updateInsufficientFundsError hshort sender amt
  unfold sendIntegerCoins
  refine FailsWith.bind (.ite (fun _ => ?_) fun _ => .ok ctx) fun ctx₁ hdirect => ?_
  · refine (failsWith_callBank (hfails.sendCoins (isValid_integerCoins ?_))).mapError hupdate
    split <;> omega
  refine FailsWith.bind (.ite (fun _ => ?_) fun _ => .ok ctx₁) fun ctx₂ hborrow => ?_
  · rw [show (fun s => k.bk.sendCoinsFromAccountToModule s sender moduleName (k.integerCoins 1)) =
      fun s => k.bk.sendCoins s sender k.reserve.address (k.integerCoins 1) from funext fun s =>
        hbank.sendCoinsFromAccountToModule_eq k.getModuleAccount_moduleName]
    exact (failsWith_callBank (hfails.sendCoins (isValid_integerCoins zero_le_one))).mapError
      fun err hshort => short_updateInsufficientFundsError hshort sender amt
  refine .ite (fun hcase => ?_) fun _ => .ok ctx₂
  -- the carry is paid by the reserve, which the transfer has not touched
  rw [Bool.and_eq_true, Bool.not_eq_true'] at hcase
  obtain ⟨hnone, hcarry⟩ := hcase
  rw [hnone] at hborrow
  cases hborrow
  have hmove := BankMove.ite (fun h => bankMove_sendCoins (mapError_eq_ok_iff.mp h)) hdirect
  have hkept : k.bk.spendableCoin ctx₁.store.sdk k.reserve.address k.integerCoinDenom =
      k.bk.getBalance ctx.store.sdk k.reserve.address k.integerCoinDenom := by
    rw [hmove.measure_eq (hbank.tracks_spendable k.reserve.address), weightOf_of_ne hsender,
      weightOf_of_ne hrecipient, sub_self, zero_mul, ite_self, add_zero,
      hbank.module_spendable k.getModuleAccount_moduleName]
  obtain ⟨ctx₃, hsend⟩ : ∃ ctx₃, callBank ctx₁ (fun s => k.bk.sendCoins s k.reserve.address recipient
      (k.integerCoins 1)) = .ok ctx₃ := by
    rw [exists_sendCoins_integerCoins_iff hbank zero_le_one, hkept]
    exact hreserve hnone hcarry
  refine .of_exists_ok ⟨ctx₃, mapError_eq_ok_iff.mpr ?_⟩
  rw [k.getModuleAddress_moduleName]
  exact hsend

theorem failsWith_setFractionalBalance {address : AccAddress} (haddress : address ≠ [])
    (hamount : IsDigit k.conversionFactor amount) :
    FailsWith kind (k.setFractionalBalance ctx address amount) :=
  .of_exists_ok ⟨_, setFractionalBalance_eq_ok_iff.mpr ⟨haddress, hamount, rfl⟩⟩

theorem failsWith_setRemainderAmount (hamount : IsDigit k.conversionFactor amount) :
    FailsWith kind (k.setRemainderAmount ctx amount) :=
  .of_exists_ok ⟨_, setRemainderAmount_eq_ok_iff.mpr ⟨hamount, rfl⟩⟩

theorem failsShort_sendExtendedCoins (hbank : Lawful k.bk k.modules) (hfails : FailsShort k.bk k.modules)
    (hbacked : Backed k ctx) {amt : ℤ} (hsender : sender ≠ k.reserve.address)
    (hrecipient : recipient ≠ k.reserve.address) (hsender' : sender ≠ []) (hrecipient' : recipient ≠ [])
    (hamt : 0 ≤ amt) : FailsWith Err.Short (k.sendExtendedCoins ctx sender recipient amt) := by
  by_cases hne : sender = recipient
  · subst hne
    rw [sendExtendedCoins_self hsender]
    exact .ok ctx
  have hf := hbacked.fractional sender
  have hg := hbacked.fractional recipient
  have he := k.isDigit_fraction amt
  unfold sendExtendedCoins
  simp only [k.getModuleAddress_moduleName, hsender, hrecipient, hne, or_self, if_false,
    Int.tdiv_eq_ediv_of_nonneg hamt]
  rw [subFromFractionalBalance_eq hf he, addToFractionalBalance_eq hg he]
  refine FailsWith.bind (.ok _) fun debited hdebited => FailsWith.bind (.ok _) fun credited hcredited => ?_
  cases hdebited
  cases hcredited
  refine FailsWith.bind (failsShort_sendIntegerCoins hbank hfails hsender hrecipient
    (Int.ediv_nonneg hamt k.conversionFactor_pos.le) fun hborrow hcarry => ?_) fun ctx₁ _ => ?_
  · have hb := of_decide_eq_false hborrow
    have hc := of_decide_eq_true hcarry
    exact hbacked.coversCarries.balances hne (by linarith)
  refine FailsWith.bind (failsWith_setFractionalBalance hsender' (isDigit_sub_add_borrow hf he))
    fun ctx₂ _ => ?_
  exact FailsWith.bind (failsWith_setFractionalBalance hrecipient' (isDigit_add_sub_carry hg he))
    fun ctx₃ _ => .ok _

theorem failsShort_burnExtendedCoin (hbank : Lawful k.bk k.modules) (hfails : FailsShort k.bk k.modules)
    (hbacked : Backed k ctx) {amt : ℤ} (hname : name ≠ moduleName)
    (hacc : k.modules.getModuleAccount name = some acc) (hburner : .burner ∈ acc.permissions) (hamt : 0 ≤ amt) :
    FailsWith Err.Short (k.burnExtendedCoin ctx name amt) := by
  have hf := hbacked.fractional acc.address
  have hr := hbacked.remainder
  have he := k.isDigit_fraction amt
  have hnonneg : 0 ≤ amt.tdiv k.conversionFactor := Int.tdiv_nonneg hamt k.conversionFactor_pos.le
  have haddress : k.modules.getModuleAddress name = acc.address :=
    k.modules.getModuleAddress_eq hacc
  unfold burnExtendedCoin
  simp only [hname, if_false, haddress]
  refine FailsWith.bind (.ite (fun _ => ?_) fun _ => .ok ctx) fun ctx₁ _ => ?_
  · rw [show (fun s => k.bk.sendCoinsFromModuleToModule s name moduleName (k.integerCoins 1)) =
      fun s => k.bk.sendCoins s acc.address k.reserve.address (k.integerCoins 1) from funext fun s =>
        hbank.sendCoinsFromModuleToModule_eq hacc k.getModuleAccount_moduleName]
    exact (failsWith_callBank (hfails.sendCoins (isValid_integerCoins zero_le_one))).mapError
      fun err hshort => short_updateInsufficientFundsError hshort acc.address amt
  refine FailsWith.bind (.ite (fun _ => ?_) fun _ => .ok ctx₁) fun ctx₂ _ => ?_
  · exact (failsWith_callBank (hfails.burnCoins k.getModuleAccount_moduleName k.burner_mem
      (isValid_integerCoins zero_le_one))).mapError fun err hshort => hshort.wrap _
  refine FailsWith.bind (.ite (fun _ => ?_) fun _ => .ok ctx₂) fun ctx₃ _ => ?_
  · refine (failsWith_callBank (hfails.burnCoins hacc hburner (isValid_integerCoins ?_))).mapError
      fun err hshort => short_updateInsufficientFundsError hshort acc.address amt
    split <;> omega
  refine FailsWith.bind (failsWith_setFractionalBalance acc.address_ne_nil ?_) fun ctx₄ _ =>
    FailsWith.bind (failsWith_setRemainderAmount ?_) fun ctx₅ _ => .ok _
  · have hdigit := isDigit_sub_add_borrow hf he
    rw [← ite_lt_sub_eq] at hdigit
    simpa only [sub_neg] using hdigit
  · have hdigit := isDigit_add_sub_carry hr he
    rw [← ite_le_add_eq] at hdigit
    exact hdigit

theorem failsShort_passthrough_burnCoins (hfails : FailsShort k.bk k.modules)
    (hacc : k.modules.getModuleAccount name = some acc) (hburner : .burner ∈ acc.permissions)
    (hvalid : amt.IsValid) :
    FailsWith Err.Short (if k.passthroughCoins amt ≠ [] then
        callBank ctx fun s => k.bk.burnCoins s name (k.passthroughCoins amt)
      else .ok ctx) :=
  .ite (fun _ => failsWith_callBank (hfails.burnCoins hacc hburner (isValid_passthroughCoins hvalid)))
    fun _ => .ok ctx

theorem failsShort_sendCoins (hbank : Lawful k.bk k.modules) (hfails : FailsShort k.bk k.modules)
    (hbacked : Backed k ctx) (hsender : sender ≠ k.reserve.address)
    (hrecipient : recipient ≠ k.reserve.address) (hsender' : sender ≠ []) (hrecipient' : recipient ≠ [])
    (hvalid : amt.IsValid) : FailsWith Err.Short (k.sendCoins ctx sender recipient amt) := by
  unfold sendCoins
  rw [if_neg (not_not.mpr hvalid)]
  refine FailsWith.bind (.ite (fun _ => ?_) fun _ => .ok ctx) fun ctx₁ hpass => ?_
  · exact failsWith_callBank (hfails.sendCoins (isValid_passthroughCoins hvalid))
  have hbacked₁ : Backed k ctx₁ := by
    refine hbacked.of_bankMove hbank.toMovesExactly (bankMove_passthrough_sendCoins hvalid hpass) ?_
    simp [weightOf_of_ne hsender, weightOf_of_ne hrecipient]
  exact .ite (fun hpos => failsShort_sendExtendedCoins hbank hfails hbacked₁ hsender hrecipient hsender'
    hrecipient' hpos.le) fun _ => .ok ctx₁

theorem checkModule_eq_ok {permission : Permission} (hname : name ≠ moduleName)
    (hacc : k.modules.getModuleAccount name = some acc) (hpermission : permission ∈ acc.permissions)
    (hvalid : amt.IsValid) (reserveText permissionText : String) :
    k.checkModule name permission amt reserveText permissionText = .ok () :=
  checkModule_eq_ok_iff.mpr ⟨hname, ⟨acc, hacc, hpermission⟩, hvalid⟩

theorem failsShort_burnCoins (hbank : Lawful k.bk k.modules) (hfails : FailsShort k.bk k.modules)
    (hbacked : Backed k ctx) (hname : name ≠ moduleName) (hacc : k.modules.getModuleAccount name = some acc)
    (hburner : .burner ∈ acc.permissions) (hvalid : amt.IsValid) :
    FailsWith Err.Short (k.burnCoins ctx name amt) := by
  unfold burnCoins
  rw [checkModule_eq_ok hname hacc hburner hvalid]
  refine FailsWith.bind (.ok ()) fun _ _ =>
    FailsWith.bind (failsShort_passthrough_burnCoins hfails hacc hburner hvalid) fun ctx₁ hpass => ?_
  have hbacked₁ : Backed k ctx₁ := by
    refine hbacked.of_bankMove hbank.toMovesExactly (bankMove_passthrough_burnCoins hacc hpass) ?_
    simp [weightOf_of_ne (module_address_ne_reserve hname hacc)]
  exact .ite (fun hpos => failsShort_burnExtendedCoin hbank hfails hbacked₁ hname hacc hburner hpos.le)
    fun _ => .ok ctx₁

end

/-- What the account can spend covers the coins: their value in extended units and every other
denomination. -/
def Covers (k : Keeper S) (ctx : Ctx S) (address : AccAddress) (amt : Coins) : Prop :=
  k.movedValue amt ≤ k.spendableCoin ctx address k.extendedCoinDenom ∧
    ∀ denom, denom ≠ k.extendedCoinDenom → denom ≠ k.integerCoinDenom →
      amt.amountOf denom ≤ k.spendableCoin ctx address denom

section

variable {amt : Coins} {name : ModuleName} {acc : ModuleAccount} (hbank : Lawful k.bk k.modules)
  (hbacked : Backed k ctx)

include hbank hbacked

theorem Covers.passthrough {address : AccAddress} (haddress : address ≠ k.reserve.address)
    (hvalid : amt.IsValid) (hcovers : k.Covers ctx address amt) (denom : Denom) :
    (k.passthroughCoins amt).amountOf denom ≤ k.bk.spendableCoin ctx.store.sdk address denom := by
  by_cases hinteger : denom = k.integerCoinDenom
  · rw [hinteger]
    exact passthrough_le_of_movedValue_le hbacked haddress hvalid hcovers.1
  rw [amountOf_passthroughCoins hvalid]
  by_cases hextended : denom = k.extendedCoinDenom
  · rw [if_pos hextended]
    exact hbank.spendable_nonneg ctx.store.sdk address denom
  · rw [if_neg hextended, ← spendableCoin_of_ne hextended]
    exact hcovers.2 denom hextended hinteger

theorem exists_sendCoins_of_covers {sender recipient : AccAddress} (hsender : sender ≠ k.reserve.address)
    (hrecipient : recipient ≠ k.reserve.address) (hsender' : sender ≠ []) (hrecipient' : recipient ≠ [])
    (hvalid : amt.IsValid) (hcovers : k.Covers ctx sender amt) :
    ∃ ctx', k.sendCoins ctx sender recipient amt = .ok ctx' := by
  by_cases hne : sender = recipient
  swap
  · exact (exists_sendCoins_iff hbank hbacked hsender hrecipient hne hsender' hrecipient' hvalid).mpr hcovers
  -- what an account sends to itself passes the bank, and its extended coins do not move at all
  subst hne
  obtain ⟨ctx₁, hpass⟩ := (exists_passthrough_sendCoins_iff hbank hvalid).mpr
    (hcovers.passthrough hbank hbacked hsender hvalid)
  refine ⟨ctx₁, sendCoins_eq_ok_iff.mpr ⟨hvalid, ctx₁, hpass, ?_⟩⟩
  rw [sendExtendedCoins_self hsender, ite_self]

theorem exists_burnCoins_of_covers (hname : name ≠ moduleName)
    (hacc : k.modules.getModuleAccount name = some acc) (hburner : .burner ∈ acc.permissions)
    (hvalid : amt.IsValid) (hcovers : k.Covers ctx acc.address amt) :
    ∃ ctx', k.burnCoins ctx name amt = .ok ctx' := by
  have hreserve := module_address_ne_reserve hname hacc
  obtain ⟨ctx₁, hfirst⟩ := (exists_passthrough_burnCoins_iff hbank hacc hburner hvalid).mpr
    (hcovers.passthrough hbank hbacked hreserve hvalid)
  have hmove := bankMove_passthrough_burnCoins hacc hfirst
  have hbacked₁ : Backed k ctx₁ := by
    refine hbacked.of_bankMove hbank.toMovesExactly hmove ?_
    simp [weightOf_of_ne hreserve]
  have hleft : k.getBalance ctx₁ acc.address k.extendedCoinDenom =
      k.spendableCoin ctx acc.address k.extendedCoinDenom -
        (k.passthroughCoins amt).amountOf k.integerCoinDenom * k.conversionFactor := by
    rw [getBalance_extendedCoinDenom hreserve, hmove.valueOf_eq (hbank.tracks_balance acc.address),
      spendableCoin_extendedCoinDenom hreserve, weightOf_self, valueOf, valueOf, hbank.module_spendable hacc]
    ring
  have hrest : amt.amountOf k.extendedCoinDenom ≤ k.getBalance ctx₁ acc.address k.extendedCoinDenom := by
    have hvalue := hcovers.1
    unfold movedValue at hvalue
    linarith
  obtain ⟨ctx', hsecond⟩ : ∃ ctx', (if 0 < amt.amountOf k.extendedCoinDenom then
        k.burnExtendedCoin ctx₁ name (amt.amountOf k.extendedCoinDenom)
      else .ok ctx₁) = .ok ctx' := by
    by_cases hpos : 0 < amt.amountOf k.extendedCoinDenom
    · rw [if_pos hpos]
      exact (exists_burnExtendedCoin_iff hbank hbacked₁.coversCarries hname hacc hburner hpos.le).mpr hrest
    · exact ⟨ctx₁, if_neg hpos⟩
  exact ⟨ctx', burnCoins_eq_ok_iff.mpr ⟨⟨hname, ⟨acc, hacc, hburner⟩, hvalid⟩, ctx₁, hfirst, hsecond⟩⟩

end

/-- The call does not panic, and it succeeds where the funds are there. -/
def Sound (call : Except Err (Ctx S)) (funded : Prop) : Prop :=
  (∀ text, call ≠ .error (.panicked text)) ∧ (funded → ∃ ctx', call = .ok ctx')

theorem Sound.of_failsShort {call : Except Err (Ctx S)} {funded : Prop}
    (hfails : FailsWith Err.Short call) (hfunded : funded → ∃ ctx', call = .ok ctx') : Sound call funded :=
  ⟨fun text hpanic => Bool.false_ne_true (hfails (.panicked text) hpanic), hfunded⟩

/-- From a backed state nothing but the funds decides: no carry, no fraction and no write of an operation
panics, a mint succeeds, and a send and a burn succeed as soon as the coins are covered. -/
theorem sound_of_backed (hbank : Lawful k.bk k.modules) (hfails : FailsShort k.bk k.modules)
    (hbacked : Backed k ctx) {amt : Coins} (hvalid : amt.IsValid) :
    (∀ sender recipient : AccAddress, sender ≠ [] → recipient ≠ [] → sender ≠ k.reserve.address →
      recipient ≠ k.reserve.address →
        Sound (k.sendCoins ctx sender recipient amt) (k.Covers ctx sender amt)) ∧
    ∀ (name : ModuleName) (acc : ModuleAccount), name ≠ moduleName →
      k.modules.getModuleAccount name = some acc →
        (.minter ∈ acc.permissions → Sound (k.mintCoins ctx name amt) True) ∧
        (.burner ∈ acc.permissions →
          Sound (k.burnCoins ctx name amt) (k.Covers ctx acc.address amt)) := by
  refine ⟨fun sender recipient hsender' hrecipient' hsender hrecipient => ?_,
    fun name acc hname hacc => ⟨fun hminter => ?_, fun hburner => ?_⟩⟩
  · exact .of_failsShort
      (failsShort_sendCoins hbank hfails hbacked hsender hrecipient hsender' hrecipient' hvalid)
      (exists_sendCoins_of_covers hbank hbacked hsender hrecipient hsender' hrecipient' hvalid)
  · have hok : ∃ ctx', k.mintCoins ctx name amt = .ok ctx' := by
      refine exists_mintCoins hbank hname hacc hminter hvalid fun hmove =>
        (hbacked.of_bankMove hbank.toMovesExactly hmove ?_).coversCarries
      simp [weightOf_of_ne (module_address_ne_reserve hname hacc)]
    exact .of_failsShort (.of_exists_ok hok) fun _ => hok
  · exact .of_failsShort (failsShort_burnCoins hbank hfails hbacked hname hacc hburner hvalid)
      (exists_burnCoins_of_covers hbank hbacked hname hacc hburner hvalid)

theorem failsShort_preciseBankKeeper (coinInfo : EvmCoinInfo) :
    FailsShort (Evmd.preciseBankKeeper coinInfo).bk (Evmd.preciseBankKeeper coinInfo).modules where
  sendCoins {ledger sender recipient amt} _ := by
    change FailsWith Err.Short (Ledger.sendCoins textCodec ledger sender recipient amt)
    intro err herr
    unfold Ledger.sendCoins at herr
    split_ifs at herr
    cases herr
    rfl
  burnCoins {ledger name acc amt} hacc _ _ := by
    change FailsWith Err.Short (Ledger.burnCoins textCodec ledger name amt)
    change Evmd.moduleAccounts.getModuleAccount name = some acc at hacc
    intro err herr
    unfold Ledger.burnCoins at herr
    rw [hacc] at herr
    dsimp only at herr
    split_ifs at herr
    cases herr
    rfl

/-- Two accounts hold 0.6 of a coin each. Half a coin more makes the second one carry, and the reserve has
the coin for it. -/
theorem sound_carry :
    let alice : AccAddress := List.replicate 20 7
    let bob : AccAddress := List.replicate 20 8
    let k := Evmd.preciseBankKeeper Evmd.sixDecimalsCoin
    let calls : List Call := [.mintCoins "evm" [⟨"atest", 1200000000000⟩],
      .sendCoinsFromModuleToAccount "evm" alice [⟨"atest", 600000000000⟩],
      .sendCoinsFromModuleToAccount "evm" bob [⟨"atest", 600000000000⟩]]
    ∃ ctx, run (Call.exec k) (Evmd.genesisContext []) calls = .ok ctx ∧
      Sound (k.sendCoins ctx alice bob [⟨"atest", 500000000000⟩])
        (k.Covers ctx alice [⟨"atest", 500000000000⟩]) ∧
      Sound (k.burnCoins ctx "evm" [⟨"atest", 1⟩])
        (k.Covers ctx (Evmd.moduleAddress "evm").bytes [⟨"atest", 1⟩]) ∧
      ∃ ctx', k.sendCoins ctx alice bob [⟨"atest", 500000000000⟩] = .ok ctx' := by
  intro alice bob k calls
  have hsome : (run (Call.exec k) (Evmd.genesisContext []) calls).toOption.isSome = true := by
    decide +kernel
  obtain ⟨ctx, hrun⟩ := exists_eq_ok_of_isSome hsome
  have hbacked : Backed k ctx := (backedWith_of_run (Evmd.preciseBankKeeper_lawful _).toMovesExactly
    (by decide +kernel) (backed_genesisContext _ [] rfl).backedWith hrun).backed
  have hhalf : Coins.IsValid [⟨"atest", 500000000000⟩] := by decide
  have hone : Coins.IsValid [⟨"atest", 1⟩] := by decide
  have hsend := (sound_of_backed (Evmd.preciseBankKeeper_lawful Evmd.sixDecimalsCoin)
    (failsShort_preciseBankKeeper _) hbacked hhalf).1 alice bob
      (by decide) (by decide) (by decide +kernel) (by decide +kernel)
  have hburn := (sound_of_backed (Evmd.preciseBankKeeper_lawful Evmd.sixDecimalsCoin)
    (failsShort_preciseBankKeeper _) hbacked hone).2 "evm"
      (Evmd.moduleAccount "evm" [.minter, .burner]) (by decide) rfl
  have hvalue : (run (Call.exec k) (Evmd.genesisContext []) calls).toOption.map
      (fun ctx => k.spendableCoin ctx alice "atest") = some 600000000000 := by decide +kernel
  rw [hrun] at hvalue
  have hspendable : k.spendableCoin ctx alice "atest" = 600000000000 := Option.some.inj hvalue
  refine ⟨ctx, hrun, hsend, hburn.2 (by decide), hsend.2 ⟨?_, fun denom hdenom _ => ?_⟩⟩
  · change _ ≤ k.spendableCoin ctx alice "atest"
    rw [hspendable]
    decide +kernel
  · rw [spendableCoin_of_ne hdenom, Coins.amountOf_eq_zero_of_forall_ne]
    · exact (Evmd.preciseBankKeeper_lawful Evmd.sixDecimalsCoin).spendable_nonneg ctx.store.sdk alice denom
    · intro coin hcoin heq
      rw [List.mem_singleton.mp hcoin] at heq
      exact hdenom heq.symm

end PreciseBank.Keeper

end CosmosEvm
