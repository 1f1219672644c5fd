import CosmosEvm.PreciseBank.Flow
import CosmosEvm.PreciseBank.PlainCoin
import CosmosEvm.PreciseBank.Reserve
import CosmosEvm.Sdk.CodecLaws

namespace CosmosEvm.PreciseBank.Keeper

open Result BankKeeper SparseLedger

variable {S : Type}

/-- `IsSendEnabledCoin`, from what `x/bank` says of the coins it knows. -/
def isSendEnabledCoin (k : Keeper S) (sendEnabled : S → Denom → Bool) (ctx : Ctx S)
    (denom : Denom) : Bool :=
  sendEnabled ctx.store.sdk (if denom = k.extendedCoinDenom then k.integerCoinDenom else denom)

def isSendEnabledCoins (k : Keeper S) (sendEnabled : S → Denom → Bool) (ctx : Ctx S) :
    Coins → Except Err Unit
  | [] => .ok ()
  | coin :: coins =>
    if k.isSendEnabledCoin sendEnabled ctx coin.denom = false then
      .error (.wrapped .other (coin.denom ++ " transfers are currently disabled: send transactions are disabled"))
    else k.isSendEnabledCoins sendEnabled ctx coins

structure MsgSend where
  fromAddress : String
  toAddress : String
  amount : Coins

def messageAddress (k : Keeper S) (role text : String) : Except Err AccAddress :=
  match k.codec.accAddressFromBech32 text with
  | none => .error (.wrapped .other
      ("invalid " ++ role ++ " address: decoding bech32 failed: invalid address"))
  | some address => .ok address

def send (k : Keeper S) (sendEnabled : S → Denom → Bool) (ctx : Ctx S) (msg : MsgSend) :
    Except Err (Ctx S) := do
  let sender ← k.messageAddress "from" msg.fromAddress
  let recipient ← k.messageAddress "to" msg.toAddress
  ensure msg.amount.IsValid (.wrapped .invalidCoins (k.codec.coinsString msg.amount))
  ensure (msg.amount.isAllPositive = true) (.wrapped .invalidCoins (k.codec.coinsString msg.amount))
  k.isSendEnabledCoins sendEnabled ctx msg.amount
  ensure (k.bk.blockedAddr recipient = false)
    (.wrapped .unauthorized (msg.toAddress ++ " is not allowed to receive funds"))
  k.sendCoins ctx sender recipient msg.amount

variable {k : Keeper S} {sendEnabled : S → Denom → Bool} {ctx ctx' : Ctx S}
  {sender recipient : AccAddress} {denom : Denom} {amt : ℤ}

theorem send_singleton_eq_ok_iff (hcodec : k.codec.RoundTrips) (hsender : sender ≠ [])
    (hrecipient : recipient ≠ []) :
    k.send sendEnabled ctx ⟨k.codec.accAddressString sender, k.codec.accAddressString recipient,
        [⟨denom, amt⟩]⟩ = .ok ctx' ↔
      k.isSendEnabledCoin sendEnabled ctx denom = true ∧ k.bk.blockedAddr recipient = false ∧
        k.sendCoins ctx sender recipient [⟨denom, amt⟩] = .ok ctx' := by
  have hpositive : Coins.IsValid [⟨denom, amt⟩] → Coins.isAllPositive [⟨denom, amt⟩] = true :=
    fun hvalid => hvalid.isAllPositive_iff.mpr (List.cons_ne_nil _ _)
  have henabled : ∀ {done : Unit}, k.isSendEnabledCoins sendEnabled ctx [⟨denom, amt⟩] = .ok done ↔
      k.isSendEnabledCoin sendEnabled ctx denom = true := by
    intro done
    rw [isSendEnabledCoins, ite_error_eq_ok_iff, Bool.not_eq_false]
    exact and_iff_left rfl
  unfold send messageAddress
  rw [hcodec.accAddress hsender, hcodec.accAddress hrecipient]
  simp only [bind_eq_ok_iff, ensure_eq_ok_iff, Except.ok.injEq, exists_eq_left', henabled, exists_const]
  constructor
  · rintro ⟨-, -, hcoin, hblocked, hsend⟩
    exact ⟨hcoin, hblocked, hsend⟩
  · rintro ⟨hcoin, hblocked, hsend⟩
    have hvalid := (sendCoins_eq_ok_iff.mp hsend).1
    exact ⟨hvalid, hpositive hvalid, hcoin, hblocked, hsend⟩

theorem sendCoins_singleton_extended (hpos : 0 < amt) :
    k.sendCoins ctx sender recipient [⟨k.extendedCoinDenom, amt⟩] = .ok ctx' ↔
      k.sendExtendedCoins ctx sender recipient amt = .ok ctx' := by
  have hcoins : k.extendedCoins amt = [⟨k.extendedCoinDenom, amt⟩] := by
    rw [extendedCoins, Coins.newCoins, if_neg hpos.ne']
  rw [← hcoins, sendCoins_extendedCoins hpos.le, if_pos hpos]

theorem exists_sendCoins_singleton_iff (hbank : Lawful k.bk k.modules) (hbacked : Backed k ctx)
    (hsender : sender ≠ k.reserve.address) (hrecipient : recipient ≠ k.reserve.address)
    (hsender' : sender ≠ []) (hrecipient' : recipient ≠ []) :
    (∃ ctx', k.sendCoins ctx sender recipient [⟨denom, amt⟩] = .ok ctx') ↔
      validateDenom denom = true ∧ 0 < amt ∧ (amt ≤ k.spendableCoin ctx sender denom ∨
        sender = recipient ∧ denom = k.extendedCoinDenom) := by
  by_cases hvalid : Coins.IsValid [⟨denom, amt⟩]
  swap
  · refine iff_of_false (fun ⟨ctx', hok⟩ => hvalid (sendCoins_eq_ok_iff.mp hok).1) ?_
    rintro ⟨hdenom, hpos, -⟩
    exact hvalid (isValid_singleton_iff.mpr ⟨hdenom, hpos⟩)
  obtain ⟨hdenom, hpos⟩ := isValid_singleton_iff.mp hvalid
  simp only [hdenom, hpos, true_and]
  by_cases hext : denom = k.extendedCoinDenom
  · subst hext
    simp only [sendCoins_singleton_extended hpos, and_true]
    by_cases hne : sender = recipient
    · subst hne
      exact iff_of_true ⟨ctx, sendExtendedCoins_self hsender amt⟩ (.inr rfl)
    · simp only [hne, or_false]
      exact exists_sendExtendedCoins_iff hbank hbacked.coversCarries hsender hrecipient hne hsender' hrecipient'
        hpos.le
  · simp only [hext, and_false, or_false]
    rw [spendableCoin_of_ne hext]
    exact exists_sendPlainCoin_iff hbank hext hvalid

theorem spendableCoin_sendCoins_singleton (hbank : Lawful k.bk k.modules) (hbacked : Backed k ctx)
    (hsender : sender ≠ k.reserve.address) (hrecipient : recipient ≠ k.reserve.address)
    (hok : k.sendCoins ctx sender recipient [⟨denom, amt⟩] = .ok ctx') {a : AccAddress}
    (ha : a ≠ k.reserve.address) :
    k.spendableCoin ctx' a denom =
      k.spendableCoin ctx a denom + (weightOf a recipient - weightOf a sender) * amt := by
  obtain ⟨hvalid, -⟩ := sendCoins_eq_ok_iff.mp hok
  obtain ⟨-, hpos⟩ := isValid_singleton_iff.mp hvalid
  by_cases hext : denom = k.extendedCoinDenom
  · subst hext
    rw [spendableCoin_extendedCoinDenom ha, spendableCoin_extendedCoinDenom ha]
    have hsent := fractionalSend_of_ok hbank.toMovesExactly hbacked.fractional hsender hrecipient hpos.le
      ((sendCoins_singleton_extended hpos).mp hok)
    exact hsent.valueOf_eq (hbank.tracks_spendable a) ha
  · have hmove := (bankMove_sendCoins_singleton hext hok).measure_eq (hbank.tracks_spendable a) denom
    rw [spendableCoin_of_ne hext, spendableCoin_of_ne hext]
    simpa [Coins.amountOf_cons] using hmove

structure KeepsSupply (k : Keeper S) (ctx ctx' : Ctx S) : Prop where
  getSupply_eq : ∀ denom, k.bk.getSupply ctx'.store.sdk denom = k.bk.getSupply ctx.store.sdk denom
  getRemainderAmount_eq : getRemainderAmount ctx' = getRemainderAmount ctx

namespace KeepsSupply

theorem refl (ctx : Ctx S) : KeepsSupply k ctx ctx := ⟨fun _ => rfl, rfl⟩

theorem trans {ctx'' : Ctx S} (hfirst : KeepsSupply k ctx ctx')
    (hsecond : KeepsSupply k ctx' ctx'') : KeepsSupply k ctx ctx'' where
  getSupply_eq denom := (hsecond.getSupply_eq denom).trans (hfirst.getSupply_eq denom)
  getRemainderAmount_eq := hsecond.getRemainderAmount_eq.trans hfirst.getRemainderAmount_eq

theorem circulatingValue_eq (hkeeps : KeepsSupply k ctx ctx') :
    k.circulatingValue ctx' = k.circulatingValue ctx := by
  rw [circulatingValue, hkeeps.getSupply_eq, hkeeps.getRemainderAmount_eq, circulatingValue]

theorem of_bankMove (hbank : Lawful k.bk k.modules) {flow : (AccAddress → ℤ) → Denom → ℤ}
    (hmove : BankMove k ctx ctx' flow) (hflow : ∀ denom, flow (fun _ => 1) denom = 0) :
    KeepsSupply k ctx ctx' where
  getSupply_eq denom := by
    rw [hmove.measure_eq hbank.tracks_supply denom, hflow, add_zero]
  getRemainderAmount_eq := hmove.getRemainderAmount_eq

theorem of_sendCoins (hbank : Lawful k.bk k.modules) {amt : Coins}
    (hok : callBank ctx (fun s => k.bk.sendCoins s sender recipient amt) = .ok ctx') :
    KeepsSupply k ctx ctx' :=
  of_bankMove hbank (bankMove_sendCoins hok) fun denom => by rw [sub_self, zero_mul]

theorem of_ite {condition : Prop} [Decidable condition] {call : Except Err (Ctx S)}
    (hcall : call = .ok ctx' → KeepsSupply k ctx ctx')
    (hok : (if condition then call else .ok ctx) = .ok ctx') : KeepsSupply k ctx ctx' := by
  rcases ite_eq_ok_iff.mp hok with ⟨-, hok⟩ | ⟨-, rfl⟩
  · exact hcall hok
  · exact refl ctx

theorem of_setFractionalBalance {address : AccAddress} {amount : ℤ}
    (hok : k.setFractionalBalance ctx address amount = .ok ctx') : KeepsSupply k ctx ctx' := by
  obtain ⟨-, -, rfl⟩ := setFractionalBalance_eq_ok_iff.mp hok
  exact ⟨fun _ => rfl, rfl⟩

theorem of_sendIntegerCoins (hbank : Lawful k.bk k.modules) {integerAmt : ℤ} {needsBorrow needsCarry : Bool}
    (hok : k.sendIntegerCoins ctx sender recipient amt integerAmt needsBorrow needsCarry = .ok ctx') :
    KeepsSupply k ctx ctx' := by
  unfold sendIntegerCoins at hok
  obtain ⟨ctx₁, hdirect, hok⟩ := bind_eq_ok_iff.mp hok
  obtain ⟨ctx₂, hborrow, hcarry⟩ := bind_eq_ok_iff.mp hok
  simp only [hbank.sendCoinsFromAccountToModule_eq k.getModuleAccount_moduleName] at hborrow
  have hfirst := of_ite (fun h => of_sendCoins hbank (mapError_eq_ok_iff.mp h)) hdirect
  have hsecond := of_ite (fun h => of_sendCoins hbank (mapError_eq_ok_iff.mp h)) hborrow
  exact (hfirst.trans hsecond).trans (of_ite (fun h => of_sendCoins hbank (mapError_eq_ok_iff.mp h)) hcarry)

theorem of_sendExtendedCoins (hbank : Lawful k.bk k.modules)
    (hok : k.sendExtendedCoins ctx sender recipient amt = .ok ctx') : KeepsSupply k ctx ctx' := by
  unfold sendExtendedCoins at hok
  dsimp only at hok
  split_ifs at hok with hreserve hself
  · exact of_ite (fun h => of_sendCoins hbank (mapError_eq_ok_iff.mp h)) hok
  · cases hok
    exact refl ctx
  · obtain ⟨⟨newSender, needsBorrow⟩, -, hok⟩ := bind_eq_ok_iff.mp hok
    obtain ⟨⟨newRecipient, needsCarry⟩, -, hok⟩ := bind_eq_ok_iff.mp hok
    obtain ⟨ctx₁, hinteger, hok⟩ := bind_eq_ok_iff.mp hok
    obtain ⟨ctx₂, hsender, hok⟩ := bind_eq_ok_iff.mp hok
    obtain ⟨ctx₃, hrecipient, hok⟩ := bind_eq_ok_iff.mp hok
    cases hok
    have hmoved := of_sendIntegerCoins hbank hinteger
    have hwritten := (hmoved.trans (of_setFractionalBalance hsender)).trans
      (of_setFractionalBalance hrecipient)
    exact ⟨hwritten.getSupply_eq, hwritten.getRemainderAmount_eq⟩

theorem of_send (hbank : Lawful k.bk k.modules) {amt : Coins}
    (hok : k.sendCoins ctx sender recipient amt = .ok ctx') : KeepsSupply k ctx ctx' := by
  obtain ⟨-, ctx₁, hpass, hextended⟩ := sendCoins_eq_ok_iff.mp hok
  exact (of_ite (of_sendCoins hbank) hpass).trans (of_ite (of_sendExtendedCoins hbank) hextended)

end KeepsSupply

end CosmosEvm.PreciseBank.Keeper
