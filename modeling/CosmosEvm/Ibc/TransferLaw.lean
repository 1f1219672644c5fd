import CosmosEvm.Erc20.LedgerToken
import CosmosEvm.Ibc.Transfer

namespace CosmosEvm

namespace Ibc

def unboundedSpendLimit : ℤ := 2 ^ 256 - 1

/-- The text is the denomination or the contract of the pair, with or without the marker. -/
def Names (pair : Erc20.StoredPair) (text : String) : Prop :=
  trimErc20 text = pair.denom ∨
    isHexAddress (trimErc20 text) = true ∧ hexToAddress (trimErc20 text) = pair.getERC20Contract

end Ibc

namespace Erc20

open Ibc

namespace ConversionKeeper

open Result BankKeeper PreciseBank.Keeper

variable {S Acc : Type} (k : ConversionKeeper S Acc)

def sentAmount (ctx : Ctx S) (sender : AccAddress) (msg : MsgTransfer) : ℤ :=
  if msg.token.amount = unboundedSpendLimit then
    k.bank.bk.spendableCoin ctx.store.sdk sender msg.token.denom
  else msg.token.amount

/-- What is assumed of ICS20. It takes the amount from the sender's coins, or fails. It fails where the
sender cannot pay, or by what else it looks at, which minting coins for tokens does not change. It does not
touch the EVM. -/
structure Ics20Law (ics20 : Ics20 S) (admits : Ctx S → MsgTransfer → Prop) : Prop where
  exists_ok_iff : ∀ ctx msg, (∃ ctx', ics20 ctx msg = .ok ctx') ↔ admits ctx msg ∧ ∃ sender,
    k.bank.codec.accAddressFromBech32 msg.sender = some sender ∧ 0 < k.sentAmount ctx sender msg ∧
      k.sentAmount ctx sender msg ≤ k.bank.bk.spendableCoin ctx.store.sdk sender msg.token.denom
  store_eq : ∀ {ctx ctx' msg}, ics20 ctx msg = .ok ctx' →
    ctx'.store = { ctx.store with sdk := ctx'.store.sdk }
  getBalance_eq : ∀ {ctx ctx' msg sender}, ics20 ctx msg = .ok ctx' →
    k.bank.codec.accAddressFromBech32 msg.sender = some sender → ∀ denom,
      k.bank.bk.getBalance ctx'.store.sdk sender denom = k.bank.bk.getBalance ctx.store.sdk sender denom -
        if denom = msg.token.denom then k.sentAmount ctx sender msg else 0
  spendableCoin_eq : ∀ {ctx ctx' msg sender}, ics20 ctx msg = .ok ctx' →
    k.bank.codec.accAddressFromBech32 msg.sender = some sender →
      k.bank.bk.spendableCoin ctx'.store.sdk sender msg.token.denom =
        k.bank.bk.spendableCoin ctx.store.sdk sender msg.token.denom - k.sentAmount ctx sender msg
  admits_mintForTokens : ∀ {ctx ctx' pair convert receiver balanceToken balanceCoin msg},
    k.mintForTokens ctx pair convert receiver balanceToken balanceCoin = .ok ctx' →
      (admits ctx' msg ↔ admits ctx msg)

/-- What is assumed of the registry, and that its native ERC20s do not read the bank to tell a balance. -/
structure TokenRegistry (store : Store) : Prop where
  linked : k.lib.Linked store
  denom_ne : ∀ {id pair}, store.pairs.lookup id = some pair → pair.contractOwner = .external →
    pair.denom ≠ k.bank.extendedCoinDenom
  validateDenom_denom : ∀ {id pair}, store.pairs.lookup id = some pair → pair.contractOwner = .external →
    validateDenom pair.denom = true
  tokens_bank : ∀ {id pair}, store.pairs.lookup id = some pair → pair.contractOwner = .external →
    ∀ {ctx ctx' : Ctx S}, ctx'.store = { ctx.store with sdk := ctx'.store.sdk } →
      ∀ account, k.tokens ctx' pair account = k.tokens ctx pair account

structure TextLaws : Prop where
  lib : k.lib.Lawful
  accAddress : ∀ {text address}, k.bank.codec.accAddressFromBech32 text = some address →
    k.bank.codec.accAddressFromBech32 (k.bank.codec.accAddressString address) = some address

structure GivenUp (s s' : ModuleState S) (sender : AccAddress) (denom : Denom) (amount : ℤ) : Prop where
  coins_eq : ∀ other, other ≠ denom → k.bank.bk.getBalance s'.ctx.store.sdk sender other =
    k.bank.bk.getBalance s.ctx.store.sdk sender other
  pair_eq : ∀ {id pair}, s.store.pairs.lookup id = some pair → pair.contractOwner = .external →
    pair.denom = denom →
      k.bank.bk.getBalance s'.ctx.store.sdk sender denom + k.tokens s'.ctx pair (bytesToAddress sender) =
        k.bank.bk.getBalance s.ctx.store.sdk sender denom + k.tokens s.ctx pair (bytesToAddress sender) -
          amount
  coin_eq : (∀ {id pair}, s.store.pairs.lookup id = some pair → pair.contractOwner = .external →
    pair.denom ≠ denom) → k.bank.bk.getBalance s'.ctx.store.sdk sender denom =
      k.bank.bk.getBalance s.ctx.store.sdk sender denom - amount

structure Debited (s s' : ModuleState S) (msg : MsgTransfer) (sender : AccAddress) (denom : Denom)
    (amount : ℤ) : Prop extends k.GivenUp s s' sender denom amount where
  named : denom = msg.token.denom ∨ ∃ id pair, s.store.pairs.lookup id = some pair ∧
    Names pair msg.token.denom ∧ denom = pair.denom
  amount_eq : amount = msg.token.amount ∨ msg.token.amount = unboundedSpendLimit ∧
    k.bank.bk.spendableCoin s'.ctx.store.sdk sender denom = 0

/-- What a successful transfer debits is the coin and the amount that ICS20 was asked to send. -/
def DebitsNamed (ics20 : Ics20 S) (s : ModuleState S) (msg : MsgTransfer) : Prop :=
  ∀ s', k.transfer ics20 s msg = .ok s' → ∃ s₁ sent sender, k.prepareTransfer s msg = .ok (s₁, sent) ∧
    k.bank.codec.accAddressFromBech32 msg.sender = some sender ∧
    k.Debited s s' msg sender sent.token.denom (k.sentAmount s₁.ctx sender sent)

/-- A transfer that succeeds takes what its message names, and one that ICS20 would carry out succeeds. -/
def RefinesIcs20 (ics20 : Ics20 S) (s : ModuleState S) (msg : MsgTransfer) : Prop :=
  k.DebitsNamed ics20 s msg ∧
    ((∃ ctx', ics20 s.ctx msg = .ok ctx') → ∃ s', k.transfer ics20 s msg = .ok s')

def shortfall (s : ModuleState S) (msg : MsgTransfer) (pair : StoredPair) (sender : AccAddress) : ℤ :=
  msg.token.amount - k.bank.bk.spendableCoin s.ctx.store.sdk sender pair.denom

def escrowShortfall (s : ModuleState S) (msg : MsgTransfer) (pair : StoredPair) (sender : AccAddress) :
    Ctx S :=
  (k.escrowTokens s.ctx pair (bytesToAddress sender) (k.shortfall s msg pair sender)).2

def MayReceive (s : ModuleState S) (pair : StoredPair) (sender : AccAddress) : Prop :=
  k.bank.bk.blockedAddr sender = false ∧
    ((bytesToAddress sender).bytes = sender ∨ k.isSendEnabledCoin s.ctx.store.sdk pair.denom = true)

/-- The contract delivers the tokens for the missing coins. Its own code has not changed the sender's coins
of the pair, has not lowered what can be spent of them, and has left ICS20 what else it looks at. -/
def CoversShortfall (admits : Ctx S → MsgTransfer → Prop) (s : ModuleState S)
    (msg : MsgTransfer) (pair : StoredPair) (sender : AccAddress) : Prop :=
  let called := k.escrowShortfall s msg pair sender
  k.MayReceive s pair sender ∧
    k.Delivers s.ctx pair (bytesToAddress sender) (k.shortfall s msg pair sender) ∧
    k.bank.getBalance called sender pair.denom = k.bank.getBalance s.ctx sender pair.denom ∧
    admits called (msg.withDenom pair.denom) ∧
    (msg.token.amount = unboundedSpendLimit ∨ k.bank.bk.spendableCoin s.ctx.store.sdk sender pair.denom ≤
      k.bank.bk.spendableCoin called.store.sdk sender pair.denom)

/-- The contract's code has taken from the sender as many tokens as coins are missing, and no coins. -/
def TakesShortfall (s : ModuleState S) (msg : MsgTransfer) (pair : StoredPair) (sender : AccAddress) : Prop :=
  let called := k.escrowShortfall s msg pair sender
  k.tokens called pair (bytesToAddress sender) =
      k.tokens s.ctx pair (bytesToAddress sender) - k.shortfall s msg pair sender ∧
    ∀ other, other ≠ pair.denom → k.bank.bk.getBalance called.store.sdk sender other =
      k.bank.bk.getBalance s.ctx.store.sdk sender other

/-- What the pair that the message names is asked for. Where coins of a native ERC20 are missing, its contract covers them if
ICS20 alone would carry out the message, and takes no more than is missing if it covers them. Elsewhere
ICS20 carries out the message with the coin of the pair if it would carry out the message as it is. -/
def CoveredBy (ics20 : Ics20 S) (admits : Ctx S → MsgTransfer → Prop) (s : ModuleState S)
    (msg : MsgTransfer) (pair : StoredPair) (sender : AccAddress) : Prop :=
  let alone := ∃ ctx', ics20 s.ctx msg = .ok ctx'
  let replaced := ∃ ctx', ics20 s.ctx (msg.withDenom pair.denom) = .ok ctx'
  if pair.contractOwner = .external ∧ 0 < k.shortfall s msg pair sender then
    if k.isContract s.ctx.store pair.getERC20Contract = true then
      (alone → k.CoversShortfall admits s msg pair sender) ∧
        (k.CoversShortfall admits s msg pair sender → k.TakesShortfall s msg pair sender)
    else alone → k.MayReceive s pair sender ∧ replaced
  else alone → replaced

def Covered (ics20 : Ics20 S) (admits : Ctx S → MsgTransfer → Prop) (s : ModuleState S)
    (msg : MsgTransfer) : Prop :=
  ∀ pair sender, activePair s.store msg.token.denom = some pair →
    k.bank.codec.accAddressFromBech32 msg.sender = some sender → k.CoveredBy ics20 admits s msg pair sender

variable {k} {s s' : ModuleState S} {pair : StoredPair} {sender : AccAddress} {msg : MsgTransfer}
  {ics20 : Ics20 S} {admits : Ctx S → MsgTransfer → Prop}

def shortfallMsg (k : ConversionKeeper S Acc) (pair : StoredPair) (sender : AccAddress) (amount : ℤ) :
    MsgConvertERC20 where
  contractAddress := k.lib.addressString pair.getERC20Contract
  amount
  receiver := k.bank.codec.accAddressString sender
  sender := k.lib.addressString (bytesToAddress sender)

theorem exists_lookup_of_activePair {denom : Denom} (hactive : activePair s.store denom = some pair) :
    s.store.enableErc20 = true ∧ pair.enabled = true ∧
      s.store.getTokenPair (s.store.getTokenPairID (trimErc20 denom)) = some pair ∧
      ∃ id, s.store.pairs.lookup id = some pair := by
  obtain ⟨hpair, hon⟩ := Option.filter_eq_some_iff.mp hactive
  rw [Bool.and_eq_true] at hon
  obtain ⟨id, -, hid⟩ := Option.bind_eq_some_iff.mp hpair
  exact ⟨hon.2, hon.1, hpair, id, hid⟩

theorem convertShortfall_eq_ok_iff (htexts : k.TextLaws) (hregistry : k.TokenRegistry s.store)
    {denom : Denom} (hactive : activePair s.store denom = some pair)
    (hsender : k.bank.codec.accAddressFromBech32 (k.bank.codec.accAddressString sender) = some sender)
    (howner : pair.contractOwner = .external) {amount : ℤ} :
    k.convertERC20 s (k.shortfallMsg pair sender amount) = .ok s' ↔
      k.MayReceive s pair sender ∧
      (k.isContract s.ctx.store pair.getERC20Contract = true ∧
          (∃ ctx', k.convertERC20IntoCoinsForNativeToken s.ctx pair (k.shortfallMsg pair sender amount)
            sender (bytesToAddress sender) = .ok ctx' ∧ s' = { s with ctx := ctx' }) ∨
        k.isContract s.ctx.store pair.getERC20Contract = false ∧
          s' = { s with store := k.lib.deleteTokenPair s.store pair }) := by
  obtain ⟨hmodule, henabled, -, id, hid⟩ := exists_lookup_of_activePair hactive
  obtain ⟨-, -, -, herc20⟩ := hregistry.linked.of_pair hid
  have hlookup : s.store.getTokenPair (s.store.getTokenPairID
      (k.lib.addressString pair.getERC20Contract)) = some pair := by
    unfold Store.getTokenPairID
    rw [htexts.lib.isHexAddress_addressString, if_pos rfl, htexts.lib.hexToAddress_addressString, herc20]
    exact hid
  have hreceiver : k.bank.codec.accAddressFromBech32 (k.shortfallMsg pair sender amount).receiver =
      some sender := hsender
  have haddress : hexToAddress (k.shortfallMsg pair sender amount).sender = bytesToAddress sender :=
    htexts.lib.hexToAddress_addressString _
  rw [convertERC20_eq_ok_iff]
  simp only [hreceiver, haddress, mintingEnabled_eq_ok_iff, convertPair_eq_ok_iff, Option.some.injEq]
  constructor
  · rintro ⟨receiver, found, rfl, ⟨-, hfound, -, hmay⟩, -, hrest⟩
    cases hlookup.symm.trans hfound
    exact ⟨hmay, hrest⟩
  · rintro ⟨hmay, hrest⟩
    exact ⟨sender, pair, rfl, ⟨hmodule, hlookup, henabled, hmay⟩, howner, hrest⟩

theorem names_of_activePair (hregistry : k.TokenRegistry s.store) {denom : Denom}
    (hactive : activePair s.store denom = some pair) : Names pair denom := by
  obtain ⟨-, -, hpair, -⟩ := exists_lookup_of_activePair hactive
  obtain ⟨id, hid, hlookup⟩ := Option.bind_eq_some_iff.mp hpair
  unfold Store.getTokenPairID at hid
  split_ifs at hid with hhex
  · obtain ⟨found, hfound, hcontract⟩ := hregistry.linked.of_erc20 hid
    cases hlookup.symm.trans hfound
    exact .inr ⟨hhex, hcontract.symm⟩
  · obtain ⟨found, hfound, hdenom⟩ := hregistry.linked.of_denom hid
    cases hlookup.symm.trans hfound
    exact .inl hdenom.symm

theorem givenUp_refl (s : ModuleState S) (sender : AccAddress) (denom : Denom) :
    k.GivenUp s s sender denom 0 :=
  ⟨fun _ _ => rfl, fun _ _ _ => (sub_zero _).symm, fun _ => (sub_zero _).symm⟩

/-- ICS20 takes its amount on top of what was given up before it, and tokens are the same after it. -/
theorem givenUp_ics20_iff (hics20 : k.Ics20Law ics20 admits) (hregistry : k.TokenRegistry s.store)
    {sent : MsgTransfer} {ctx' : Ctx S} (hok : ics20 s'.ctx sent = .ok ctx')
    (hsender : k.bank.codec.accAddressFromBech32 sent.sender = some sender) :
    k.GivenUp s { s' with ctx := ctx' } sender sent.token.denom (k.sentAmount s'.ctx sender sent) ↔
      k.GivenUp s s' sender sent.token.denom 0 := by
  have hbalance := hics20.getBalance_eq hok hsender
  have htokens : ∀ {id pair}, s.store.pairs.lookup id = some pair → pair.contractOwner = .external →
      k.tokens ctx' pair (bytesToAddress sender) = k.tokens s'.ctx pair (bytesToAddress sender) :=
    fun hpair howner => hregistry.tokens_bank hpair howner (hics20.store_eq hok) _
  constructor
  · rintro ⟨hcoins, hpairs, hcoin⟩
    refine ⟨fun other hother => ?_, fun hpair howner hdenom => ?_, fun hnone => ?_⟩
    · rw [← hcoins other hother, hbalance, if_neg hother, sub_zero]
    · have hafter := hpairs hpair howner hdenom
      rw [hbalance, if_pos rfl, htokens hpair howner] at hafter
      omega
    · have hafter := hcoin hnone
      rw [hbalance, if_pos rfl] at hafter
      omega
  · rintro ⟨hcoins, hpairs, hcoin⟩
    refine ⟨fun other hother => ?_, fun hpair howner hdenom => ?_, fun hnone => ?_⟩
    · rw [hbalance, if_neg hother, sub_zero, hcoins other hother]
    · have hbefore := hpairs hpair howner hdenom
      rw [hbalance, if_pos rfl, htokens hpair howner]
      omega
    · have hbefore := hcoin hnone
      rw [hbalance, if_pos rfl]
      omega

theorem debited_of_givenUp (hics20 : k.Ics20Law ics20 admits) (hregistry : k.TokenRegistry s.store)
    {sent : MsgTransfer} {ctx' : Ctx S} (hprepare : k.prepareTransfer s msg = .ok (s', sent))
    (hgiven : k.GivenUp s s' sender sent.token.denom 0) (hok : ics20 s'.ctx sent = .ok ctx')
    (hsender : k.bank.codec.accAddressFromBech32 msg.sender = some sender) :
    k.Debited s { s' with ctx := ctx' } msg sender sent.token.denom (k.sentAmount s'.ctx sender sent) := by
  have hmsg : sent.sender = msg.sender ∧ sent.token.amount = msg.token.amount ∧
      (sent.token.denom = msg.token.denom ∨ ∃ id pair, s.store.pairs.lookup id = some pair ∧
        Names pair msg.token.denom ∧ sent.token.denom = pair.denom) := by
    obtain ⟨-, -, rfl⟩ | ⟨pair, found, hactive, -, rfl, -⟩ := prepareTransfer_cases hprepare
    · exact ⟨rfl, rfl, .inl rfl⟩
    · obtain ⟨-, -, -, id, hid⟩ := exists_lookup_of_activePair hactive
      exact ⟨rfl, rfl, .inr ⟨id, pair, hid, names_of_activePair hregistry hactive, rfl⟩⟩
  obtain ⟨hname, hamount, hnamed⟩ := hmsg
  have hdecoded := hname ▸ hsender
  refine { (givenUp_ics20_iff hics20 hregistry hok hdecoded).mpr hgiven with
    named := hnamed, amount_eq := ?_ }
  have hspendable := hics20.spendableCoin_eq hok hdecoded
  unfold sentAmount at hspendable ⊢
  split_ifs at hspendable ⊢ with hlimit
  · exact .inr ⟨hamount ▸ hlimit, hspendable.trans (sub_self _)⟩
  · exact .inl hamount

theorem transfer_eq_ok_iff : k.transfer ics20 s msg = .ok s' ↔ ∃ s₁ sent ctx',
    k.prepareTransfer s msg = .ok (s₁, sent) ∧ ics20 s₁.ctx sent = .ok ctx' ∧ s' = { s₁ with ctx := ctx' } := by
  unfold transfer
  rw [bind_eq_ok_iff]
  simp only [map_eq_ok_iff, Prod.exists]
  exact exists_congr fun s₁ => exists_congr fun sent => ⟨
    fun ⟨hprepare, ctx', hok, heq⟩ => ⟨ctx', hprepare, hok, heq.symm⟩,
    fun ⟨ctx', hprepare, hok, heq⟩ => ⟨hprepare, ctx', hok, heq.symm⟩⟩

theorem exists_transfer_iff {sent : MsgTransfer} (hprepare : k.prepareTransfer s msg = .ok (s', sent)) :
    (∃ s'', k.transfer ics20 s msg = .ok s'') ↔ ∃ ctx', ics20 s'.ctx sent = .ok ctx' := by
  simp only [transfer_eq_ok_iff, hprepare, Except.ok.injEq, Prod.mk.injEq]
  constructor
  · rintro ⟨-, s₁, sent₁, ctx', ⟨rfl, rfl⟩, hok, -⟩
    exact ⟨ctx', hok⟩
  · rintro ⟨ctx', hok⟩
    exact ⟨_, s', sent, ctx', ⟨rfl, rfl⟩, hok, rfl⟩

theorem debitsNamed_of_givenUp (hics20 : k.Ics20Law ics20 admits) (hregistry : k.TokenRegistry s.store)
    (hgiven : ∀ {s₁ sent sender}, k.prepareTransfer s msg = .ok (s₁, sent) →
      k.bank.codec.accAddressFromBech32 msg.sender = some sender →
        k.GivenUp s s₁ sender sent.token.denom 0) : k.DebitsNamed ics20 s msg := by
  intro s' hok
  obtain ⟨s₁, sent, ctx', hprepare, hsent, rfl⟩ := transfer_eq_ok_iff.mp hok
  obtain ⟨-, sender, hdecoded, -⟩ := (hics20.exists_ok_iff s₁.ctx sent).mp ⟨ctx', hsent⟩
  have hname : sent.sender = msg.sender := by
    obtain ⟨-, -, rfl⟩ | ⟨pair, found, -, -, rfl, -⟩ := prepareTransfer_cases hprepare
    · rfl
    · rfl
  have hsender := hname ▸ hdecoded
  exact ⟨s₁, sent, sender, hprepare, hsender,
    debited_of_givenUp hics20 hregistry hprepare (hgiven hprepare hsender) hsent hsender⟩

section Active

variable (hactive : activePair s.store msg.token.denom = some pair)
  (hsender : k.bank.codec.accAddressFromBech32 msg.sender = some sender)

include hactive hsender

theorem prepareTransfer_of_enough
    (henough : ¬ (pair.contractOwner = .external ∧ 0 < k.shortfall s msg pair sender)) :
    k.prepareTransfer s msg = .ok (s, msg.withDenom pair.denom) := by
  rw [prepareTransfer_of_active hactive hsender]
  cases howner : pair.contractOwner with
  | module => rfl
  | unspecified => rfl
  | external =>
    have hcovered : k.coverShortfall s (msg.withDenom pair.denom) pair sender = .ok s :=
      if_pos (not_lt.mp fun hshort => henough ⟨howner, sub_pos.mpr hshort⟩)
    simp only [hcovered]
    rfl

theorem prepareTransfer_of_short (howner : pair.contractOwner = .external)
    (hshort : 0 < k.shortfall s msg pair sender) :
    k.prepareTransfer s msg = (k.convertERC20 s (k.shortfallMsg pair sender
      (k.shortfall s msg pair sender))).map fun s => (s, msg.withDenom pair.denom) := by
  have hcovered : k.coverShortfall s (msg.withDenom pair.denom) pair sender =
      k.convertERC20 s (k.shortfallMsg pair sender (k.shortfall s msg pair sender)) :=
    if_neg (not_le.mpr (sub_pos.mp hshort))
  rw [prepareTransfer_of_active hactive hsender, howner, ← hcovered]

end Active

section Short

variable (hbank : Lawful k.bank.bk k.bank.modules) (hminter : .minter ∈ k.account.permissions)
  (htexts : k.TextLaws) (hregistry : k.TokenRegistry s.store) (hics20 : k.Ics20Law ics20 admits)
  (hactive : activePair s.store msg.token.denom = some pair)
  (hsender : k.bank.codec.accAddressFromBech32 msg.sender = some sender)
  (howner : pair.contractOwner = .external) (hshort : 0 < k.shortfall s msg pair sender)
  (hexisting : k.isContract s.ctx.store pair.getERC20Contract = true)

section Converted

variable {ctx' : Ctx S}
  (hconvert : k.convertERC20IntoCoinsForNativeToken s.ctx pair
    (k.shortfallMsg pair sender (k.shortfall s msg pair sender)) sender (bytesToAddress sender) = .ok ctx')

include hbank hregistry hactive howner hconvert

theorem getBalance_converted (other : Denom) : k.bank.bk.getBalance ctx'.store.sdk sender other =
    k.bank.bk.getBalance (k.escrowShortfall s msg pair sender).store.sdk sender other +
      if other = pair.denom then k.shortfall s msg pair sender else 0 := by
  obtain ⟨-, -, -, id, hid⟩ := exists_lookup_of_activePair hactive
  obtain ⟨sent, hstore, hmove⟩ := bankMove_convertERC20IntoCoins (hregistry.denom_ne hid howner) hconvert
  rw [hstore, hmove.measure_eq (hbank.tracks_balance sender) other, weightOf_self, amountOf_singleton,
    one_mul]
  simp only [eq_comm]
  rfl

theorem spendableCoin_converted : k.bank.bk.spendableCoin ctx'.store.sdk sender pair.denom =
    k.bank.bk.spendableCoin (k.escrowShortfall s msg pair sender).store.sdk sender pair.denom +
      k.shortfall s msg pair sender := by
  obtain ⟨-, -, -, id, hid⟩ := exists_lookup_of_activePair hactive
  obtain ⟨sent, hstore, hmove⟩ := bankMove_convertERC20IntoCoins (hregistry.denom_ne hid howner) hconvert
  rw [hstore, hmove.measure_eq (hbank.tracks_spendable sender) pair.denom, weightOf_self, amountOf_singleton,
    one_mul, if_pos rfl]
  rfl

/-- After the conversion the sender has the missing coins on top of what the contract left, which is all
that ICS20 needs for the amount, or for the largest one. -/
theorem exists_ics20_converted_iff (hics20 : k.Ics20Law ics20 admits)
    (hsender : k.bank.codec.accAddressFromBech32 msg.sender = some sender)
    (hshort : 0 < k.shortfall s msg pair sender) :
    (∃ ctx'', ics20 ctx' (msg.withDenom pair.denom) = .ok ctx'') ↔
      admits (k.escrowShortfall s msg pair sender) (msg.withDenom pair.denom) ∧
        (msg.token.amount = unboundedSpendLimit ∨ k.bank.bk.spendableCoin s.ctx.store.sdk sender pair.denom ≤
          k.bank.bk.spendableCoin (k.escrowShortfall s msg pair sender).store.sdk sender pair.denom) := by
  obtain ⟨balanceToken, balanceCoin, hmint⟩ := exists_mintForTokens hconvert
  have hspendable := spendableCoin_converted hbank hregistry hactive howner hconvert
  have hheld := hbank.spendable_nonneg s.ctx.store.sdk sender pair.denom
  have hheld' := hbank.spendable_nonneg (k.escrowShortfall s msg pair sender).store.sdk sender pair.denom
  have hamount : k.shortfall s msg pair sender =
    msg.token.amount - k.bank.bk.spendableCoin s.ctx.store.sdk sender pair.denom := rfl
  have hadmits : admits ctx' (msg.withDenom pair.denom) ↔
      admits (k.escrowShortfall s msg pair sender) (msg.withDenom pair.denom) :=
    hics20.admits_mintForTokens hmint
  rw [hics20.exists_ok_iff, hadmits]
  refine and_congr_right fun _ => ?_
  change (∃ found, k.bank.codec.accAddressFromBech32 msg.sender = some found ∧
    0 < (if msg.token.amount = unboundedSpendLimit then
      k.bank.bk.spendableCoin ctx'.store.sdk found pair.denom else msg.token.amount) ∧
    (if msg.token.amount = unboundedSpendLimit then
      k.bank.bk.spendableCoin ctx'.store.sdk found pair.denom else msg.token.amount) ≤
        k.bank.bk.spendableCoin ctx'.store.sdk found pair.denom) ↔ _
  simp only [hsender, Option.some.injEq, exists_eq_left', hspendable]
  split_ifs with hlimit
  · exact iff_of_true ⟨by omega, le_rfl⟩ (.inl hlimit)
  · simp only [hlimit, false_or]
    constructor
    · rintro ⟨-, hle⟩
      omega
    · intro hle
      exact ⟨by omega, by omega⟩

theorem givenUp_converted_iff
    (hkept : k.bank.getBalance (k.escrowShortfall s msg pair sender) sender pair.denom =
      k.bank.getBalance s.ctx sender pair.denom) :
    k.GivenUp s { s with ctx := ctx' } sender pair.denom 0 ↔ k.TakesShortfall s msg pair sender := by
  obtain ⟨-, -, -, id, hid⟩ := exists_lookup_of_activePair hactive
  obtain ⟨sent, hstore, hmove⟩ := bankMove_convertERC20IntoCoins (hregistry.denom_ne hid howner) hconvert
  have hcoins := getBalance_converted hbank hregistry hactive howner hconvert
  have htokens : k.tokens ctx' pair (bytesToAddress sender) =
      k.tokens (k.escrowShortfall s msg pair sender) pair (bytesToAddress sender) :=
    hregistry.tokens_bank hid howner (by rw [hstore]; exact hmove.store_eq) _
  rw [getBalance_of_ne (hregistry.denom_ne hid howner), getBalance_of_ne (hregistry.denom_ne hid howner)]
    at hkept
  constructor
  · rintro ⟨hothers, hpairs, -⟩
    refine ⟨?_, fun other hother => ?_⟩
    · have hpaid := hpairs hid howner rfl
      rw [hcoins, if_pos rfl, htokens, hkept] at hpaid
      omega
    · rw [← hothers other hother, hcoins, if_neg hother, add_zero]
  · rintro ⟨hpaid, hothers⟩
    refine ⟨fun other hother => ?_, ?_, fun hnone => absurd rfl (hnone hid howner)⟩
    · rw [hcoins, if_neg hother, add_zero, hothers other hother]
    · intro id' other hother _ hsame
      -- the registry has one pair for the denomination
      obtain ⟨-, -, hdenom, -⟩ := hregistry.linked.of_pair hid
      obtain ⟨-, -, hdenom', -⟩ := hregistry.linked.of_pair hother
      rw [hsame, hdenom] at hdenom'
      cases hdenom'
      cases hid.symm.trans hother
      rw [hcoins, if_pos rfl, htokens, hkept, hpaid]
      ring

end Converted

include htexts hregistry hactive hsender howner hshort in
theorem prepareTransfer_short_eq_ok_iff {sent : MsgTransfer} : k.prepareTransfer s msg = .ok (s', sent) ↔
      sent = msg.withDenom pair.denom ∧ k.MayReceive s pair sender ∧
      (k.isContract s.ctx.store pair.getERC20Contract = true ∧
          (∃ ctx', k.convertERC20IntoCoinsForNativeToken s.ctx pair (k.shortfallMsg pair sender
            (k.shortfall s msg pair sender)) sender (bytesToAddress sender) = .ok ctx' ∧
              s' = { s with ctx := ctx' }) ∨
        k.isContract s.ctx.store pair.getERC20Contract = false ∧
          s' = { s with store := k.lib.deleteTokenPair s.store pair }) := by
  rw [prepareTransfer_of_short hactive hsender howner hshort, map_eq_ok_iff,
    ← convertShortfall_eq_ok_iff htexts hregistry hactive (htexts.accAddress hsender) howner]
  constructor
  · rintro ⟨covered, hconvert, heq⟩
    cases heq
    exact ⟨rfl, hconvert⟩
  · rintro ⟨rfl, hconvert⟩
    exact ⟨s', hconvert, rfl⟩

include hbank hminter hregistry hactive howner hshort in
theorem exists_convertShortfall_iff :
    (∃ ctx', k.convertERC20IntoCoinsForNativeToken s.ctx pair (k.shortfallMsg pair sender
        (k.shortfall s msg pair sender)) sender (bytesToAddress sender) = .ok ctx') ↔
      k.Delivers s.ctx pair (bytesToAddress sender) (k.shortfall s msg pair sender) ∧
        k.bank.bk.blockedAddr sender = false ∧
        k.bank.getBalance (k.escrowShortfall s msg pair sender) sender pair.denom =
          k.bank.getBalance s.ctx sender pair.denom := by
  obtain ⟨-, -, -, id, hid⟩ := exists_lookup_of_activePair hactive
  have hvalid : Coins.IsValid [⟨pair.denom, (k.shortfallMsg pair sender
      (k.shortfall s msg pair sender)).amount⟩] :=
    isValid_singleton_iff.mpr ⟨hregistry.validateDenom_denom hid howner, hshort⟩
  exact exists_convertERC20IntoCoins_iff hbank (hregistry.denom_ne hid howner) hminter hvalid

section Existing

include hbank hminter htexts hregistry hics20 hactive hsender howner hshort hexisting

theorem exists_transfer_iff_coversShortfall :
    (∃ s', k.transfer ics20 s msg = .ok s') ↔ k.CoversShortfall admits s msg pair sender := by
  have hprepare : ∀ {s₁ sent}, k.prepareTransfer s msg = .ok (s₁, sent) ↔ _ :=
    prepareTransfer_short_eq_ok_iff htexts hregistry hactive hsender howner hshort
  have hconverts := exists_convertShortfall_iff hbank hminter hregistry hactive howner hshort
  constructor
  · rintro ⟨s', hok⟩
    obtain ⟨s₁, sent, ctx', hprepared, hsent, -⟩ := transfer_eq_ok_iff.mp hok
    obtain ⟨rfl, hmay, ⟨-, ctx₁, hconvert, rfl⟩ | ⟨hgone, -⟩⟩ := hprepare.mp hprepared
    · obtain ⟨hdelivers, -, hkept⟩ := hconverts.mp ⟨ctx₁, hconvert⟩
      exact ⟨hmay, hdelivers, hkept,
        (exists_ics20_converted_iff hbank hregistry hactive howner hconvert hics20 hsender hshort).mp
          ⟨ctx', hsent⟩⟩
    · cases hexisting.symm.trans hgone
  · rintro ⟨hmay, hdelivers, hkept, hadmitted⟩
    obtain ⟨ctx₁, hconvert⟩ := hconverts.mpr ⟨hdelivers, hmay.1, hkept⟩
    obtain ⟨ctx', hsent⟩ := (exists_ics20_converted_iff hbank hregistry hactive howner hconvert hics20
      hsender hshort).mpr hadmitted
    exact ⟨_, transfer_eq_ok_iff.mpr ⟨_, _, ctx', hprepare.mpr ⟨rfl, hmay, .inl ⟨hexisting, ctx₁, hconvert,
      rfl⟩⟩, hsent, rfl⟩⟩

/-- What is converted comes on top, so that the debit is right if the tokens taken make up for it. -/
theorem debitsNamed_iff_takesShortfall : k.DebitsNamed ics20 s msg ↔
    (k.CoversShortfall admits s msg pair sender → k.TakesShortfall s msg pair sender) := by
  have hprepare : ∀ {s₁ sent}, k.prepareTransfer s msg = .ok (s₁, sent) ↔ _ :=
    prepareTransfer_short_eq_ok_iff htexts hregistry hactive hsender howner hshort
  have hcovers := exists_transfer_iff_coversShortfall hbank hminter htexts hregistry hics20 hactive hsender
    howner hshort hexisting
  have hkept {ctx₁ : Ctx S} (hconvert : k.convertERC20IntoCoinsForNativeToken s.ctx pair
      (k.shortfallMsg pair sender (k.shortfall s msg pair sender)) sender (bytesToAddress sender) = .ok ctx₁) :=
    ((exists_convertShortfall_iff hbank hminter hregistry hactive howner hshort).mp ⟨ctx₁, hconvert⟩).2.2
  constructor
  · intro hdebits hcovered
    obtain ⟨s', hok⟩ := hcovers.mpr hcovered
    obtain ⟨s₁, sent, found, hprepared, hfound, hdebited⟩ := hdebits s' hok
    obtain ⟨s₂, sent', ctx', hprepared', hsent, rfl⟩ := transfer_eq_ok_iff.mp hok
    cases hprepared.symm.trans hprepared'
    cases hsender.symm.trans hfound
    obtain ⟨rfl, hmay, ⟨-, ctx₁, hconvert, rfl⟩ | ⟨hgone, -⟩⟩ := hprepare.mp hprepared
    · exact (givenUp_converted_iff hbank hregistry hactive howner hconvert (hkept hconvert)).mp
        ((givenUp_ics20_iff hics20 hregistry hsent hsender).mp hdebited.toGivenUp)
    · cases hexisting.symm.trans hgone
  · intro htakes s' hok
    refine debitsNamed_of_givenUp hics20 hregistry (fun {s₁ sent found} hprepared hfound => ?_) s' hok
    cases hsender.symm.trans hfound
    obtain ⟨rfl, hmay, ⟨-, ctx₁, hconvert, rfl⟩ | ⟨hgone, -⟩⟩ := hprepare.mp hprepared
    · exact (givenUp_converted_iff hbank hregistry hactive howner hconvert (hkept hconvert)).mpr
        (htakes (hcovers.mp ⟨s', hok⟩))
    · cases hexisting.symm.trans hgone

end Existing

end Short

/-- The override refines ICS20 exactly where the coins it sends instead are there, or the contract of the
pair answers for those that are missing. -/
theorem refinesIcs20_iff_covered (hbank : Lawful k.bank.bk k.bank.modules)
    (hminter : .minter ∈ k.account.permissions) (htexts : k.TextLaws) (hregistry : k.TokenRegistry s.store)
    (hics20 : k.Ics20Law ics20 admits) (msg : MsgTransfer) :
    k.RefinesIcs20 ics20 s msg ↔ k.Covered ics20 admits s msg := by
  unfold RefinesIcs20 Covered
  cases hsender : k.bank.codec.accAddressFromBech32 msg.sender with
  | none =>
    refine iff_of_true ⟨debitsNamed_of_givenUp hics20 hregistry fun _ hfound => ?_, fun halone => ?_⟩ nofun
    · cases hsender.symm.trans hfound
    · obtain ⟨-, sender, hfound, -⟩ := (hics20.exists_ok_iff s.ctx msg).mp halone
      cases hsender.symm.trans hfound
  | some sender =>
  cases hactive : activePair s.store msg.token.denom with
  | none =>
    have hprepare := prepareTransfer_of_inactive hactive hsender
    refine iff_of_true ⟨debitsNamed_of_givenUp hics20 hregistry fun hprepared _ => ?_,
      (exists_transfer_iff hprepare).mpr⟩ nofun
    cases hprepare.symm.trans hprepared
    exact givenUp_refl s _ _
  | some pair =>
  have hbody : (∀ pair' sender', some pair = some pair' → some sender = some sender' →
      k.CoveredBy ics20 admits s msg pair' sender') ↔ k.CoveredBy ics20 admits s msg pair sender :=
    ⟨fun h => h pair sender rfl rfl, fun h _ _ hpair hfound => by cases hpair; cases hfound; exact h⟩
  rw [hbody]
  unfold CoveredBy
  dsimp only
  split_ifs with hcase hexisting
  · obtain ⟨howner, hshort⟩ := hcase
    rw [debitsNamed_iff_takesShortfall hbank hminter htexts hregistry hics20 hactive hsender howner hshort
      hexisting, exists_transfer_iff_coversShortfall hbank hminter htexts hregistry hics20 hactive hsender
      howner hshort hexisting, and_comm]
  · obtain ⟨howner, hshort⟩ := hcase
    have hgone := eq_false_of_ne_true hexisting
    have hprepare : ∀ {s₁ sent}, k.prepareTransfer s msg = .ok (s₁, sent) ↔ _ :=
      prepareTransfer_short_eq_ok_iff htexts hregistry hactive hsender howner hshort
    rw [and_iff_right]
    · refine imp_congr_right fun _ => ?_
      constructor
      · rintro ⟨s', hok⟩
        obtain ⟨s₁, sent, ctx', hprepared, hsent, -⟩ := transfer_eq_ok_iff.mp hok
        obtain ⟨rfl, hmay, ⟨habs, -⟩ | ⟨-, rfl⟩⟩ := hprepare.mp hprepared
        · exact absurd habs hexisting
        · exact ⟨hmay, ctx', hsent⟩
      · rintro ⟨hmay, hsent⟩
        exact (exists_transfer_iff (hprepare.mpr ⟨rfl, hmay, .inr ⟨hgone, rfl⟩⟩)).mpr hsent
    · refine debitsNamed_of_givenUp hics20 hregistry fun hprepared _ => ?_
      obtain ⟨rfl, -, ⟨habs, -⟩ | ⟨-, rfl⟩⟩ := hprepare.mp hprepared
      · exact absurd habs hexisting
      · exact ⟨fun _ _ => rfl, fun _ _ _ => (sub_zero _).symm, fun _ => (sub_zero _).symm⟩
  · have hprepare := prepareTransfer_of_enough hactive hsender hcase
    rw [exists_transfer_iff hprepare, and_iff_right]
    refine debitsNamed_of_givenUp hics20 hregistry fun hprepared _ => ?_
    cases hprepare.symm.trans hprepared
    exact givenUp_refl s _ _

def escrowIcs20 (k : ConversionKeeper S Acc) (escrow : AccAddress) : Ics20 S := fun ctx msg =>
  match k.bank.codec.accAddressFromBech32 msg.sender with
  | none => .error (.wrapped .other "decoding bech32 failed")
  | some sender =>
    let amount := k.sentAmount ctx sender msg
    if validateDenom msg.token.denom = true ∧ sender ≠ escrow ∧ 0 < amount then
      callBank ctx fun sdk => k.bank.bk.sendCoins sdk sender escrow [⟨msg.token.denom, amount⟩]
    else .error (.wrapped .other "invalid transfer")

theorem escrowIcs20_eq_ok_iff {escrow : AccAddress} {ctx ctx' : Ctx S} :
    k.escrowIcs20 escrow ctx msg = .ok ctx' ↔ ∃ sender,
      k.bank.codec.accAddressFromBech32 msg.sender = some sender ∧
      (validateDenom msg.token.denom = true ∧ sender ≠ escrow ∧ 0 < k.sentAmount ctx sender msg) ∧
      ∃ sdk events, k.bank.bk.sendCoins ctx.store.sdk sender escrow
          [⟨msg.token.denom, k.sentAmount ctx sender msg⟩] = .ok (sdk, events) ∧
        ctx' = { store := { ctx.store with sdk }, events := ctx.events ++ events } := by
  unfold escrowIcs20
  cases hsender : k.bank.codec.accAddressFromBech32 msg.sender with
  | none => simp
  | some sender =>
    simp only [Option.some.injEq, exists_eq_left']
    split_ifs with hvalid
    · rw [callBank_eq_ok_iff, and_iff_right hvalid]
    · exact iff_of_false nofun fun h => hvalid h.1

theorem ics20Law_escrowIcs20 (hbank : Lawful k.bank.bk k.bank.modules) (escrow : AccAddress) :
    k.Ics20Law (k.escrowIcs20 escrow) fun _ msg => validateDenom msg.token.denom = true ∧
      k.bank.codec.accAddressFromBech32 msg.sender ≠ some escrow where
  exists_ok_iff ctx msg := by
    simp only [escrowIcs20_eq_ok_iff]
    constructor
    · rintro ⟨ctx', sender, hsender, ⟨hdenom, hself, hpos⟩, sdk, events, hsend, -⟩
      have hvalid := isValid_singleton_iff.mpr ⟨hdenom, hpos⟩
      have hcovered := (hbank.sendCoins_ok_iff hvalid).mp ⟨_, hsend⟩ msg.token.denom
      rw [amountOf_singleton, if_pos rfl] at hcovered
      refine ⟨⟨hdenom, fun hescrow => hself (Option.some.inj (hsender.symm.trans hescrow))⟩, sender, hsender,
        hpos, hcovered⟩
    · rintro ⟨⟨hdenom, hself⟩, sender, hsender, hpos, hcovered⟩
      have hvalid := isValid_singleton_iff.mpr ⟨hdenom, hpos⟩
      obtain ⟨⟨sdk, events⟩, hsend⟩ : ∃ result, k.bank.bk.sendCoins ctx.store.sdk sender escrow
          [⟨msg.token.denom, k.sentAmount ctx sender msg⟩] = .ok result := by
        refine (hbank.sendCoins_ok_iff hvalid).mpr fun denom => ?_
        rw [amountOf_singleton]
        split_ifs with hsame
        · rw [← hsame]
          exact hcovered
        · exact hbank.spendable_nonneg _ _ _
      exact ⟨_, sender, hsender, ⟨hdenom, fun heq => hself (heq ▸ hsender), hpos⟩, sdk, events, hsend, rfl⟩
  store_eq hok := by
    obtain ⟨sender, -, -, sdk, events, -, rfl⟩ := escrowIcs20_eq_ok_iff.mp hok
    rfl
  getBalance_eq {ctx ctx' msg sender} hok hsender denom := by
    obtain ⟨found, hfound, ⟨-, hself, -⟩, sdk, events, hsend, rfl⟩ := escrowIcs20_eq_ok_iff.mp hok
    cases hsender.symm.trans hfound
    have hmoved := hbank.sendCoins_balance hsend sender denom
    rw [share, share, if_pos rfl, if_neg hself, add_zero, amountOf_singleton] at hmoved
    rw [hmoved]
    simp only [eq_comm]
  spendableCoin_eq {ctx ctx' msg sender} hok hsender := by
    obtain ⟨found, hfound, ⟨-, hself, -⟩, sdk, events, hsend, rfl⟩ := escrowIcs20_eq_ok_iff.mp hok
    cases hsender.symm.trans hfound
    have hmoved := hbank.sendCoins_spendable hsend sender msg.token.denom
    rw [share, share, if_pos rfl, if_neg hself, add_zero, amountOf_singleton, if_pos rfl] at hmoved
    exact hmoved
  admits_mintForTokens _ := Iff.rfl

end ConversionKeeper

theorem textLaws_ledgerKeeper : ledgerKeeper.TextLaws where
  lib := plainLibraries_lawful
  accAddress _ := TextCodec.accAddressFromText_accAddressString _

theorem tokenRegistry_registeredStore (enabled : Bool) :
    ledgerKeeper.TokenRegistry (registeredStore enabled) where
  linked := linked_registeredStore enabled
  denom_ne hpair _ := by
    rw [lookup_registeredStore hpair]
    change contractPair.denom ≠ _
    decide +kernel
  validateDenom_denom hpair _ := by
    rw [lookup_registeredStore hpair]
    change validateDenom contractPair.denom = true
    decide +kernel
  tokens_bank {_ _} _ _ {_ _} hstore account := by
    unfold Keeper.tokens
    rw [balanceOf_ledgerKeeper, balanceOf_ledgerKeeper]
    unfold storedTokens Vm.Keeper.getState
    rw [hstore]

def escrowAccount : AccAddress := (bytesToAddress [0xe5]).bytes

def coinHolder : ModuleState (AuthLedger Evmd.moduleAccounts) := ⟨registeredStore true, holderContext 100 0 50⟩

def coinTransfer (amount : ℤ) : MsgTransfer where
  sourcePort := "transfer"
  sourceChannel := "channel-0"
  token := ⟨contractPair.denom, amount⟩
  sender := textCodec.accAddressString tokenHolder.bytes
  receiver := "cosmos1receiver"
  timeoutHeight := (1, 1000)
  timeoutTimestamp := 0
  memo := ""

theorem activePair_coinHolder (amount : ℤ) :
    ConversionKeeper.activePair coinHolder.store (coinTransfer amount).token.denom =
      some (registeredPair true) := by
  change ConversionKeeper.activePair (registeredStore true) contractPair.denom = _
  decide +kernel

theorem sender_coinTransfer (amount : ℤ) :
    ledgerKeeper.bank.codec.accAddressFromBech32 (coinTransfer amount).sender = some tokenHolder.bytes := by
  have hcodec : ledgerKeeper.bank.codec = textCodec := rfl
  have hsender : (coinTransfer amount).sender = textCodec.accAddressString tokenHolder.bytes := rfl
  rw [hcodec, hsender]
  exact TextCodec.accAddressFromText_accAddressString tokenHolder.bytes

theorem spendableCoin_coinHolder : ledgerKeeper.bank.bk.spendableCoin coinHolder.ctx.store.sdk
    tokenHolder.bytes contractPair.denom = 100 := by
  decide +kernel

theorem exists_escrowIcs20_coinTransfer {amount : ℤ} (hpos : 0 < amount)
    (hcovered : amount ≤ 100 ∨ amount = unboundedSpendLimit) :
    ∃ ctx', ledgerKeeper.escrowIcs20 escrowAccount coinHolder.ctx (coinTransfer amount) = .ok ctx' := by
  have hdenom : validateDenom contractPair.denom = true := by decide +kernel
  refine ((ConversionKeeper.ics20Law_escrowIcs20 authBank_lawful escrowAccount).exists_ok_iff _ _).mpr
    ⟨⟨hdenom, ?_⟩, tokenHolder.bytes, sender_coinTransfer amount, ?_⟩
  · rw [sender_coinTransfer]
    decide
  · unfold ConversionKeeper.sentAmount
    change 0 < (if amount = unboundedSpendLimit then _ else amount) ∧
      (if amount = unboundedSpendLimit then _ else amount) ≤ _
    rw [show (coinTransfer amount).token.denom = contractPair.denom from rfl, spendableCoin_coinHolder]
    split_ifs with hlimit
    · decide
    · exact ⟨hpos, hcovered.resolve_right hlimit⟩

theorem shortfall_coinTransfer (amount : ℤ) : ledgerKeeper.shortfall coinHolder (coinTransfer amount)
    (registeredPair true) tokenHolder.bytes = amount - 100 :=
  congrArg (amount - ·) spendableCoin_coinHolder

def afterTransfer (k : ConversionKeeper (AuthLedger Evmd.moduleAccounts) AuthAccount) (amount : ℤ) :
    Option (ℤ × ℤ) :=
  (k.transfer (k.escrowIcs20 escrowAccount) coinHolder (coinTransfer amount)).toOption.map fun s' =>
    (k.bank.bk.getBalance s'.ctx.store.sdk tokenHolder.bytes contractPair.denom,
      k.tokens s'.ctx (registeredPair true) tokenHolder)

theorem afterTransfer_shortfall : afterTransfer ledgerKeeper 120 = some (0, 30) := by decide +kernel

theorem takesShortfall_coinTransfer :
    ledgerKeeper.TakesShortfall coinHolder (coinTransfer 120) (registeredPair true) tokenHolder.bytes := by
  refine ⟨by decide +kernel, fun other _ => ?_⟩
  exact congrArg (ledgerKeeper.bank.bk.getBalance · tokenHolder.bytes other)
    (ledgerToken_sdk coinHolder.ctx (bytesToAddress tokenHolder.bytes) _ true _)

/-- The holder's 100 coins are enough for a transfer of 60, and for one of 120 it gives 20 of its tokens. -/
theorem refinesIcs20_coinTransfer :
    ((∃ ctx', ledgerKeeper.escrowIcs20 escrowAccount coinHolder.ctx (coinTransfer 60) = .ok ctx') ∧
      ledgerKeeper.RefinesIcs20 (ledgerKeeper.escrowIcs20 escrowAccount) coinHolder (coinTransfer 60)) ∧
    afterTransfer ledgerKeeper 120 = some (0, 30) ∧
      ledgerKeeper.RefinesIcs20 (ledgerKeeper.escrowIcs20 escrowAccount) coinHolder (coinTransfer 120) := by
  have halone : ∃ ctx', ledgerKeeper.escrowIcs20 escrowAccount coinHolder.ctx (coinTransfer 60) =
      .ok ctx' := exists_escrowIcs20_coinTransfer (by decide) (.inl (by decide))
  have hrefines : ∀ amount, ledgerKeeper.RefinesIcs20 (ledgerKeeper.escrowIcs20 escrowAccount) coinHolder
      (coinTransfer amount) ↔ _ := fun amount => ConversionKeeper.refinesIcs20_iff_covered authBank_lawful
    (by decide +kernel) textLaws_ledgerKeeper (tokenRegistry_registeredStore true)
    (ConversionKeeper.ics20Law_escrowIcs20 authBank_lawful escrowAccount) (coinTransfer amount)
  refine ⟨⟨halone, (hrefines 60).mpr ?_⟩, afterTransfer_shortfall, (hrefines 120).mpr ?_⟩
  · intro pair sender hactive hsender
    cases (activePair_coinHolder 60).symm.trans hactive
    cases (sender_coinTransfer 60).symm.trans hsender
    unfold ConversionKeeper.CoveredBy
    rw [shortfall_coinTransfer, if_neg fun h => absurd h.2 (by decide)]
    exact fun _ => halone
  · intro pair sender hactive hsender
    cases (activePair_coinHolder 120).symm.trans hactive
    cases (sender_coinTransfer 120).symm.trans hsender
    unfold ConversionKeeper.CoveredBy
    rw [shortfall_coinTransfer, if_pos ⟨rfl, by decide⟩, if_pos (by decide +kernel)]
    obtain ⟨s', hs', -⟩ := Option.map_eq_some_iff.mp afterTransfer_shortfall
    refine ⟨fun _ => ?_, fun _ => takesShortfall_coinTransfer⟩
    exact (ConversionKeeper.exists_transfer_iff_coversShortfall authBank_lawful (by decide +kernel)
      textLaws_ledgerKeeper (tokenRegistry_registeredStore true)
      (ConversionKeeper.ics20Law_escrowIcs20 authBank_lawful escrowAccount) (activePair_coinHolder 120)
      (sender_coinTransfer 120) rfl (by rw [shortfall_coinTransfer]; decide) (by decide +kernel)).mp
      ⟨s', Result.toOption_eq_some_iff.mp hs'⟩

/-- A token that takes one more from the caller of `transfer` than it brings the recipient. -/
def feeToken {S : Type} (ctx : Ctx S) (caller contract : Address) (commit : Bool)
    (call : ContractCall) : Except Err Vm.MsgEthereumTxResponse × Ctx S :=
  match call, ledgerToken ctx caller contract commit call with
  | .transfer _ _, (.ok res, ctx') =>
    (.ok res, writeTokens ctx' contract caller (storedTokens ctx'.store contract caller - 1))
  | _, answer => answer

theorem feeToken_fst {S : Type} (ctx : Ctx S) (caller contract : Address) (commit : Bool)
    (call : ContractCall) : (feeToken ctx caller contract commit call).1 =
      (ledgerToken ctx caller contract commit call).1 := by
  unfold feeToken
  split
  · next hanswer => rw [hanswer]
  · rfl

def feeKeeper : ConversionKeeper (AuthLedger Evmd.moduleAccounts) AuthAccount :=
  { ledgerKeeper with
    callEVM := feeToken
    query_events := fun ctx events caller contract call => by
      rw [feeToken_fst, feeToken_fst]
      exact ledgerToken_events ctx events caller contract call }

/-- ICS20 carries out the transfer of the whole balance and the override does not: the largest amount is
short of tokens. And the override carries out a transfer of 120 for which a token with a fee takes 121 from
the holder's 100 coins and 50 tokens. -/
theorem transfer_wholeBalance_fails :
    ((∃ ctx', ledgerKeeper.escrowIcs20 escrowAccount coinHolder.ctx (coinTransfer unboundedSpendLimit) =
        .ok ctx') ∧
      ¬ ∃ s', ledgerKeeper.transfer (ledgerKeeper.escrowIcs20 escrowAccount) coinHolder
        (coinTransfer unboundedSpendLimit) = .ok s') ∧
    afterTransfer feeKeeper 120 = some (0, 29) := by
  refine ⟨⟨exists_escrowIcs20_coinTransfer (by decide) (.inr rfl), fun hok => ?_⟩, by decide +kernel⟩
  have htokens : storedTokens coinHolder.ctx.store (registeredPair true).getERC20Contract
      (bytesToAddress tokenHolder.bytes) = 50 := by
    decide +kernel
  have hcovers := (ConversionKeeper.exists_transfer_iff_coversShortfall authBank_lawful (by decide +kernel)
    textLaws_ledgerKeeper (tokenRegistry_registeredStore true)
    (ConversionKeeper.ics20Law_escrowIcs20 authBank_lawful escrowAccount)
    (activePair_coinHolder unboundedSpendLimit) (sender_coinTransfer unboundedSpendLimit) rfl
    (by rw [shortfall_coinTransfer]; decide) (by decide +kernel)).mp hok
  obtain ⟨-, ⟨balanceToken, res, -, hres, -⟩, -⟩ := hcovers
  rw [shortfall_coinTransfer] at hres
  obtain hrefused | ⟨-, hcovered, -⟩ := ledgerToken_transfer_cases coinHolder.ctx
    (bytesToAddress tokenHolder.bytes) (registeredPair true).getERC20Contract ledgerKeeper.moduleAddress true
    (unboundedSpendLimit - 100)
  · cases (congrArg Prod.fst hrefused).symm.trans hres
  · rw [htokens] at hcovered
    exact absurd hcovered (by decide)

end Erc20

end CosmosEvm
