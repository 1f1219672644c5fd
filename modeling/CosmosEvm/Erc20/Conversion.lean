import CosmosEvm.Ibc.Callbacks

/-!
# Conversions between coins and tokens

A native ERC20 is converted into coins by escrowing the tokens and minting, and back by escrowing the coins,
releasing the tokens and burning.
-/

namespace CosmosEvm.Erc20

open Result BankKeeper

structure MsgConvertERC20 where
  contractAddress : String
  amount : ℤ
  receiver : String
  sender : String

structure MsgConvertCoin where
  coin : Coin
  receiver : String
  sender : String

structure ReceivedPacketData extends FungibleTokenPacketData where
  receiver : String

structure ModuleState (S : Type) where
  store : Store
  ctx : Ctx S

/-- The rest of the keeper. The formats of packets and addresses of other chains, the code hashes of
precompiles and the parameters of other modules are parameters here. -/
structure ConversionKeeper (S Acc : Type) extends Keeper S Acc where
  lib : Libraries
  isSendEnabledCoin : S → Denom → Bool
  isContract : MultiStore S → Address → Bool
  registerERC20CodeHash : MultiStore S → Address → Except Err Unit
  bondDenom : S → Except Err Denom
  unmarshalJSON : Bytes → Option ReceivedPacketData
  getAccAddressFromBech32 : String → Except Err AccAddress
  receivedDenom : Ibc.Packet → String → Denom
  newErrorAcknowledgement : Err → String

def startsWith (text marker : String) : Bool := marker.toList.isPrefixOf text.toList

namespace ConversionKeeper

variable {S Acc : Type} (k : ConversionKeeper S Acc) (s : ModuleState S)

def mintingEnabled (sender receiver : AccAddress) (token : String) : Except Err StoredPair :=
  if ¬ s.store.enableErc20 then
    .error (.wrapped .other "module is currently disabled by governance: erc20 module is disabled")
  else
    match s.store.getTokenPairID token with
    | none => .error (.wrapped .other
        ("token '" ++ token ++ "' not registered by id: token pair not found"))
    | some id =>
      match s.store.getTokenPair (some id) with
      | none => .error (.wrapped .other ("token '" ++ token ++ "' not registered: token pair not found"))
      | some pair =>
        if ¬ pair.enabled then
          .error (.wrapped .other ("minting token '" ++ token ++
            "' is not enabled by governance: erc20 token pair is disabled"))
        else if k.bank.bk.blockedAddr receiver then
          .error (.wrapped .unauthorized (k.bank.codec.accAddressString receiver ++
            " is not allowed to receive transactions"))
        else if sender ≠ receiver ∧ ¬ k.isSendEnabledCoin s.ctx.store.sdk pair.denom then
          .error (.wrapped .other ("minting '" ++ token ++ "' coins to an external address is " ++
            "currently disabled: send transactions are disabled"))
        else .ok pair

/-- `convertERC20IntoCoinsForNativeToken` after the escrow, with the module's tokens and the receiver's
coins before it. -/
def mintForTokens (ctx : Ctx S) (pair : StoredPair) (msg : MsgConvertERC20)
    (receiver : AccAddress) (balanceToken balanceCoin : ℤ) : Except Err (Ctx S) :=
  match k.balanceOf ctx pair.getERC20Contract k.moduleAddress with
  | none => .error (.wrapped .other "failed to retrieve balance: EVM call unexpected error")
  | some balanceTokenAfter =>
    let expToken := balanceToken + msg.amount
    if balanceTokenAfter ≠ expToken then
      .error (.wrapped .other ("invalid token balance - expected: " ++ expToken.repr ++ ", actual: " ++
        balanceTokenAfter.repr ++ ": post transfer balance invariant failed"))
    else do
      let ctx ← k.bank.mintCoins ctx moduleName [⟨pair.denom, msg.amount⟩]
      let ctx ← k.bank.sendCoinsFromModuleToAccount ctx moduleName receiver [⟨pair.denom, msg.amount⟩]
      let balanceCoinAfter := k.bank.getBalance ctx receiver pair.denom
      let expCoin := balanceCoin + msg.amount
      if balanceCoinAfter ≠ expCoin then
        .error (.wrapped .other ("invalid coin balance - expected: " ++ expCoin.repr ++ pair.denom ++
          ", actual: " ++ balanceCoinAfter.repr ++ pair.denom ++
          ": post transfer balance invariant failed"))
      else
        .ok (ctx.emitEvents [⟨"convert_erc20", [("sender", msg.sender), ("receiver", msg.receiver),
          ("amount", msg.amount.repr), ("cosmos_coin", pair.denom),
          ("erc20_token", msg.contractAddress)]⟩])

def convertERC20IntoCoinsForNativeToken (ctx : Ctx S) (pair : StoredPair)
    (msg : MsgConvertERC20) (receiver : AccAddress) (sender : Address) :
    Except Err (Ctx S) :=
  let contract := pair.getERC20Contract
  match k.balanceOf ctx contract k.moduleAddress with
  | none => .error (.wrapped .other "failed to retrieve balance: EVM call unexpected error")
  | some balanceToken =>
    match k.callEVM ctx sender contract true (.transfer k.moduleAddress msg.amount) with
    | (.error err, _) => .error err
    | (.ok res, escrowed) => do
      checkReturn "failed to execute transfer: internal logic error" res contract
      k.mintForTokens escrowed pair msg receiver balanceToken (k.bank.getBalance ctx receiver pair.denom)

/-- How both messages end: only a native ERC20 is converted, and a pair whose contract is gone is
deleted. -/
def convertPair (pair : StoredPair) (convert : Except Err (Ctx S)) : Except Err (ModuleState S) :=
  match pair.contractOwner with
  | .external =>
    if k.isContract s.ctx.store pair.getERC20Contract then convert.map fun ctx => { s with ctx }
    else .ok { s with store := k.lib.deleteTokenPair s.store pair }
  | .module => .error (.wrapped .other "native coins manual conversion is disabled")
  | .unspecified => .error (.wrapped .other "undefined owner of contract pair")

def convertERC20 (msg : MsgConvertERC20) : Except Err (ModuleState S) :=
  match k.bank.codec.accAddressFromBech32 msg.receiver with
  | none => .error (.panicked "decoding bech32 failed")
  | some receiver => do
    let sender := hexToAddress msg.sender
    let pair ← k.mintingEnabled s sender.bytes receiver msg.contractAddress
    k.convertPair s pair (k.convertERC20IntoCoinsForNativeToken s.ctx pair msg receiver sender)

/-- The result of a conversion, where an error undoes what was written. -/
def committed : Except Err Unit × Ctx S → Except Err (Ctx S)
  | (.ok _, ctx) => .ok ctx
  | (.error err, _) => .error err

def convertCoin (msg : MsgConvertCoin) : Except Err (ModuleState S) :=
  match k.bank.codec.accAddressFromBech32 msg.sender with
  | none => .error (.panicked "decoding bech32 failed")
  | some sender => do
    let receiver := hexToAddress msg.receiver
    let pair ← k.mintingEnabled s sender receiver.bytes msg.coin.denom
    k.convertPair s pair
      (committed (k.convertCoinNativeERC20 s.ctx pair msg.coin.amount receiver sender))

def getTransferSenderRecipient (data : ReceivedPacketData) : Except Err (AccAddress × AccAddress) := do
  let sender ← (k.getAccAddressFromBech32 data.sender).mapError (Err.wrap "invalid sender")
  let recipient ← (k.getAccAddressFromBech32 data.receiver).mapError (Err.wrap "invalid recipient")
  .ok (sender, recipient)

def refusal (err : Err) : Acknowledgement := .error (k.newErrorAcknowledgement err)

/-- The conversion of received coins of an enabled native ERC20. A panic of the conversion goes on. -/
def convertReceived (pair : StoredPair) (amount : String) (recipient : AccAddress)
    (ack : Acknowledgement) : Except Err (Acknowledgement × ModuleState S) :=
  match k.newIntFromString amount with
  | none => .error (.panicked "invalid memory address or nil pointer dereference")
  | some amount =>
    match k.convertCoinNativeERC20 s.ctx pair amount (bytesToAddress recipient) recipient with
    | (.ok _, ctx) => .ok (ack, { s with ctx })
    | (.error (.panicked text), _) => .error (.panicked text)
    | (.error (.wrapped root text), ctx) => .ok (k.refusal (.wrapped root text), { s with ctx })

/-- `OnRecvPacket` from the lookup of the received denomination on. -/
def onReceivedDenom (packet : Ibc.Packet) (data : ReceivedPacketData) (denom : Denom)
    (sender recipient : AccAddress) (ack : Acknowledgement) : Except Err (Acknowledgement × ModuleState S) :=
  match s.store.getTokenPair (s.store.getTokenPairID denom) with
  | none =>
    if startsWith denom "ibc/" then
      match k.lib.registerERC20Extension s.store denom (k.isContract s.ctx.store)
          (k.registerERC20CodeHash s.ctx.store) with
      | (.error err, store) => .ok (k.refusal err, { s with store })
      | (.ok pair, store) => .ok (ack, ⟨store, s.ctx.emitEvents [⟨"register_erc20_extension",
          [("source_channel", packet.sourceChannel), ("erc20_token", pair.erc20Address),
            ("cosmos_coin", pair.denom)]⟩]⟩)
    else .ok (ack, s)
  | some pair =>
    match pair.contractOwner with
    | .external =>
      if ¬ pair.enabled then .ok (ack, s)
      else
        match k.mintingEnabled s sender recipient denom with
        | .error err => .ok (k.refusal err, { s with ctx := s.ctx.emitEvents [⟨"erc20_callback_failure",
            [("convert_coin", "mint_failure"), ("cosmos_coin", denom),
              ("receiver", k.bank.codec.accAddressString recipient)]⟩] })
        | .ok pair => k.convertReceived s pair data.amount recipient ack
    | .module => .ok (ack, s)
    | .unspecified => .ok (ack, s)

/-- `OnRecvPacket`. It returns the state with an error as well; whether that is kept is decided by its
caller. -/
def onRecvPacket (packet : Ibc.Packet) (ack : Acknowledgement) :
    Except Err (Acknowledgement × ModuleState S) :=
  if ¬ s.store.enableErc20 then .ok (ack, s)
  else
    match k.unmarshalJSON packet.data with
    | none => .ok (k.refusal (.wrapped .invalidType "cannot unmarshal ICS-20 transfer packet data"), s)
    | some data =>
      match k.getTransferSenderRecipient data with
      | .error err => .ok (k.refusal err, s)
      | .ok (sender, recipient) =>
        if (k.ak.getAccount s.ctx.store.sdk recipient).any k.isModuleAccount then .ok (ack, s)
        else if startsWith data.denom "factory/" then .ok (ack, s)
        else
          match k.bondDenom s.ctx.store.sdk with
          | .error err => .ok (k.refusal err, s)
          | .ok bondDenom =>
            let denom := k.receivedDenom packet data.denom
            if denom = bondDenom then .ok (ack, s)
            else k.onReceivedDenom s packet data denom sender recipient ack

variable {k}

section

variable {s : ModuleState S} {sender receiver : AccAddress} {token : String} {pair : StoredPair}
  {ctx ctx' : Ctx S} {denom : Denom} {s' : ModuleState S} {msg : MsgConvertERC20}
  {recipient : AccAddress} {ack ack' : Acknowledgement} {packet : Ibc.Packet}

theorem mintingEnabled_eq_ok_iff : k.mintingEnabled s sender receiver token = .ok pair ↔
      s.store.enableErc20 = true ∧ s.store.getTokenPair (s.store.getTokenPairID token) = some pair ∧
        pair.enabled = true ∧ k.bank.bk.blockedAddr receiver = false ∧
        (sender = receiver ∨ k.isSendEnabledCoin s.ctx.store.sdk pair.denom = true) := by
  unfold mintingEnabled
  rw [ite_error_eq_ok_iff, not_not]
  refine and_congr_right fun _ => ?_
  cases hid : s.store.getTokenPairID token with
  | none => exact iff_of_false nofun fun ⟨hpair, _⟩ => nomatch hpair
  | some id =>
  cases hpair : s.store.getTokenPair (some id) with
  | none => simp [hpair]
  | some found =>
    simp only [ite_error_eq_ok_iff, hpair, Except.ok.injEq, Option.some.injEq, not_not, Bool.not_eq_true,
      Bool.not_eq_false,
      not_and_or]
    constructor
    · rintro ⟨henabled, hblocked, hsend, rfl⟩
      exact ⟨rfl, henabled, hblocked, hsend⟩
    · rintro ⟨rfl, henabled, hblocked, hsend⟩
      exact ⟨henabled, hblocked, hsend, rfl⟩

theorem sendCoinsFromModuleToAccount_eq_ok_iff {amt : Coins} :
    k.bank.sendCoinsFromModuleToAccount ctx moduleName receiver amt = .ok ctx' ↔
      k.bank.bk.blockedAddr receiver = false ∧
        k.bank.sendCoins ctx k.account.address receiver amt = .ok ctx' := by
  unfold PreciseBank.Keeper.sendCoinsFromModuleToAccount
  rw [k.getModuleAccount_moduleName]
  dsimp only
  rw [if_neg (by decide), ite_error_eq_ok_iff, Bool.not_eq_true]

theorem bankMove_release {amount : ℤ} (hdenom : denom ≠ k.bank.extendedCoinDenom)
    (hok : k.bank.sendCoinsFromModuleToAccount ctx moduleName receiver [⟨denom, amount⟩] = .ok ctx') :
    PreciseBank.Keeper.BankMove k.bank ctx ctx' fun weight other =>
      (weight receiver - weight k.account.address) * Coins.amountOf [⟨denom, amount⟩] other :=
  PreciseBank.Keeper.bankMove_sendCoins_singleton hdenom (sendCoinsFromModuleToAccount_eq_ok_iff.mp hok).2

theorem convertPair_eq_ok_iff {convert : Except Err (Ctx S)} :
    k.convertPair s pair convert = .ok s' ↔
      pair.contractOwner = .external ∧
        (k.isContract s.ctx.store pair.getERC20Contract = true ∧
            (∃ ctx', convert = .ok ctx' ∧ s' = { s with ctx := ctx' }) ∨
          k.isContract s.ctx.store pair.getERC20Contract = false ∧
            s' = { s with store := k.lib.deleteTokenPair s.store pair }) := by
  unfold convertPair
  cases howner : pair.contractOwner with
  | module => simp
  | unspecified => simp
  | external =>
    cases hcontract : k.isContract s.ctx.store pair.getERC20Contract with
    | false => simp [eq_comm]
    | true =>
      cases convert with
      | error err => simp [Except.map]
      | ok ctx' => simp [Except.map, eq_comm]

/-- What each of the calls in a row has to come to. -/
theorem convertERC20IntoCoins_eq_ok_iff {sender : Address} :
    k.convertERC20IntoCoinsForNativeToken ctx pair msg receiver sender = .ok ctx' ↔
      ∃ balanceToken res escrowed minted sent,
        k.balanceOf ctx pair.getERC20Contract k.moduleAddress = some balanceToken ∧
        k.callEVM ctx sender pair.getERC20Contract true (.transfer k.moduleAddress msg.amount) =
          (.ok res, escrowed) ∧
        checkReturn "failed to execute transfer: internal logic error" res pair.getERC20Contract = .ok () ∧
        k.balanceOf escrowed pair.getERC20Contract k.moduleAddress = some (balanceToken + msg.amount) ∧
        k.bank.mintCoins escrowed moduleName [⟨pair.denom, msg.amount⟩] = .ok minted ∧
        k.bank.sendCoinsFromModuleToAccount minted moduleName receiver [⟨pair.denom, msg.amount⟩] =
          .ok sent ∧
        k.bank.getBalance sent receiver pair.denom =
          k.bank.getBalance ctx receiver pair.denom + msg.amount ∧
        ctx' = sent.emitEvents [⟨"convert_erc20", [("sender", msg.sender), ("receiver", msg.receiver),
          ("amount", msg.amount.repr), ("cosmos_coin", pair.denom),
          ("erc20_token", msg.contractAddress)]⟩] := by
  unfold convertERC20IntoCoinsForNativeToken
  dsimp only
  cases hbefore : k.balanceOf ctx pair.getERC20Contract k.moduleAddress with
  | none => simp
  | some balanceToken =>
  cases hcall : k.callEVM ctx sender pair.getERC20Contract true (.transfer k.moduleAddress msg.amount) with
  | mk answer escrowed =>
  cases answer with
  | error err => simp
  | ok res =>
  dsimp only
  rw [seq_eq_ok_iff]
  unfold mintForTokens
  cases hafter : k.balanceOf escrowed pair.getERC20Contract k.moduleAddress with
  | none => simp [hafter]
  | some balanceTokenAfter =>
    simp only [ite_error_eq_ok_iff, bind_eq_ok_iff, not_not, Except.ok.injEq]
    constructor
    · rintro ⟨hcheck, rfl, minted, hmint, sent, hsend, hcoin, rfl⟩
      exact ⟨balanceToken, res, escrowed, minted, sent, rfl, rfl, hcheck, hafter, hmint, hsend, hcoin, rfl⟩
    · rintro ⟨balanceToken, res, escrowed, minted, sent, hbalance, hanswer, hcheck, hrest⟩
      cases hbalance
      cases hanswer
      obtain ⟨hescrowed, hmint, hsend, hcoin, rfl⟩ := hrest
      cases hafter.symm.trans hescrowed
      exact ⟨hcheck, rfl, minted, hmint, sent, hsend, hcoin, rfl⟩

theorem convertERC20_eq_ok_iff :
    k.convertERC20 s msg = .ok s' ↔ ∃ receiver pair,
      k.bank.codec.accAddressFromBech32 msg.receiver = some receiver ∧
      k.mintingEnabled s (hexToAddress msg.sender).bytes receiver msg.contractAddress = .ok pair ∧
      k.convertPair s pair (k.convertERC20IntoCoinsForNativeToken s.ctx pair msg receiver
        (hexToAddress msg.sender)) = .ok s' := by
  unfold convertERC20
  cases hreceiver : k.bank.codec.accAddressFromBech32 msg.receiver with
  | none => simp
  | some receiver => simp [bind_eq_ok_iff]

theorem convertCoin_eq_ok_iff {msg : MsgConvertCoin} :
    k.convertCoin s msg = .ok s' ↔ ∃ sender pair,
      k.bank.codec.accAddressFromBech32 msg.sender = some sender ∧
      k.mintingEnabled s sender (hexToAddress msg.receiver).bytes msg.coin.denom = .ok pair ∧
      k.convertPair s pair (committed (k.convertCoinNativeERC20 s.ctx pair msg.coin.amount
        (hexToAddress msg.receiver) sender)) = .ok s' := by
  unfold convertCoin
  cases hsender : k.bank.codec.accAddressFromBech32 msg.sender with
  | none => simp
  | some sender => simp [bind_eq_ok_iff]

theorem committed_eq_ok_iff {result : Except Err Unit × Ctx S} :
    committed result = .ok ctx' ↔ result = (.ok (), ctx') := by
  obtain ⟨answer, ctx⟩ := result
  cases answer <;> simp [committed]

theorem convertReceived_eq_ok {text : String}
    (hok : k.convertReceived s pair text recipient ack = .ok (ack', s')) :
    s'.store = s.store ∧ ∃ amount result, k.newIntFromString text = some amount ∧
      k.convertCoinNativeERC20 s.ctx pair amount (bytesToAddress recipient) recipient =
        (result, s'.ctx) ∧
      (result = .ok () ∧ ack' = ack ∨ ∃ err, result = .error err ∧ ack' = k.refusal err) := by
  unfold convertReceived at hok
  cases hamount : k.newIntFromString text with
  | none =>
    rw [hamount] at hok
    cases hok
  | some amount =>
  cases hresult : k.convertCoinNativeERC20 s.ctx pair amount (bytesToAddress recipient)
    recipient with
  | mk result ctx' =>
  cases result with
  | ok done =>
    simp only [hamount, hresult] at hok
    cases hok
    exact ⟨rfl, amount, .ok (), rfl, hresult, .inl ⟨rfl, rfl⟩⟩
  | error err =>
    cases err with
    | panicked text =>
      simp only [hamount, hresult] at hok
      cases hok
    | wrapped root text =>
      simp only [hamount, hresult] at hok
      cases hok
      exact ⟨rfl, amount, _, rfl, hresult, .inr ⟨_, rfl, rfl⟩⟩

theorem onReceivedDenom_cases {data : ReceivedPacketData}
    (hok : k.onReceivedDenom s packet data denom sender recipient ack = .ok (ack', s')) :
    s'.ctx.store = s.ctx.store ∨ ∃ pair, k.mintingEnabled s sender recipient denom = .ok pair ∧
      pair.contractOwner = .external ∧ k.convertReceived s pair data.amount recipient ack = .ok (ack', s') := by
  unfold onReceivedDenom at hok
  cases hpair : s.store.getTokenPair (s.store.getTokenPairID denom) with
  | none =>
    simp only [hpair] at hok
    split_ifs at hok with hibc
    · split at hok
      · cases hok
        exact .inl rfl
      · cases hok
        exact .inl rfl
    · cases hok
      exact .inl rfl
  | some pair =>
  cases howner : pair.contractOwner with
  | unspecified =>
    simp only [hpair, howner] at hok
    cases hok
    exact .inl rfl
  | module =>
    simp only [hpair, howner] at hok
    cases hok
    exact .inl rfl
  | external =>
  simp only [hpair, howner] at hok
  by_cases henabled : pair.enabled = true
  swap
  · rw [if_pos henabled] at hok
    cases hok
    exact .inl rfl
  rw [if_neg (not_not.mpr henabled)] at hok
  cases hminting : k.mintingEnabled s sender recipient denom with
  | error err =>
    rw [hminting] at hok
    cases hok
    exact .inl rfl
  | ok found =>
    rw [hminting] at hok
    have hfound := (mintingEnabled_eq_ok_iff.mp hminting).2.1
    cases hpair.symm.trans hfound
    exact .inr ⟨pair, rfl, howner, hok⟩

theorem onRecvPacket_cases (hok : k.onRecvPacket s packet ack = .ok (ack', s')) :
    s'.ctx.store = s.ctx.store ∨ ∃ (data : ReceivedPacketData) (sender recipient : AccAddress)
        (pair : StoredPair), k.mintingEnabled s sender recipient (k.receivedDenom packet data.denom) = .ok pair ∧
      pair.contractOwner = .external ∧ k.convertReceived s pair data.amount recipient ack = .ok (ack', s') := by
  unfold onRecvPacket at hok
  by_cases hmodule : s.store.enableErc20 = true
  swap
  · rw [if_pos hmodule] at hok
    cases hok
    exact .inl rfl
  rw [if_neg (not_not.mpr hmodule)] at hok
  cases hdata : k.unmarshalJSON packet.data with
  | none =>
    rw [hdata] at hok
    cases hok
    exact .inl rfl
  | some data =>
  cases hparties : k.getTransferSenderRecipient data with
  | error err =>
    simp only [hdata, hparties] at hok
    cases hok
    exact .inl rfl
  | ok parties =>
  obtain ⟨sender, recipient⟩ := parties
  simp only [hdata, hparties] at hok
  split_ifs at hok
  · cases hok
    exact .inl rfl
  · cases hok
    exact .inl rfl
  cases hbond : k.bondDenom s.ctx.store.sdk with
  | error err =>
    rw [hbond] at hok
    cases hok
    exact .inl rfl
  | ok bondDenom =>
    simp only [hbond] at hok
    split_ifs at hok
    · cases hok
      exact .inl rfl
    · exact (onReceivedDenom_cases hok).imp_right fun ⟨pair, hrest⟩ =>
        ⟨data, sender, recipient, pair, hrest⟩

end

variable (k) in
def escrowTokens (ctx : Ctx S) (pair : StoredPair) (sender : Address) (amount : ℤ) :
    Except Err Vm.MsgEthereumTxResponse × Ctx S :=
  k.callEVM ctx sender pair.getERC20Contract true (.transfer k.moduleAddress amount)

variable (k) in
/-- The contract answers the call, what it returned or logged says that it was carried out, and asked for
the module's tokens then it tells the amount more than before. -/
def Delivers (ctx : Ctx S) (pair : StoredPair) (sender : Address) (amount : ℤ) : Prop :=
  ∃ balanceToken res, k.balanceOf ctx pair.getERC20Contract k.moduleAddress = some balanceToken ∧
    (k.escrowTokens ctx pair sender amount).1 = .ok res ∧
    checkReturn "failed to execute transfer: internal logic error" res pair.getERC20Contract = .ok () ∧
    k.balanceOf (k.escrowTokens ctx pair sender amount).2 pair.getERC20Contract k.moduleAddress =
      some (balanceToken + amount)

section Coins

variable {pair : StoredPair} {ctx ctx' : Ctx S} {msg : MsgConvertERC20}
  {receiver : AccAddress} {sender : Address}

theorem exists_mintForTokens
    (hok : k.convertERC20IntoCoinsForNativeToken ctx pair msg receiver sender = .ok ctx') :
    ∃ balanceToken balanceCoin, k.mintForTokens (k.escrowTokens ctx pair sender msg.amount).2 pair msg receiver
      balanceToken balanceCoin = .ok ctx' := by
  unfold convertERC20IntoCoinsForNativeToken at hok
  unfold escrowTokens
  cases hbefore : k.balanceOf ctx pair.getERC20Contract k.moduleAddress with
  | none =>
    simp only [hbefore] at hok
    cases hok
  | some balanceToken =>
  cases hcall : k.callEVM ctx sender pair.getERC20Contract true (.transfer k.moduleAddress msg.amount) with
  | mk answer escrowed =>
  cases answer with
  | error err =>
    simp only [hbefore, hcall] at hok
    cases hok
  | ok res =>
    simp only [hbefore, hcall] at hok
    exact ⟨balanceToken, _, (seq_eq_ok_iff.mp hok).2⟩

theorem bankMove_convertERC20IntoCoins (hdenom : pair.denom ≠ k.bank.extendedCoinDenom)
    (hok : k.convertERC20IntoCoinsForNativeToken ctx pair msg receiver sender = .ok ctx') :
    ∃ sent, ctx'.store = sent.store ∧
      PreciseBank.Keeper.BankMove k.bank (k.escrowTokens ctx pair sender msg.amount).2 sent
        fun weight other => weight receiver * Coins.amountOf [⟨pair.denom, msg.amount⟩] other := by
  obtain ⟨balanceToken, res, escrowed, minted, sent, -, hcall, -, -, hmint, hsend, -, rfl⟩ :=
    convertERC20IntoCoins_eq_ok_iff.mp hok
  have hmove := (PreciseBank.Keeper.bankMove_mintCoins_singleton k.getModuleAccount_moduleName hdenom
    hmint).trans (bankMove_release hdenom hsend)
  unfold escrowTokens
  rw [hcall]
  exact ⟨sent, rfl, hmove.congr fun weight other => by ring⟩

/-- A conversion of tokens succeeds exactly if the contract delivers them without having moved the receiver's
coins of the pair, and the receiver may be paid. -/
theorem exists_convertERC20IntoCoins_iff (hbank : Lawful k.bank.bk k.bank.modules)
    (hdenom : pair.denom ≠ k.bank.extendedCoinDenom) (hminter : .minter ∈ k.account.permissions)
    (hvalid : Coins.IsValid [⟨pair.denom, msg.amount⟩]) :
    (∃ ctx', k.convertERC20IntoCoinsForNativeToken ctx pair msg receiver sender = .ok ctx') ↔
      k.Delivers ctx pair sender msg.amount ∧ k.bank.bk.blockedAddr receiver = false ∧
        k.bank.getBalance (k.escrowTokens ctx pair sender msg.amount).2 receiver pair.denom =
          k.bank.getBalance ctx receiver pair.denom := by
  constructor
  · rintro ⟨ctx', hok⟩
    obtain ⟨balanceToken, res, escrowed, minted, sent, hbefore, hcall, hcheck, hafter, hmint, hsend, hcoin,
      hevents⟩ := convertERC20IntoCoins_eq_ok_iff.mp hok
    have hcoin' : k.bank.getBalance ctx' receiver pair.denom = _ :=
      (Keeper.getBalance_of_store_eq (congrArg Context.store hevents) _ _).trans hcoin
    obtain ⟨paid, hstore, hmove⟩ := bankMove_convertERC20IntoCoins hdenom hok
    have hpaid := hmove.getBalance_plainCoin hbank.toMovesExactly hdenom receiver
    rw [← Keeper.getBalance_of_store_eq hstore, weightOf_self, one_mul] at hpaid
    have hcalled : k.escrowTokens ctx pair sender msg.amount = (.ok res, escrowed) := hcall
    refine ⟨⟨balanceToken, res, hbefore, by rw [hcalled], hcheck, by rw [hcalled]; exact hafter⟩,
      (sendCoinsFromModuleToAccount_eq_ok_iff.mp hsend).1, ?_⟩
    exact add_right_cancel (hpaid.symm.trans hcoin')
  · rintro ⟨⟨balanceToken, res, hbefore, hres, hcheck, hafter⟩, hblocked, hkept⟩
    have hcall : k.callEVM ctx sender pair.getERC20Contract true (.transfer k.moduleAddress msg.amount) =
        (.ok res, (k.escrowTokens ctx pair sender msg.amount).2) := Prod.ext hres rfl
    generalize (k.escrowTokens ctx pair sender msg.amount).2 = escrowed at hcall hafter hkept
    obtain ⟨minted, hmint⟩ := (PreciseBank.Keeper.exists_mintPlainCoin hbank hdenom hvalid (by decide)
      k.getModuleAccount_moduleName hminter : ∃ minted, k.bank.mintCoins escrowed moduleName _ = .ok minted)
    have hminted := PreciseBank.Keeper.bankMove_mintCoins_singleton k.getModuleAccount_moduleName hdenom hmint
    have hcovered : msg.amount ≤ k.bank.bk.spendableCoin minted.store.sdk k.account.address pair.denom := by
      have hheld := hbank.spendable_nonneg escrowed.store.sdk k.account.address pair.denom
      rw [hminted.measure_eq (hbank.tracks_spendable k.account.address) pair.denom, weightOf_self,
        PreciseBank.Keeper.amountOf_singleton, if_pos rfl]
      omega
    obtain ⟨sent, hsend⟩ := ((PreciseBank.Keeper.exists_sendPlainCoin_iff hbank hdenom hvalid).mpr hcovered :
      ∃ sent, k.bank.sendCoins minted k.account.address receiver _ = .ok sent)
    have hrelease := sendCoinsFromModuleToAccount_eq_ok_iff.mpr ⟨hblocked, hsend⟩
    refine ⟨_, convertERC20IntoCoins_eq_ok_iff.mpr ⟨balanceToken, res, escrowed, minted, sent, hbefore, hcall,
      hcheck, hafter, hmint, hrelease, ?_, rfl⟩⟩
    rw [(bankMove_release hdenom hrelease).getBalance_plainCoin hbank.toMovesExactly hdenom,
      hminted.getBalance_plainCoin hbank.toMovesExactly hdenom, hkept, weightOf_self]
    ring

end Coins

end ConversionKeeper

end CosmosEvm.Erc20
