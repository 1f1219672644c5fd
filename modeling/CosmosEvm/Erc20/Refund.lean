import CosmosEvm.Erc20.Store
import CosmosEvm.Evmd.Chain
import CosmosEvm.PreciseBank.PlainCoin
import CosmosEvm.Vm.Message

namespace CosmosEvm.Erc20

open Result BankKeeper PreciseBank.Keeper Statedb Vm

inductive ContractCall where
  | balanceOf (account : Address)
  | transfer (recipient : Address) (amount : ℤ)

structure FungibleTokenPacketData where
  denom : String
  amount : String
  sender : String

inductive Acknowledgement where
  | result (value : Bytes)
  | error (text : String)

/-- The keeper. The EVM is a parameter: a call ends with a response or an error, and where it is made with
`commit` it may have written to the stores in either case. A query does not read the events that were
emitted before it. -/
structure Keeper (S Acc : Type) where
  bank : PreciseBank.Keeper S
  ak : AccountKeeper S Acc
  isModuleAccount : Acc → Bool
  account : ModuleAccount
  callEVM : Ctx S → Address → Address → Bool → ContractCall →
    Except Err MsgEthereumTxResponse × Ctx S
  newIntFromString : String → Option ℤ
  ibcDenom : String → Denom
  getModuleAccount_moduleName : bank.modules.getModuleAccount moduleName = some account
  query_events : ∀ (ctx : Ctx S) events caller contract call,
    (callEVM { ctx with events } caller contract false call).1 = (callEVM ctx caller contract false call).1

/-- The first word of what a method returned. The ABI reads nothing from no data or from parts of words. -/
def firstWord (ret : Bytes) : Option ℕ :=
  if ret.length = 0 ∨ ret.length % 32 ≠ 0 then none
  else some ((ret.take 32).foldl (fun n byte => n * 256 + byte.val) 0)

def unpackBool (ret : Bytes) : Except Err Bool :=
  match firstWord ret with
  | none => .error (.wrapped .other (if ret.length = 0 then
      "abi: attempting to unmarshal an empty string while arguments are expected"
    else "abi: improperly formatted output"))
  | some 0 => .ok false
  | some 1 => .ok true
  | some _ => .error (.wrapped .other "abi: improperly encoded boolean value")

def logTransferSigHash : Hash :=
  bytesToHash [0xdd, 0xf2, 0x52, 0xad, 0x1b, 0xe2, 0xc8, 0x9b, 0x69, 0xc2, 0xb0, 0x68, 0xfc, 0x37, 0x8d,
    0xaa, 0x95, 0x2b, 0xa7, 0xf1, 0x63, 0xc4, 0xa1, 0x16, 0x28, 0xf5, 0x5a, 0x4d, 0xf5, 0x23, 0xb3, 0xef]

/-- The loop of `validateTransferEventExists`. A log without topics is indexed out of range. -/
def findTransferEvent (tokenAddress : Address) : List Log → Bool → Except Err Bool
  | [], found => .ok found
  | log :: logs, found =>
    match log.topics with
    | [] => .error (.panicked "index out of range [0] with length 0")
    | topic :: _ =>
      if topic = logTransferSigHash then
        if log.address ≠ tokenAddress then
          .error (.wrapped .other "Transfer event from unexpected address: unexpected event")
        else if found then .error (.wrapped .other "duplicate Transfer event: unexpected event")
        else findTransferEvent tokenAddress logs true
      else findTransferEvent tokenAddress logs found

def validateTransferEventExists (logs : List Log) (tokenAddress : Address) : Except Err Unit :=
  if logs.length = 0 then .error (.wrapped .other "expected Transfer event: expected event")
  else do
    let found ← findTransferEvent tokenAddress logs false
    if found then .ok () else .error (.wrapped .other "expected Transfer event: expected event")

/-- The check of what `transfer` returned, with the text for a transfer that was refused. -/
def checkReturn (refused : String) (res : MsgEthereumTxResponse) (contract : Address) : Except Err Unit :=
  if res.ret.length = 0 then validateTransferEventExists res.logs contract
  else do
    let value ← unpackBool res.ret
    if value then .ok () else .error (.wrapped .other refused)

def checkTransfer : MsgEthereumTxResponse → Address → Except Err Unit :=
  checkReturn "failed to execute unescrow tokens from user: internal logic error"

namespace Keeper

variable {S Acc : Type} (k : Keeper S Acc)

def moduleAddress : Address := bytesToAddress k.account.address

def balanceOf (ctx : Ctx S) (contract account : Address) : Option ℤ :=
  match (k.callEVM ctx k.moduleAddress contract false (.balanceOf account)).1 with
  | .error _ => none
  | .ok res => (firstWord res.ret).map fun word => (word : ℤ)

variable (ctx : Ctx S)

/-- `ConvertCoinNativeERC20` after the escrow, with the receiver's tokens before it. -/
def unescrowTokens (pair : StoredPair) (amount : ℤ) (receiver : Address)
    (balanceToken : ℤ) : Except Err Unit × Ctx S :=
  match k.callEVM ctx k.moduleAddress pair.getERC20Contract true (.transfer receiver amount) with
  | (.error err, ctx) => (.error err, ctx)
  | (.ok res, ctx) =>
    match checkTransfer res pair.getERC20Contract with
    | .error err => (.error err, ctx)
    | .ok _ =>
      match k.balanceOf ctx pair.getERC20Contract receiver with
      | none => (.error (.wrapped .other "failed to retrieve balance: EVM call unexpected error"), ctx)
      | some balanceTokenAfter =>
        let exp := balanceToken + amount
        if balanceTokenAfter ≠ exp then
          (.error (.wrapped .other ("invalid token balance - expected: " ++ exp.repr ++
            ", actual: " ++ balanceTokenAfter.repr ++ ": post transfer balance invariant failed")),
            ctx)
        else
          match k.bank.burnCoins ctx moduleName [⟨pair.denom, amount⟩] with
          | .error err => (.error (err.wrap "failed to burn coins"), ctx)
          | .ok ctx => (.ok (), ctx)

/-- `ConvertCoinNativeERC20`. It returns the context on an error as well: nothing is undone. -/
def convertCoinNativeERC20 (pair : StoredPair) (amount : ℤ)
    (receiver : Address) (sender : AccAddress) : Except Err Unit × Ctx S :=
  if ¬ 0 < amount then
    (.error (.wrapped .other "converted coin amount must be positive: token amount is negative"), ctx)
  else
    match k.balanceOf ctx pair.getERC20Contract receiver with
    | none => (.error (.wrapped .other "failed to retrieve balance: EVM call unexpected error"), ctx)
    | some balanceToken =>
      match k.bank.sendCoinsFromAccountToModule ctx sender moduleName [⟨pair.denom, amount⟩] with
      | .error err => (.error (err.wrap "failed to escrow coins"), ctx)
      | .ok ctx => k.unescrowTokens ctx pair amount receiver balanceToken

/-- The handler makes a conversion: the module is enabled, the denomination registered, and the sender no
module account. -/
def converts (store : Store) (data : FungibleTokenPacketData) (sender : AccAddress) : Bool :=
  store.enableErc20 && store.isDenomRegistered (k.ibcDenom data.denom) &&
    !((k.ak.getAccount ctx.store.sdk sender).any k.isModuleAccount)

/-- The handler's view of a conversion: an error is an event, a panic goes on. -/
def recordFailure (pair : StoredPair) :
    Except Err Unit × Ctx S → Except Err (Ctx S)
  | (.ok _, ctx) => .ok ctx
  | (.error (.panicked text), _) => .error (.panicked text)
  | (.error (.wrapped _ text), ctx) => .ok (ctx.emitEvents [⟨"failed_convert_erc20",
      [("source_channel", pair.denom), ("erc20_token", pair.erc20Address),
        ("error", text)]⟩])

def convertCoinToERC20FromPacket (store : Store)
    (data : FungibleTokenPacketData) : Except Err (Ctx S) :=
  match k.bank.codec.accAddressFromBech32 data.sender with
  | none => .error (.wrapped .other "decoding bech32 failed")
  | some sender =>
    match store.getTokenPair (store.getTokenPairID data.denom) with
    | none => .ok ctx
    | some pair =>
      match pair.contractOwner with
      | .module => .ok ctx
      | .unspecified => .ok ctx
      | .external =>
        if k.converts ctx store data sender then
          match k.newIntFromString data.amount with
          -- the zero `math.Int` has no value to take the sign of
          | none => .error (.panicked "invalid memory address or nil pointer dereference")
          | some amount =>
            recordFailure pair
              (k.convertCoinNativeERC20 ctx pair amount (bytesToAddress sender) sender)
        else .ok ctx

def onAcknowledgementPacket (store : Store)
    (data : FungibleTokenPacketData) : Acknowledgement → Except Err (Ctx S)
  | .error _ => k.convertCoinToERC20FromPacket ctx store data
  | .result _ => .ok ctx

def onTimeoutPacket (store : Store) (data : FungibleTokenPacketData) : Except Err (Ctx S) :=
  k.convertCoinToERC20FromPacket ctx store data

end Keeper

inductive RefundCallback where
  | errorAcknowledgement (text : String)
  | timeout

namespace Keeper

variable {S Acc : Type} (k : Keeper S Acc) (ctx : Ctx S)

def onRefund (store : Store) (data : FungibleTokenPacketData) : RefundCallback → Except Err (Ctx S)
  | .errorAcknowledgement text => k.onAcknowledgementPacket ctx store data (.error text)
  | .timeout => k.onTimeoutPacket ctx store data

/-- The tokens of an account, none where the contract does not tell. -/
def tokens (pair : StoredPair) (account : Address) : ℤ :=
  (k.balanceOf ctx pair.getERC20Contract account).getD 0

structure Refunded (ctx ctx' : Ctx S) (pair : StoredPair) (sender : AccAddress) :
    Prop where
  sender_eq : k.bank.getBalance ctx' sender pair.denom + (k.tokens ctx' pair (bytesToAddress sender) -
    k.tokens ctx pair (bytesToAddress sender)) = k.bank.getBalance ctx sender pair.denom
  module_eq : k.bank.getBalance ctx' k.account.address pair.denom =
    k.bank.getBalance ctx k.account.address pair.denom

structure Escrows (ctx : Ctx S) (store : Store) (data : FungibleTokenPacketData)
    (pair : StoredPair) (sender : AccAddress) (amount balanceToken : ℤ)
    (escrowed : Ctx S) : Prop where
  converts_eq : k.converts ctx store data sender = true
  amount_eq : k.newIntFromString data.amount = some amount
  amount_pos : 0 < amount
  balanceOf_eq : k.balanceOf ctx pair.getERC20Contract (bytesToAddress sender) = some balanceToken
  send_eq : k.bank.sendCoinsFromAccountToModule ctx sender moduleName [⟨pair.denom, amount⟩] = .ok escrowed

def release (pair : StoredPair) (receiver : Address) (amount : ℤ) :
    Except Err MsgEthereumTxResponse × Ctx S :=
  k.callEVM ctx k.moduleAddress pair.getERC20Contract true (.transfer receiver amount)

/-- The contract answers the call, what it returned or logged says that it was carried out, and asked for
the receiver's tokens then it tells the amount more than before. -/
def Releases (pair : StoredPair) (receiver : Address) (amount balanceToken : ℤ) : Prop :=
  (∃ res, (k.release ctx pair receiver amount).1 = .ok res ∧
      checkTransfer res pair.getERC20Contract = .ok ()) ∧
    k.balanceOf (k.release ctx pair receiver amount).2 pair.getERC20Contract receiver =
      some (balanceToken + amount)

/-- The tokens are released and the module may burn the escrowed coins, which the contract's own code has
left with it. What that code took of the sender's coins it makes up in the tokens it tells of after the
burning. -/
def HandsOut (pair : StoredPair) (sender : AccAddress) (amount balanceToken : ℤ) : Prop :=
  let called := (k.release ctx pair (bytesToAddress sender) amount).2
  .burner ∈ k.account.permissions ∧ k.Releases ctx pair (bytesToAddress sender) amount balanceToken ∧
    k.bank.getBalance called k.account.address pair.denom =
      k.bank.getBalance ctx k.account.address pair.denom ∧
    ∀ burnt, k.bank.burnCoins called moduleName [⟨pair.denom, amount⟩] = .ok burnt →
      k.bank.getBalance ctx sender pair.denom - k.bank.getBalance called sender pair.denom =
        k.tokens burnt pair (bytesToAddress sender) - (balanceToken + amount)

/-- The coins are not burnt, and the contract's own code has taken them from the module and brought the
sender the amount, in coins or in tokens. -/
def GivesBack (pair : StoredPair) (sender : AccAddress) (amount balanceToken : ℤ) : Prop :=
  let called := (k.release ctx pair (bytesToAddress sender) amount).2
  ¬ (.burner ∈ k.account.permissions ∧ k.Releases ctx pair (bytesToAddress sender) amount balanceToken ∧
      amount ≤ k.bank.getBalance called k.account.address pair.denom) ∧
    k.bank.getBalance called k.account.address pair.denom =
      k.bank.getBalance ctx k.account.address pair.denom - amount ∧
    k.bank.getBalance called sender pair.denom - k.bank.getBalance ctx sender pair.denom +
      (k.tokens called pair (bytesToAddress sender) - balanceToken) = amount

variable {k} {ctx ctx' : Ctx S} {store : Store} {data : FungibleTokenPacketData}
  {pair : StoredPair} {sender : AccAddress} {amount balanceToken : ℤ}

theorem tokens_of_store_eq (hstore : ctx'.store = ctx.store) (account : Address) :
    k.tokens ctx' pair account = k.tokens ctx pair account := by
  have heq : ctx' = { ctx with events := ctx'.events } := by
    cases ctx'
    cases hstore
    rfl
  unfold tokens balanceOf
  rw [heq, k.query_events]

theorem getBalance_of_store_eq (hstore : ctx'.store = ctx.store) (a : AccAddress) (denom : Denom) :
    k.bank.getBalance ctx' a denom = k.bank.getBalance ctx a denom := by
  unfold PreciseBank.Keeper.getBalance PreciseBank.Keeper.getFractionalBalance
  rw [hstore]

theorem refunded_congr {ctx'' : Ctx S} (hstore : ctx'.store = ctx''.store) :
    Refunded k ctx ctx' pair sender ↔ Refunded k ctx ctx'' pair sender := by
  constructor
  · rintro ⟨hsender, hmodule⟩
    rw [getBalance_of_store_eq hstore, tokens_of_store_eq hstore] at hsender
    exact ⟨hsender, (getBalance_of_store_eq hstore _ _).symm.trans hmodule⟩
  · rintro ⟨hsender, hmodule⟩
    rw [← getBalance_of_store_eq hstore, ← tokens_of_store_eq hstore] at hsender
    exact ⟨hsender, (getBalance_of_store_eq hstore _ _).trans hmodule⟩

theorem refunded_refl : Refunded k ctx ctx pair sender := ⟨by ring, rfl⟩

theorem sendCoinsFromAccountToModule_eq (ctx : Ctx S) (sender : AccAddress)
    (amt : Coins) : k.bank.sendCoinsFromAccountToModule ctx sender moduleName amt =
      k.bank.sendCoins ctx sender k.account.address amt := by
  unfold PreciseBank.Keeper.sendCoinsFromAccountToModule
  rw [k.getModuleAccount_moduleName]
  exact if_neg (by decide)

theorem bankMove_escrow {denom : Denom} (hdenom : denom ≠ k.bank.extendedCoinDenom)
    (hok : k.bank.sendCoinsFromAccountToModule ctx sender moduleName [⟨denom, amount⟩] = .ok ctx') :
    BankMove k.bank ctx ctx' fun weight other =>
      (weight k.account.address - weight sender) * Coins.amountOf [⟨denom, amount⟩] other := by
  rw [sendCoinsFromAccountToModule_eq] at hok
  exact bankMove_sendCoins_singleton hdenom hok

/-- The contract's answer to a release of tokens panics: the call does, or the reader of its logs. -/
def Breaks (k : Keeper S Acc) (ctx : Ctx S) (pair : StoredPair) (receiver : Address)
    (amount : ℤ) : Prop :=
  let answer := (k.release ctx pair receiver amount).1
  ∃ text, answer = .error (.panicked text) ∨
    ∃ res, answer = .ok res ∧ checkTransfer res pair.getERC20Contract = .error (.panicked text)

/-- After the escrow either the tokens are released and the coins burnt, or the state is left as the contract
left it. -/
theorem unescrowTokens_cases {receiver : Address} {result : Except Err Unit}
    (hresult : k.unescrowTokens ctx pair amount receiver balanceToken = (result, ctx')) :
    let called := (k.release ctx pair receiver amount).2
    (∃ err, result = .error err ∧ ctx' = called ∧
        (∀ text, err = .panicked text → Breaks k ctx pair receiver amount ∨
          ∃ err', k.bank.burnCoins called moduleName [⟨pair.denom, amount⟩] = .error err') ∧
        ¬ (k.Releases ctx pair receiver amount balanceToken ∧
          ∃ burnt, k.bank.burnCoins called moduleName [⟨pair.denom, amount⟩] = .ok burnt)) ∨
      result = .ok () ∧ k.Releases ctx pair receiver amount balanceToken ∧
        k.bank.burnCoins called moduleName [⟨pair.denom, amount⟩] = .ok ctx' := by
  unfold unescrowTokens at hresult
  unfold Breaks Releases
  unfold release
  cases hcall : k.callEVM ctx k.moduleAddress pair.getERC20Contract true (.transfer receiver amount) with
  | mk answer ctx₁ =>
  rw [hcall] at hresult
  cases answer with
  | error err =>
    cases hresult
    exact .inl ⟨err, rfl, rfl, fun text htext => .inl ⟨text, .inl (congrArg _ htext)⟩, by simp⟩
  | ok res =>
  cases hcheck : checkTransfer res pair.getERC20Contract with
  | error err =>
    simp only [hcheck] at hresult
    cases hresult
    exact .inl ⟨err, rfl, rfl, fun text htext =>
      .inl ⟨text, .inr ⟨res, rfl, hcheck.trans (congrArg _ htext)⟩⟩, by simp [hcheck]⟩
  | ok done =>
  cases hafter : k.balanceOf ctx₁ pair.getERC20Contract receiver with
  | none =>
    simp only [hcheck, hafter] at hresult
    cases hresult
    exact .inl ⟨_, rfl, rfl, nofun, by simp⟩
  | some balanceTokenAfter =>
  simp only [hcheck, hafter] at hresult
  by_cases hexp : balanceTokenAfter = balanceToken + amount
  swap
  · rw [if_pos hexp] at hresult
    cases hresult
    exact .inl ⟨_, rfl, rfl, nofun, by simp [hexp]⟩
  rw [if_neg (not_not.mpr hexp)] at hresult
  cases hburn : k.bank.burnCoins ctx₁ moduleName [⟨pair.denom, amount⟩] with
  | error err =>
    rw [hburn] at hresult
    cases hresult
    exact .inl ⟨_, rfl, rfl, fun _ _ => .inr ⟨err, hburn⟩, by simp [hburn]⟩
  | ok burnt =>
    rw [hburn] at hresult
    cases hresult
    exact .inr ⟨rfl, ⟨⟨res, rfl, hcheck⟩, congrArg some hexp⟩, hburn⟩

theorem Breaks.unescrowTokens_eq {receiver : Address} (hbreaks : Breaks k ctx pair receiver amount)
    (balanceToken : ℤ) :
    ∃ text, (k.unescrowTokens ctx pair amount receiver balanceToken).1 = .error (.panicked text) := by
  obtain ⟨text, hbreaks⟩ := hbreaks
  refine ⟨text, ?_⟩
  unfold release at hbreaks
  unfold unescrowTokens
  cases hcall : k.callEVM ctx k.moduleAddress pair.getERC20Contract true (.transfer receiver amount) with
  | mk answer ctx₁ =>
  rw [hcall] at hbreaks
  obtain hanswer | ⟨res, hanswer, hcheck⟩ := hbreaks
  · cases hanswer
    rfl
  · cases hanswer
    simp only [hcheck]

/-- What comes of the escrowed coins, whatever the contract does: the two ways in which nothing is stranded
are told apart by whether the coins are burnt. -/
theorem refunded_unescrowTokens_iff (hbank : Lawful k.bank.bk k.bank.modules)
    (hdenom : pair.denom ≠ k.bank.extendedCoinDenom) (hne : sender ≠ k.account.address)
    {escrowed : Ctx S}
    (hbalance : k.balanceOf ctx pair.getERC20Contract (bytesToAddress sender) = some balanceToken)
    (hescrow : k.bank.sendCoinsFromAccountToModule ctx sender moduleName [⟨pair.denom, amount⟩] =
      .ok escrowed) {result : Except Err Unit}
    (hresult : k.unescrowTokens escrowed pair amount (bytesToAddress sender) balanceToken = (result, ctx')) :
    Refunded k ctx ctx' pair sender ↔
      k.HandsOut escrowed pair sender amount balanceToken ∨
        k.GivesBack escrowed pair sender amount balanceToken := by
  have hsend := (sendCoinsFromAccountToModule_eq ctx sender _).symm.trans hescrow
  have hvalid := (sendCoins_eq_ok_iff.mp hsend).1
  have hescrowed := (bankMove_escrow hdenom hescrow).getBalance_plainCoin hbank.toMovesExactly hdenom
  have hmodule := hescrowed k.account.address
  have hsender := hescrowed sender
  rw [weightOf_self, weightOf_of_ne hne] at hmodule
  rw [weightOf_self, weightOf_of_ne hne.symm] at hsender
  have hbefore : k.tokens ctx pair (bytesToAddress sender) = balanceToken := by
    unfold tokens
    rw [hbalance]
    rfl
  have hheld := hbank.spendable_nonneg ctx.store.sdk k.account.address pair.denom
  rw [hbank.module_spendable k.getModuleAccount_moduleName, ← getBalance_of_ne hdenom] at hheld
  have hburns : (∃ burnt, k.bank.burnCoins (k.release escrowed pair (bytesToAddress sender) amount).2
      moduleName [⟨pair.denom, amount⟩] = .ok burnt) ↔ _ :=
    exists_burnPlainCoin_iff hbank hdenom hvalid (by decide) k.getModuleAccount_moduleName
  obtain ⟨err, -, rfl, -, hkept⟩ | ⟨-, hreleases, hburn⟩ := unescrowTokens_cases hresult
  · rw [hburns] at hkept
    have hkept' : ¬ (_ ∧ _ ∧ _) := fun ⟨hburner, hreleases, hle⟩ => hkept ⟨hreleases, hburner, hle⟩
    have hstays : ¬ k.HandsOut escrowed pair sender amount balanceToken := by
      rintro ⟨hburner, hreleases, hcoins, -⟩
      exact hkept' ⟨hburner, hreleases, by rw [hcoins, hmodule]; omega⟩
    rw [or_iff_right hstays, GivesBack, and_iff_right hkept']
    constructor
    · rintro ⟨hsender', hmodule'⟩
      rw [hbefore] at hsender'
      exact ⟨by omega, by omega⟩
    · rintro ⟨hmodule', hsender'⟩
      exact ⟨by rw [hbefore]; omega, by omega⟩
  · have hburnt := (bankMove_burnCoins_singleton k.getModuleAccount_moduleName hdenom
      hburn).getBalance_plainCoin hbank.toMovesExactly hdenom
    have hmodule' := hburnt k.account.address
    have hsender' := hburnt sender
    rw [weightOf_self] at hmodule'
    rw [weightOf_of_ne hne.symm] at hsender'
    obtain ⟨hburner, hle⟩ := hburns.mp ⟨ctx', hburn⟩
    have hout : ¬ k.GivesBack escrowed pair sender amount balanceToken :=
      fun hback => hback.1 ⟨hburner, hreleases, hle⟩
    rw [or_iff_left hout, HandsOut, and_iff_right hburner, and_iff_right hreleases]
    constructor
    · rintro ⟨hsender'', hmodule''⟩
      rw [hbefore] at hsender''
      refine ⟨by omega, fun burnt hburnt => ?_⟩
      cases hburn.symm.trans hburnt
      omega
    · rintro ⟨hmodule'', htokens⟩
      have htokens := htokens ctx' hburn
      exact ⟨by rw [hbefore]; omega, by omega⟩

theorem recordFailure_store {result : Except Err Unit × Ctx S}
    (hok : recordFailure pair result = .ok ctx') : ctx'.store = result.2.store := by
  obtain ⟨answer, ctx⟩ := result
  cases answer with
  | ok done =>
    cases hok
    rfl
  | error err =>
    cases err with
    | panicked text => cases hok
    | wrapped root text =>
      cases hok
      rfl

theorem convertCoinNativeERC20_cases {receiver : Address} {result : Except Err Unit}
    (hresult : k.convertCoinNativeERC20 ctx pair amount receiver sender = (result, ctx')) :
    ((∃ err, result = .error err) ∧ ctx' = ctx ∧ ¬ ∃ balanceToken escrowed, 0 < amount ∧
        k.balanceOf ctx pair.getERC20Contract receiver = some balanceToken ∧
        k.bank.sendCoinsFromAccountToModule ctx sender moduleName [⟨pair.denom, amount⟩] = .ok escrowed) ∨
      ∃ balanceToken escrowed, 0 < amount ∧
        k.balanceOf ctx pair.getERC20Contract receiver = some balanceToken ∧
        k.bank.sendCoinsFromAccountToModule ctx sender moduleName [⟨pair.denom, amount⟩] = .ok escrowed ∧
        k.unescrowTokens escrowed pair amount receiver balanceToken = (result, ctx') := by
  unfold convertCoinNativeERC20 at hresult
  by_cases hpos : 0 < amount
  swap
  · rw [if_pos hpos] at hresult
    cases hresult
    exact .inl ⟨⟨_, rfl⟩, rfl, fun ⟨_, _, habs, _⟩ => hpos habs⟩
  rw [if_neg (not_not.mpr hpos)] at hresult
  cases hbefore : k.balanceOf ctx pair.getERC20Contract receiver with
  | none =>
    rw [hbefore] at hresult
    cases hresult
    exact .inl ⟨⟨_, rfl⟩, rfl, fun ⟨_, _, _, habs, _⟩ => nomatch habs⟩
  | some balanceToken =>
  cases hescrow : k.bank.sendCoinsFromAccountToModule ctx sender moduleName [⟨pair.denom, amount⟩] with
  | error err =>
    simp only [hbefore, hescrow] at hresult
    cases hresult
    exact .inl ⟨⟨_, rfl⟩, rfl, fun ⟨_, _, _, _, habs⟩ => nomatch habs⟩
  | ok escrowed =>
    simp only [hbefore, hescrow] at hresult
    exact .inr ⟨balanceToken, escrowed, hpos, rfl, rfl, hresult⟩

theorem convertCoinToERC20FromPacket_cases
    (hok : k.convertCoinToERC20FromPacket ctx store data = .ok ctx') :
    ctx' = ctx ∨ ∃ sender pair amount, k.bank.codec.accAddressFromBech32 data.sender = some sender ∧
      store.getTokenPair (store.getTokenPairID data.denom) = some pair ∧
      pair.contractOwner = .external ∧ k.converts ctx store data sender = true ∧
      k.newIntFromString data.amount = some amount ∧
      recordFailure pair (k.convertCoinNativeERC20 ctx pair amount (bytesToAddress sender) sender) =
        .ok ctx' := by
  unfold convertCoinToERC20FromPacket at hok
  cases hsender : k.bank.codec.accAddressFromBech32 data.sender with
  | none =>
    rw [hsender] at hok
    cases hok
  | some sender =>
  cases hpair : store.getTokenPair (store.getTokenPairID data.denom) with
  | none =>
    simp only [hsender, hpair] at hok
    cases hok
    exact .inl rfl
  | some pair =>
  cases howner : pair.contractOwner with
  | unspecified =>
    simp only [hsender, hpair, howner] at hok
    cases hok
    exact .inl rfl
  | module =>
    simp only [hsender, hpair, howner] at hok
    cases hok
    exact .inl rfl
  | external =>
  simp only [hsender, hpair, howner] at hok
  by_cases hconverts : k.converts ctx store data sender = true
  swap
  · rw [if_neg hconverts] at hok
    cases hok
    exact .inl rfl
  rw [if_pos hconverts] at hok
  cases hamount : k.newIntFromString data.amount with
  | none =>
    rw [hamount] at hok
    cases hok
  | some amount =>
    rw [hamount] at hok
    exact .inr ⟨sender, pair, amount, rfl, rfl, howner, hconverts, rfl, hok⟩

theorem onRefund_eq (callback : RefundCallback) :
    k.onRefund ctx store data callback = k.convertCoinToERC20FromPacket ctx store data := by
  cases callback with
  | errorAcknowledgement text => rfl
  | timeout => rfl

theorem onRefund_of_converts (hsender : k.bank.codec.accAddressFromBech32 data.sender = some sender)
    (hpair : store.getTokenPair (store.getTokenPairID data.denom) = some pair)
    (howner : pair.contractOwner = .external) (hconverts : k.converts ctx store data sender = true)
    (hamount : k.newIntFromString data.amount = some amount) (callback : RefundCallback) :
    k.onRefund ctx store data callback =
      recordFailure pair (k.convertCoinNativeERC20 ctx pair amount (bytesToAddress sender) sender) := by
  rw [onRefund_eq]
  unfold convertCoinToERC20FromPacket
  simp only [hsender, hpair, howner, hamount, hconverts, if_true]

/-- Nothing is stranded by a refund exactly if, wherever its conversion escrows the sender's coins, the
contract's answers and the module's permission to burn lead to tokens for them, or the contract gives back
what was escrowed. -/
theorem refunded_iff (hbank : Lawful k.bank.bk k.bank.modules)
    (hmodule : (k.ak.getAccount ctx.store.sdk k.account.address).any k.isModuleAccount = true)
    (hdenom : pair.denom ≠ k.bank.extendedCoinDenom)
    (hsender : k.bank.codec.accAddressFromBech32 data.sender = some sender)
    (hpair : store.getTokenPair (store.getTokenPairID data.denom) = some pair)
    (howner : pair.contractOwner = .external) (callback : RefundCallback)
    (hok : k.onRefund ctx store data callback = .ok ctx') :
    Refunded k ctx ctx' pair sender ↔ ∀ amount balanceToken escrowed,
      k.Escrows ctx store data pair sender amount balanceToken escrowed →
        k.HandsOut escrowed pair sender amount balanceToken ∨
          k.GivesBack escrowed pair sender amount balanceToken := by
  have hconvert := (onRefund_eq callback).symm.trans hok
  unfold convertCoinToERC20FromPacket at hconvert
  simp only [hsender, hpair, howner] at hconvert
  by_cases hconverts : k.converts ctx store data sender = true
  swap
  · rw [if_neg hconverts] at hconvert
    cases hconvert
    exact iff_of_true refunded_refl fun _ _ _ hescrows => absurd hescrows.converts_eq hconverts
  rw [if_pos hconverts] at hconvert
  cases hamount : k.newIntFromString data.amount with
  | none =>
    rw [hamount] at hconvert
    cases hconvert
  | some amount =>
  rw [hamount] at hconvert
  have hne : sender ≠ k.account.address := by
    intro heq
    unfold converts at hconverts
    rw [heq, hmodule] at hconverts
    simp at hconverts
  rw [refunded_congr (recordFailure_store hconvert)]
  cases hresult : k.convertCoinNativeERC20 ctx pair amount (bytesToAddress sender) sender with
  | mk result ctx₁ =>
  obtain ⟨-, rfl, hbefore⟩ | ⟨balanceToken, escrowed, hpos, hbalance, hescrow, hunescrow⟩ :=
    convertCoinNativeERC20_cases hresult
  · refine iff_of_true refunded_refl fun amount' balanceToken escrowed hescrows => ?_
    cases hamount.symm.trans hescrows.amount_eq
    exact absurd ⟨balanceToken, escrowed, hescrows.amount_pos, hescrows.balanceOf_eq, hescrows.send_eq⟩
      hbefore
  · rw [refunded_unescrowTokens_iff hbank hdenom hne hbalance hescrow hunescrow]
    constructor
    · intro hsettled amount' balanceToken' escrowed' hescrows
      cases hamount.symm.trans hescrows.amount_eq
      cases hbalance.symm.trans hescrows.balanceOf_eq
      cases hescrow.symm.trans hescrows.send_eq
      exact hsettled
    · intro hsettled
      exact hsettled amount balanceToken escrowed ⟨hconverts, hamount, hpos, hbalance, hescrow⟩

end Keeper

def returning (ret : Bytes) : MsgEthereumTxResponse := ⟨26852, 26852, none, ret, []⟩

def tokenSlot (account : Address) : Hash := bytesToHash account.bytes

/-- A contract that keeps tokens in its storage. Where it is not sound, `transfer` moves nothing and
returns false. -/
def tokenEVM (sound : Bool) (ctx : Ctx (AuthLedger Evmd.moduleAccounts))
    (caller contract : Address) (_commit : Bool) :
    ContractCall → Except Err MsgEthereumTxResponse × Ctx (AuthLedger Evmd.moduleAccounts)
  | .balanceOf account =>
    (.ok (returning (Vm.Keeper.getState ctx.store contract (tokenSlot account)).bytes), ctx)
  | .transfer recipient amount =>
    if sound then
      let held account := (firstWord (Vm.Keeper.getState ctx.store contract
        (tokenSlot account)).bytes).getD 0
      let write ctx account (balance : ℕ) := Vm.Keeper.setState ctx contract (tokenSlot account)
        (bytesToHash (bigEndian 32 balance)).bytes
      (.ok (returning (bytesToHash [1]).bytes), write
        (write ctx caller (held caller - amount.toNat)) recipient (held recipient + amount.toNat))
    else (.ok (returning (bytesToHash []).bytes), ctx)

def decimal (text : String) : Option ℤ :=
  if text.toList ≠ [] ∧ text.toList.all Char.isDigit then
    some (text.toList.foldl (fun n c => n * 10 + (c.toNat - '0'.toNat : ℕ)) 0)
  else none

def tokenKeeper (sound : Bool) : Keeper (AuthLedger Evmd.moduleAccounts) AuthAccount where
  bank := Evmd.chainBank Evmd.sixDecimalsCoin
  ak := authKeeper Evmd.moduleAccounts
  isModuleAccount acc := Evmd.blockedAddr acc.address
  account := Evmd.moduleAccount "erc20" [.minter, .burner]
  callEVM := tokenEVM sound
  newIntFromString := decimal
  ibcDenom denom := denom
  getModuleAccount_moduleName := rfl
  query_events ctx events caller contract call := by
    cases call with
    | balanceOf account => rfl
    | transfer recipient amount => cases sound <;> rfl

def tokenAddress : Address := bytesToAddress [0xe2, 0x0c]

def tokenPair : StoredPair := ⟨lowerHex tokenAddress, "erc20:" ++ lowerHex tokenAddress, true, .external⟩

def tokenStore : Store :=
  { Store.empty with
    enableErc20 := true
    pairs := Finmap.singleton [1] tokenPair
    byErc20 := Finmap.singleton tokenAddress [1]
    byDenom := Finmap.singleton tokenPair.denom [1] }

def tokenHolder : Address := bytesToAddress [0xa1]

def refundData : FungibleTokenPacketData :=
  ⟨tokenPair.denom, "100", textCodec.accAddressString tokenHolder.bytes⟩

def refundContext : Ctx (AuthLedger Evmd.moduleAccounts) :=
  Vm.Keeper.setState (Evmd.genesisChain [(tokenHolder.bytes, [⟨tokenPair.denom, 100⟩]),
      ((Evmd.moduleAddress "erc20").bytes, [])])
    tokenAddress (tokenSlot (Evmd.moduleAddress "erc20")) (bytesToHash [100]).bytes

theorem refundData_sender : textCodec.accAddressFromBech32 refundData.sender = some tokenHolder.bytes :=
  TextCodec.accAddressFromText_accAddressString tokenHolder.bytes

theorem onRefund_refundData (sound : Bool) :
    (tokenKeeper sound).onRefund refundContext tokenStore refundData .timeout =
      Keeper.recordFailure tokenPair ((tokenKeeper sound).convertCoinNativeERC20
        refundContext tokenPair 100 (bytesToAddress tokenHolder.bytes) tokenHolder.bytes) := by
  have hpair : tokenStore.getTokenPair (tokenStore.getTokenPairID refundData.denom) = some tokenPair := by
    decide +kernel
  have hconverts : (tokenKeeper sound).converts refundContext tokenStore refundData
      tokenHolder.bytes = true := by
    cases sound <;> decide +kernel
  have hamount : decimal refundData.amount = some 100 := by decide +kernel
  exact Keeper.onRefund_of_converts refundData_sender hpair rfl hconverts hamount .timeout

theorem handsOut_sound_contract {escrowed : Ctx (AuthLedger Evmd.moduleAccounts)}
    (hescrow : (tokenKeeper true).bank.sendCoinsFromAccountToModule refundContext tokenHolder.bytes moduleName
      [⟨tokenPair.denom, 100⟩] = .ok escrowed) :
    (tokenKeeper true).HandsOut escrowed tokenPair tokenHolder.bytes 100 0 := by
  have hvalues : ((tokenKeeper true).bank.sendCoinsFromAccountToModule refundContext tokenHolder.bytes
      moduleName [⟨tokenPair.denom, 100⟩]).toOption.map (fun escrowed =>
        let called := (tokenKeeper true).release escrowed tokenPair (bytesToAddress tokenHolder.bytes) 100
        let coins ctx account := (tokenKeeper true).bank.getBalance ctx account tokenPair.denom
        ((called.1.toOption.map fun res =>
            (checkTransfer res tokenPair.getERC20Contract).toOption.isSome),
          (tokenKeeper true).balanceOf called.2 tokenPair.getERC20Contract (bytesToAddress tokenHolder.bytes),
          coins called.2 (Evmd.moduleAddress "erc20").bytes, coins escrowed (Evmd.moduleAddress "erc20").bytes,
          coins escrowed tokenHolder.bytes - coins called.2 tokenHolder.bytes,
          ((tokenKeeper true).bank.burnCoins called.2 moduleName [⟨tokenPair.denom, 100⟩]).toOption.map
            fun burnt => (tokenKeeper true).tokens burnt tokenPair (bytesToAddress tokenHolder.bytes))) =
      some (some true, some 100, 100, 100, 0, some 100) := by
    decide +kernel
  rw [hescrow] at hvalues
  have hvalues := Option.some.inj hvalues
  simp only [Prod.mk.injEq] at hvalues
  obtain ⟨hanswer, hafter, hmodule, hmodule', hsender, hburnt⟩ := hvalues
  obtain ⟨res, hres, hcheck⟩ := Option.map_eq_some_iff.mp hanswer
  obtain ⟨done, hdone⟩ := exists_eq_ok_of_isSome hcheck
  refine ⟨by decide, ⟨⟨res, toOption_eq_some_iff.mp hres, hdone⟩, hafter⟩, hmodule.trans hmodule'.symm,
    fun burnt hburn => ?_⟩
  obtain ⟨burnt', hburn', htokens⟩ := Option.map_eq_some_iff.mp hburnt
  cases hburn.symm.trans (toOption_eq_some_iff.mp hburn')
  rw [htokens]
  exact hsender

theorem refunded_sound_contract : ∃ ctx',
    (tokenKeeper true).onRefund refundContext tokenStore refundData .timeout = .ok ctx' ∧
      (tokenKeeper true).Refunded refundContext ctx' tokenPair tokenHolder.bytes := by
  have hsome : (Keeper.recordFailure tokenPair ((tokenKeeper true).convertCoinNativeERC20
      refundContext tokenPair 100 (bytesToAddress tokenHolder.bytes)
        tokenHolder.bytes)).toOption.isSome = true := by
    decide +kernel
  obtain ⟨ctx', hctx'⟩ := exists_eq_ok_of_isSome hsome
  have hok := (onRefund_refundData true).trans hctx'
  refine ⟨ctx', hok, (Keeper.refunded_iff authBank_lawful (by decide +kernel) (by decide +kernel)
    refundData_sender (by decide +kernel) rfl .timeout hok).mpr ?_⟩
  intro amount balanceToken escrowed hescrows
  have hamount : decimal refundData.amount = some 100 := by decide +kernel
  have hbalance : (tokenKeeper true).balanceOf refundContext tokenPair.getERC20Contract
      (bytesToAddress tokenHolder.bytes) = some 0 := by
    decide +kernel
  cases hamount.symm.trans hescrows.amount_eq
  cases hbalance.symm.trans hescrows.balanceOf_eq
  exact .inl (handsOut_sound_contract hescrows.send_eq)

/-- A contract whose `transfer` returns false leaves the holder without coins and without tokens: the
handler reports success and the module account has the coins. -/
theorem refund_strands_coins : ∃ ctx',
    (tokenKeeper false).onRefund refundContext tokenStore refundData .timeout = .ok ctx' ∧
      let coins ctx account := (tokenKeeper false).bank.getBalance ctx account tokenPair.denom
      let tokens ctx := (tokenKeeper false).tokens ctx tokenPair tokenHolder
      coins refundContext tokenHolder.bytes = 100 ∧ coins ctx' tokenHolder.bytes = 0 ∧
      tokens refundContext = 0 ∧ tokens ctx' = 0 ∧
      coins refundContext (Evmd.moduleAddress "erc20").bytes = 0 ∧
      coins ctx' (Evmd.moduleAddress "erc20").bytes = 100 := by
  have hafter : ((Keeper.recordFailure tokenPair ((tokenKeeper false).convertCoinNativeERC20
      refundContext tokenPair 100 (bytesToAddress tokenHolder.bytes) tokenHolder.bytes)).toOption.map
      fun ctx' =>
        ((tokenKeeper false).bank.getBalance ctx' tokenHolder.bytes tokenPair.denom,
          (tokenKeeper false).tokens ctx' tokenPair tokenHolder,
          (tokenKeeper false).bank.getBalance ctx' (Evmd.moduleAddress "erc20").bytes tokenPair.denom)) =
      some (0, 0, 100) := by
    decide +kernel
  obtain ⟨ctx', hctx', hvalues⟩ := Option.map_eq_some_iff.mp hafter
  obtain ⟨hcoins, hrest⟩ := Prod.mk.inj hvalues
  obtain ⟨htokens, hmodule⟩ := Prod.mk.inj hrest
  refine ⟨ctx', (onRefund_refundData false).trans (toOption_eq_some_iff.mp hctx'), ?_⟩
  exact ⟨by decide +kernel, hcoins, by decide +kernel, htokens, by decide +kernel, hmodule⟩

end CosmosEvm.Erc20
