import CosmosEvm.Erc20.LedgerToken
import CosmosEvm.Ibc.Transfer

namespace CosmosEvm.Erc20

open Result BankKeeper PreciseBank.Keeper Ibc

inductive ConversionCall where
  | convertERC20 (msg : MsgConvertERC20)
  | convertCoin (msg : MsgConvertCoin)
  | transfer (msg : MsgTransfer)
  | onRecvPacket (packet : Packet) (ack : Acknowledgement)
  | onAcknowledgementPacket (data : FungibleTokenPacketData) (ack : Acknowledgement)
  | onTimeoutPacket (data : FungibleTokenPacketData)

def ConversionCall.refunded : ConversionCall → Option FungibleTokenPacketData
  | .onAcknowledgementPacket data (.error _) => some data
  | .onTimeoutPacket data => some data
  | _ => none

/-- A call as far as it is the erc20 module's: a transfer ends where the wrapped keeper is called. -/
def ConversionKeeper.convert {S Acc : Type} (k : ConversionKeeper S Acc) (s : ModuleState S) :
    ConversionCall → Except Err (ModuleState S)
  | .convertERC20 msg => k.convertERC20 s msg
  | .convertCoin msg => k.convertCoin s msg
  | .transfer msg => (k.prepareTransfer s msg).map Prod.fst
  | .onRecvPacket packet ack => (k.onRecvPacket s packet ack).map Prod.snd
  | .onAcknowledgementPacket data ack =>
    (k.onAcknowledgementPacket s.ctx s.store data ack).map fun ctx => { s with ctx }
  | .onTimeoutPacket data =>
    (k.onTimeoutPacket s.ctx s.store data).map fun ctx => { s with ctx }

namespace Keeper

variable {S Acc : Type} (k : Keeper S Acc)

structure Unmoved (pair : StoredPair) (ctx ctx' : Ctx S) : Prop where
  supply_eq : k.bank.bk.getSupply ctx'.store.sdk pair.denom = k.bank.bk.getSupply ctx.store.sdk pair.denom
  tokens_eq : ∀ account, k.balanceOf ctx' pair.getERC20Contract account =
    k.balanceOf ctx pair.getERC20Contract account
  module_eq : k.bank.getBalance ctx' k.account.address pair.denom =
    k.bank.getBalance ctx k.account.address pair.denom

/-- What is assumed of the EVM: calls on other contracts leave the pair alone, and the tokens of the pair
depend on the bank by the coins of the pair only. -/
structure Apart (pair : StoredPair) : Prop where
  callEVM_unmoved : ∀ ctx caller contract commit call, contract ≠ pair.getERC20Contract →
    k.Unmoved pair ctx (k.callEVM ctx caller contract commit call).2
  balanceOf_eq : ∀ {ctx ctx' : Ctx S},
    ctx'.store = { ctx.store with sdk := ctx'.store.sdk } →
    (∀ a, k.bank.getBalance ctx' a pair.denom = k.bank.getBalance ctx a pair.denom) →
    ∀ account, k.balanceOf ctx' pair.getERC20Contract account =
      k.balanceOf ctx pair.getERC20Contract account

/-- What is assumed of a native ERC20: its calls leave the coins it is paired with alone. -/
def KeepsCoins (pair : StoredPair) : Prop :=
  pair.contractOwner = .external → ∀ ctx call,
    let ctx' := (k.callEVM ctx k.moduleAddress pair.getERC20Contract true call).2
    k.bank.bk.getSupply ctx'.store.sdk pair.denom = k.bank.bk.getSupply ctx.store.sdk pair.denom ∧
      k.bank.getBalance ctx' k.account.address pair.denom =
        k.bank.getBalance ctx k.account.address pair.denom

structure Distinct (pair other : StoredPair) : Prop where
  denom_ne : other.denom ≠ pair.denom
  contract_ne : other.getERC20Contract ≠ pair.getERC20Contract
  ne_integerCoinDenom : other.denom ≠ k.bank.integerCoinDenom
  ne_extendedCoinDenom : other.denom ≠ k.bank.extendedCoinDenom

variable {k} {pair other : StoredPair} {ctx ctx' ctx'' : Ctx S} {amount : ℤ}

theorem Unmoved.refl (pair : StoredPair) (ctx : Ctx S) : k.Unmoved pair ctx ctx :=
  ⟨rfl, fun _ => rfl, rfl⟩

theorem Unmoved.trans (hfirst : k.Unmoved pair ctx ctx') (hsecond : k.Unmoved pair ctx' ctx'') :
    k.Unmoved pair ctx ctx'' where
  supply_eq := hsecond.supply_eq.trans hfirst.supply_eq
  tokens_eq account := (hsecond.tokens_eq account).trans (hfirst.tokens_eq account)
  module_eq := hsecond.module_eq.trans hfirst.module_eq

theorem Apart.unmoved_of_store_eq (hapart : k.Apart pair) (hstore : ctx'.store = ctx.store) :
    k.Unmoved pair ctx ctx' := by
  have hcoins : ∀ a, k.bank.getBalance ctx' a pair.denom = k.bank.getBalance ctx a pair.denom := by
    intro a
    unfold PreciseBank.Keeper.getBalance PreciseBank.Keeper.getFractionalBalance
    rw [hstore]
  exact ⟨by rw [hstore], hapart.balanceOf_eq (by rw [hstore]) hcoins, hcoins _⟩

section Others

variable (hbank : Lawful k.bank.bk k.bank.modules) (hapart : k.Apart pair) (hother : k.Distinct pair other)
include hbank hapart hother

theorem unmoved_of_bankMove {factor : (AccAddress → ℤ) → ℤ}
    (hmove : BankMove k.bank ctx ctx' fun weight denom =>
      factor weight * Coins.amountOf [⟨other.denom, amount⟩] denom) : k.Unmoved pair ctx ctx' := by
  have hcoins : ∀ a, k.bank.getBalance ctx' a pair.denom = k.bank.getBalance ctx a pair.denom :=
    hmove.getBalance_eq_of_ne hbank.toMovesExactly hother.denom_ne fun _ =>
      hother.ne_integerCoinDenom
  refine ⟨?_, hapart.balanceOf_eq hmove.store_eq hcoins, hcoins _⟩
  have hsupply := hmove.measure_eq hbank.tracks_supply pair.denom
  simpa [amountOf_singleton, hother.denom_ne] using hsupply

theorem unmoved_convertCoinNativeERC20 {receiver : Address} {sender : AccAddress}
    {result : Except Err Unit}
    (hresult : k.convertCoinNativeERC20 ctx other amount receiver sender = (result, ctx')) :
    k.Unmoved pair ctx ctx' := by
  obtain ⟨-, rfl, -⟩ | ⟨balanceToken, escrowed, -, -, hescrow, hunescrow⟩ :=
    convertCoinNativeERC20_cases hresult
  · exact .refl pair ctx'
  have hescrowed : k.Unmoved pair ctx escrowed := unmoved_of_bankMove hbank hapart hother
    (bankMove_escrow hother.ne_extendedCoinDenom hescrow)
  have hcalled := hapart.callEVM_unmoved escrowed k.moduleAddress other.getERC20Contract true
    (.transfer receiver amount) hother.contract_ne
  obtain ⟨err, -, rfl, -⟩ | ⟨-, -, hburn⟩ := unescrowTokens_cases hunescrow
  · exact hescrowed.trans hcalled
  · exact (hescrowed.trans hcalled).trans (unmoved_of_bankMove hbank hapart hother
      (bankMove_burnCoins_singleton k.getModuleAccount_moduleName hother.ne_extendedCoinDenom hburn))

end Others

end Keeper

namespace ConversionKeeper

variable {S Acc : Type} {k : ConversionKeeper S Acc} {pair other : StoredPair}
  {ctx ctx' : Ctx S} {s s' : ModuleState S}

theorem unmoved_convertERC20IntoCoins (hbank : Lawful k.bank.bk k.bank.modules)
    (hapart : k.Apart pair) (hother : k.Distinct pair other) {msg : MsgConvertERC20}
    {receiver : AccAddress} {sender : Address}
    (hok : k.convertERC20IntoCoinsForNativeToken ctx other msg receiver sender = .ok ctx') :
    k.Unmoved pair ctx ctx' := by
  obtain ⟨balanceToken, res, escrowed, minted, sent, -, hcall, -, -, hmint, hsend, -, rfl⟩ :=
    convertERC20IntoCoins_eq_ok_iff.mp hok
  have hcalled := hapart.callEVM_unmoved ctx sender other.getERC20Contract true
    (.transfer k.moduleAddress msg.amount) hother.contract_ne
  rw [hcall] at hcalled
  have hminted : k.Unmoved pair escrowed minted := Keeper.unmoved_of_bankMove hbank hapart hother
    (bankMove_mintCoins_singleton k.getModuleAccount_moduleName hother.ne_extendedCoinDenom hmint)
  have hsent : k.Unmoved pair minted sent := Keeper.unmoved_of_bankMove hbank hapart hother
    (bankMove_release hother.ne_extendedCoinDenom hsend)
  exact ((hcalled.trans hminted).trans hsent).trans (hapart.unmoved_of_store_eq rfl)

structure SwitchedOff (k : ConversionKeeper S Acc) (store : Store) (pair : StoredPair) : Prop where
  linked : k.lib.Linked store
  plain : ∀ id other, store.pairs.lookup id = some other → other.contractOwner = .external →
    other.denom ≠ k.bank.integerCoinDenom ∧ other.denom ≠ k.bank.extendedCoinDenom
  stored : ∃ id, store.pairs.lookup id = some pair
  off : pair.enabled = false ∨ store.enableErc20 = false

theorem exists_lookup_of_getTokenPair {store : Store} {id : Option Bytes}
    (hpair : store.getTokenPair id = some pair) : ∃ key, store.pairs.lookup key = some pair := by
  obtain ⟨key, -, hkey⟩ := Option.bind_eq_some_iff.mp hpair
  exact ⟨key, hkey⟩

theorem SwitchedOff.distinct (hoff : SwitchedOff k s.store pair) {id : Option Bytes}
    (hother : s.store.getTokenPair id = some other) (howner : other.contractOwner = .external)
    (hne : other ≠ pair) : k.Distinct pair other := by
  obtain ⟨key, hkey⟩ := exists_lookup_of_getTokenPair hother
  obtain ⟨id', hpair⟩ := hoff.stored
  obtain ⟨hinteger, hextended⟩ := hoff.plain key other hkey howner
  obtain ⟨-, -, hdenom, herc20⟩ := hoff.linked.of_pair hpair
  obtain ⟨-, -, hdenom', herc20'⟩ := hoff.linked.of_pair hkey
  refine ⟨fun heq => ?_, fun heq => ?_, hinteger, hextended⟩
  · rw [heq, hdenom] at hdenom'
    cases hdenom'
    exact hne (Option.some.inj (hkey.symm.trans hpair))
  · rw [heq, herc20] at herc20'
    cases herc20'
    exact hne (Option.some.inj (hkey.symm.trans hpair))

theorem SwitchedOff.distinct_of_mintingEnabled (hoff : SwitchedOff k s.store pair)
    {sender receiver : AccAddress} {token : String}
    (hminting : k.mintingEnabled s sender receiver token = .ok other)
    (howner : other.contractOwner = .external) : k.Distinct pair other := by
  obtain ⟨hmodule, hfound, henabled, -⟩ := mintingEnabled_eq_ok_iff.mp hminting
  refine hoff.distinct hfound howner fun heq => ?_
  obtain hdisabled | hdisabled := hoff.off
  · rw [heq, hdisabled] at henabled
    cases henabled
  · rw [hdisabled] at hmodule
    cases hmodule

section Calls

variable (hbank : Lawful k.bank.bk k.bank.modules) (hapart : k.Apart pair)
  (hoff : SwitchedOff k s.store pair)
include hbank hapart hoff

theorem SwitchedOff.convertERC20 {msg : MsgConvertERC20} (hok : k.convertERC20 s msg = .ok s') :
    k.Unmoved pair s.ctx s'.ctx := by
  obtain ⟨receiver, other, -, hminting, hconvert⟩ := convertERC20_eq_ok_iff.mp hok
  obtain ⟨howner, ⟨-, ctx', hctx', rfl⟩ | ⟨-, rfl⟩⟩ := convertPair_eq_ok_iff.mp hconvert
  · exact unmoved_convertERC20IntoCoins hbank hapart (hoff.distinct_of_mintingEnabled hminting howner) hctx'
  · exact .refl pair s.ctx

theorem SwitchedOff.convertCoin {msg : MsgConvertCoin} (hok : k.convertCoin s msg = .ok s') :
    k.Unmoved pair s.ctx s'.ctx := by
  obtain ⟨sender, other, -, hminting, hconvert⟩ := convertCoin_eq_ok_iff.mp hok
  obtain ⟨howner, ⟨-, ctx', hctx', rfl⟩ | ⟨-, rfl⟩⟩ := convertPair_eq_ok_iff.mp hconvert
  · exact Keeper.unmoved_convertCoinNativeERC20 hbank hapart
      (hoff.distinct_of_mintingEnabled hminting howner) (committed_eq_ok_iff.mp hctx')
  · exact .refl pair s.ctx

theorem SwitchedOff.prepareTransfer {msg msg' : MsgTransfer}
    (hok : k.prepareTransfer s msg = .ok (s', msg')) : k.Unmoved pair s.ctx s'.ctx := by
  obtain ⟨-, rfl, -⟩ | ⟨active, sender, -, -, -, ⟨-, rfl⟩ | ⟨-, hcover⟩⟩ := prepareTransfer_cases hok
  · exact .refl pair s'.ctx
  · exact .refl pair s'.ctx
  obtain ⟨-, rfl⟩ | ⟨-, hconvert⟩ := coverShortfall_cases hcover
  · exact .refl pair s'.ctx
  · exact hoff.convertERC20 hbank hapart hconvert

theorem SwitchedOff.onRecvPacket {packet : Packet} {ack ack' : Acknowledgement}
    (hok : k.onRecvPacket s packet ack = .ok (ack', s')) : k.Unmoved pair s.ctx s'.ctx := by
  obtain hstore | ⟨data, sender, recipient, other, hminting, howner, hconvert⟩ := onRecvPacket_cases hok
  · exact hapart.unmoved_of_store_eq hstore
  · obtain ⟨-, amount, result, -, hresult, -⟩ := convertReceived_eq_ok hconvert
    exact Keeper.unmoved_convertCoinNativeERC20 hbank hapart
      (hoff.distinct_of_mintingEnabled hminting howner) hresult

end Calls

/-- The callback of a refund converts coins of the pair: the packet leads to it, the module is enabled and
the sender no module account, the sender can pay the amount, and the contract answers. -/
def Reconverts (k : ConversionKeeper S Acc) (s : ModuleState S) (pair : StoredPair)
    (data : FungibleTokenPacketData) : Prop :=
  s.store.getTokenPair (s.store.getTokenPairID data.denom) = some pair ∧ pair.contractOwner = .external ∧
  ∃ sender amount, k.bank.codec.accAddressFromBech32 data.sender = some sender ∧
    k.converts s.ctx s.store data sender = true ∧ k.newIntFromString data.amount = some amount ∧
    Coins.IsValid [⟨pair.denom, amount⟩] ∧
    amount ≤ k.bank.bk.spendableCoin s.ctx.store.sdk sender pair.denom ∧
    (k.balanceOf s.ctx pair.getERC20Contract (bytesToAddress sender)).isSome = true ∧
    ∀ escrowed, k.bank.sendCoinsFromAccountToModule s.ctx sender moduleName [⟨pair.denom, amount⟩] =
      .ok escrowed → ¬ Keeper.Breaks k.toKeeper escrowed pair (bytesToAddress sender) amount

section Refunds

variable {data : FungibleTokenPacketData}

/-- A conversion of the pair that gets as far as the contract can only have panicked. -/
theorem SwitchedOff.refund (hbank : Lawful k.bank.bk k.bank.modules) (hapart : k.Apart pair)
    (hoff : SwitchedOff k s.store pair) (hnot : ¬ Reconverts k s pair data)
    (hok : k.convertCoinToERC20FromPacket s.ctx s.store data = .ok ctx') :
    k.Unmoved pair s.ctx ctx' := by
  obtain rfl | ⟨sender, other, amount, hsender, hother, howner, hconverts, hamount, hrecord⟩ :=
    Keeper.convertCoinToERC20FromPacket_cases hok
  · exact .refl pair _
  have hrecorded := hapart.unmoved_of_store_eq (Keeper.recordFailure_store hrecord)
  cases hresult : k.convertCoinNativeERC20 s.ctx other amount (bytesToAddress sender) sender with
  | mk result ctx₁ =>
  rw [hresult] at hrecorded hrecord
  by_cases heq : other = pair
  swap
  · exact (Keeper.unmoved_convertCoinNativeERC20 hbank hapart (hoff.distinct hother howner heq)
      hresult).trans hrecorded
  subst heq
  obtain ⟨-, rfl, -⟩ | ⟨balanceToken, escrowed, hpos, hbalance, hescrow, hunescrow⟩ :=
    Keeper.convertCoinNativeERC20_cases hresult
  · exact hrecorded
  -- the conversion went as far as the contract, so that only a panic is left
  exfalso
  have hsend := (Keeper.sendCoinsFromAccountToModule_eq _ _ _).symm.trans hescrow
  have hvalid := (sendCoins_eq_ok_iff.mp hsend).1
  obtain ⟨key, hkey⟩ := exists_lookup_of_getTokenPair hother
  have hcovered := (exists_sendPlainCoin_iff hbank (hoff.plain key other hkey howner).2 hvalid).mp
    ⟨escrowed, hsend⟩
  refine hnot ⟨hother, howner, sender, amount, hsender, hconverts, hamount, hvalid, hcovered,
    Option.isSome_iff_exists.mpr ⟨balanceToken, hbalance⟩, fun escrowed' hescrow' hbreaks => ?_⟩
  cases hescrow.symm.trans hescrow'
  obtain ⟨text, hpanic⟩ := hbreaks.unescrowTokens_eq balanceToken
  rw [hunescrow] at hpanic
  dsimp only at hpanic
  subst hpanic
  cases hrecord

/-- The escrowed coins stay with the module account, or are burnt for tokens. -/
theorem Reconverts.moved (hbank : Lawful k.bank.bk k.bank.modules)
    (hburner : .burner ∈ k.account.permissions)
    (hmodule : (k.ak.getAccount s.ctx.store.sdk k.account.address).any k.isModuleAccount = true)
    (hkeeps : k.KeepsCoins pair) (hoff : SwitchedOff k s.store pair) (hreconverts : Reconverts k s pair data) :
    ∃ ctx', k.convertCoinToERC20FromPacket s.ctx s.store data = .ok ctx' ∧
      ¬ k.Unmoved pair s.ctx ctx' := by
  obtain ⟨hpair, howner, sender, amount, hsender, hconverts, hamount, hvalid, hcovered, hbalance, hanswers⟩ :=
    hreconverts
  obtain ⟨key, hkey⟩ := exists_lookup_of_getTokenPair hpair
  have hdenom := (hoff.plain key pair hkey howner).2
  have hpos := (isValid_singleton_iff.mp hvalid).2
  obtain ⟨balanceToken, hbalance⟩ := Option.isSome_iff_exists.mp hbalance
  have hne : sender ≠ k.account.address := by
    intro heq
    unfold Keeper.converts at hconverts
    rw [heq, hmodule] at hconverts
    simp at hconverts
  obtain ⟨escrowed, hsend⟩ := (exists_sendPlainCoin_iff hbank hdenom hvalid).mpr hcovered
  have hescrow := (Keeper.sendCoinsFromAccountToModule_eq s.ctx sender _).trans hsend
  obtain ⟨hkeptSupply, hkeptModule⟩ := hkeeps howner escrowed (.transfer (bytesToAddress sender) amount)
  have hmove := Keeper.bankMove_escrow hdenom hescrow
  have hescrowed := hmove.getBalance_plainCoin hbank.toMovesExactly hdenom k.account.address
  rw [weightOf_self, weightOf_of_ne hne] at hescrowed
  have hsupply : k.bank.bk.getSupply escrowed.store.sdk pair.denom =
      k.bank.bk.getSupply s.ctx.store.sdk pair.denom := by
    simpa using hmove.getSupply_plainCoin hbank
  cases hresult : k.convertCoinNativeERC20 s.ctx pair amount (bytesToAddress sender) sender with
  | mk result ctx₁ =>
  have hcallback := Keeper.onRefund_of_converts hsender hpair howner hconverts
    hamount .timeout
  rw [Keeper.onRefund_eq, hresult] at hcallback
  obtain ⟨-, -, habs⟩ | ⟨balanceToken', escrowed', -, hbalance', hescrow', hunescrow⟩ :=
    Keeper.convertCoinNativeERC20_cases hresult
  · exact absurd ⟨balanceToken, escrowed, hpos, hbalance, hescrow⟩ habs
  cases hescrow.symm.trans hescrow'
  obtain ⟨err, rfl, rfl, hpanics, -⟩ | ⟨rfl, -, hburn⟩ := Keeper.unescrowTokens_cases hunescrow
  · -- the coins stay with the module account
    have hburns : ∃ burnt, k.bank.burnCoins (k.callEVM escrowed k.moduleAddress pair.getERC20Contract true
        (.transfer (bytesToAddress sender) amount)).2 moduleName [⟨pair.denom, amount⟩] = .ok burnt := by
      refine (exists_burnPlainCoin_iff hbank hdenom hvalid (by decide)
        k.getModuleAccount_moduleName).mpr ⟨hburner, ?_⟩
      have hheld := hbank.spendable_nonneg s.ctx.store.sdk k.account.address pair.denom
      rw [hbank.module_spendable k.getModuleAccount_moduleName, ← getBalance_of_ne hdenom] at hheld
      rw [hkeptModule, hescrowed]
      omega
    cases err with
    | panicked text =>
      obtain hbreaks | ⟨err', herr'⟩ := hpanics text rfl
      · exact absurd hbreaks (hanswers escrowed hescrow)
      · obtain ⟨burnt, hburnt⟩ := hburns
        cases herr'.symm.trans hburnt
    | wrapped root text =>
      refine ⟨_, hcallback, fun hunmoved => ?_⟩
      have hmoved := hkeptModule.symm.trans hunmoved.module_eq
      rw [hescrowed] at hmoved
      omega
  · -- they are burnt for tokens
    refine ⟨_, hcallback, fun hunmoved => ?_⟩
    have hburnt := (bankMove_burnCoins_singleton k.getModuleAccount_moduleName hdenom
      hburn).getSupply_plainCoin hbank
    have hkept := hburnt.symm.trans hunmoved.supply_eq
    dsimp only [Keeper.release] at hkept
    rw [hkeptSupply, hsupply] at hkept
    omega

end Refunds

theorem convert_onTimeoutPacket {data : FungibleTokenPacketData}
    (hok : k.convertCoinToERC20FromPacket s.ctx s.store data = .ok ctx') :
    k.convert s (.onTimeoutPacket data) = .ok { s with ctx := ctx' } := by
  simp only [convert, Keeper.onTimeoutPacket, hok]
  rfl

/-- A call moves nothing of a pair that is off unless it follows a refund and converts it. -/
theorem unmoved_iff_not_reconverts (hbank : Lawful k.bank.bk k.bank.modules)
    (hburner : .burner ∈ k.account.permissions)
    (hmodule : (k.ak.getAccount s.ctx.store.sdk k.account.address).any k.isModuleAccount = true)
    (hapart : k.Apart pair) (hkeeps : k.KeepsCoins pair) (hoff : SwitchedOff k s.store pair)
    (call : ConversionCall) : (∀ s', k.convert s call = .ok s' → k.Unmoved pair s.ctx s'.ctx) ↔
      ∀ data, call.refunded = some data → ¬ Reconverts k s pair data := by
  have hrefund : ∀ data, (∀ s', (k.convertCoinToERC20FromPacket s.ctx s.store data).map
      (fun ctx => ({ s with ctx } : ModuleState S)) = .ok s' → k.Unmoved pair s.ctx s'.ctx) ↔
        ¬ Reconverts k s pair data := by
    intro data
    constructor
    · intro hunmoved hreconverts
      obtain ⟨ctx', hok, hmoved⟩ := hreconverts.moved hbank hburner hmodule hkeeps hoff
      exact hmoved (hunmoved { s with ctx := ctx' } (by rw [hok]; rfl))
    · intro hnot s' hok
      obtain ⟨ctx', hconverted, rfl⟩ := map_eq_ok_iff.mp hok
      exact hoff.refund hbank hapart hnot hconverted
  cases call with
  | convertERC20 msg => exact iff_of_true (fun s' hok => hoff.convertERC20 hbank hapart hok) nofun
  | convertCoin msg => exact iff_of_true (fun s' hok => hoff.convertCoin hbank hapart hok) nofun
  | transfer msg =>
    refine iff_of_true (fun s' hok => ?_) nofun
    obtain ⟨⟨s₁, msg₁⟩, hprepared, rfl⟩ := map_eq_ok_iff.mp hok
    exact hoff.prepareTransfer hbank hapart hprepared
  | onRecvPacket packet ack =>
    refine iff_of_true (fun s' hok => ?_) nofun
    obtain ⟨⟨ack', s₁⟩, hreceived, rfl⟩ := map_eq_ok_iff.mp hok
    exact hoff.onRecvPacket hbank hapart hreceived
  | onAcknowledgementPacket data ack =>
    cases ack with
    | result value =>
      refine iff_of_true (fun s' hok => ?_) nofun
      obtain rfl : s = s' := Except.ok.inj hok
      exact .refl pair s.ctx
    | error text => exact (hrefund data).trans (by simp [ConversionCall.refunded])
  | onTimeoutPacket data => exact (hrefund data).trans (by simp [ConversionCall.refunded])

end ConversionKeeper

theorem apart_ledgerKeeper (pair : StoredPair) : ledgerKeeper.Apart pair where
  callEVM_unmoved ctx caller contract commit call hne := by
    cases call with
    | balanceOf account => exact .refl pair ctx
    | transfer recipient amount =>
      cases hcall : ledgerKeeper.callEVM ctx caller contract commit (.transfer recipient amount) with
      | mk answer ctx' =>
      obtain hrefused | ⟨-, -, balance, -, -, hmoved⟩ :=
        ledgerToken_transfer_cases ctx caller contract recipient commit amount
      · cases hrefused.symm.trans hcall
        exact .refl pair ctx
      · have htokens := storedTokens_transfer hmoved pair.getERC20Contract
        cases hmoved.symm.trans hcall
        refine ⟨rfl, fun account => ?_, rfl⟩
        have hsame := htokens account
        rw [if_neg hne.symm, add_zero] at hsame
        rw [balanceOf_ledgerKeeper, balanceOf_ledgerKeeper]
        exact congrArg some hsame
  balanceOf_eq {ctx ctx'} hstore _ account := by
    rw [balanceOf_ledgerKeeper, balanceOf_ledgerKeeper]
    unfold storedTokens Vm.Keeper.getState
    rw [hstore]

theorem keepsCoins_ledgerKeeper (pair : StoredPair) : ledgerKeeper.KeepsCoins pair := by
  intro _ ctx call
  cases call with
  | balanceOf account => exact ⟨rfl, rfl⟩
  | transfer recipient amount =>
    obtain hrefused | ⟨-, -, balance, -, -, hmoved⟩ := ledgerToken_transfer_cases ctx
      ledgerKeeper.moduleAddress pair.getERC20Contract recipient true amount
    · rw [show ledgerKeeper.callEVM = ledgerToken from rfl, hrefused]
      exact ⟨rfl, rfl⟩
    · rw [show ledgerKeeper.callEVM = ledgerToken from rfl, hmoved]
      exact ⟨rfl, rfl⟩

theorem switchedOff_registeredStore :
    ConversionKeeper.SwitchedOff ledgerKeeper (registeredStore false) (registeredPair false) where
  linked := linked_registeredStore false
  plain id other hother _ := by
    rw [lookup_registeredStore hother]
    decide +kernel
  stored := ⟨_, Finmap.lookup_insert _⟩
  off := .inl rfl

def switchedOffState : ModuleState (AuthLedger Evmd.moduleAccounts) :=
  ⟨registeredStore false, holderContext 100 100 0⟩

def holderTransfer : MsgTransfer where
  sourcePort := "transfer"
  sourceChannel := "channel-0"
  token := ⟨contractPair.denom, 100⟩
  sender := textCodec.accAddressString tokenHolder.bytes
  receiver := "cosmos1receiver"
  timeoutHeight := (1, 1000)
  timeoutTimestamp := 0
  memo := ""

theorem unmoved_holderTransfer :
    ledgerKeeper.convert switchedOffState (.transfer holderTransfer) = .ok switchedOffState ∧
      ∀ s', ledgerKeeper.convert switchedOffState (.transfer holderTransfer) = .ok s' →
        ledgerKeeper.Unmoved (registeredPair false) switchedOffState.ctx s'.ctx := by
  have hid : switchedOffState.store.getTokenPairID (trimErc20 holderTransfer.token.denom) =
      some (plainLibraries.getID (registeredPair false)) := by
    decide +kernel
  have hpair : switchedOffState.store.getTokenPair (some (plainLibraries.getID (registeredPair false))) =
      some (registeredPair false) := Finmap.lookup_insert _
  refine ⟨?_, (ConversionKeeper.unmoved_iff_not_reconverts authBank_lawful (by decide) (by decide +kernel)
    (apart_ledgerKeeper _) (keepsCoins_ledgerKeeper _) switchedOff_registeredStore
    (.transfer holderTransfer)).mpr nofun⟩
  unfold ConversionKeeper.convert ConversionKeeper.prepareTransfer
  simp only [hid, hpair]
  rfl

def timedOut : FungibleTokenPacketData :=
  ⟨contractPair.denom, "100", textCodec.accAddressString tokenHolder.bytes⟩

/-- The refunded coins of the pair that is off are burnt and the tokens leave the module. -/
theorem timeout_converts_switchedOff : ∃ s',
    ledgerKeeper.convert switchedOffState (.onTimeoutPacket timedOut) = .ok s' ∧
      (registeredPair false).enabled = false ∧
      let supply s := ledgerKeeper.bank.bk.getSupply (ModuleState.ctx s).store.sdk contractPair.denom
      let tokens s := ledgerKeeper.balanceOf (ModuleState.ctx s) contractPair.getERC20Contract
      supply switchedOffState = 100 ∧ supply s' = 0 ∧
      tokens switchedOffState ledgerKeeper.moduleAddress = some 100 ∧
      tokens s' ledgerKeeper.moduleAddress = some 0 ∧
      tokens switchedOffState tokenHolder = some 0 ∧ tokens s' tokenHolder = some 100 := by
  have hpair : switchedOffState.store.getTokenPair (switchedOffState.store.getTokenPairID timedOut.denom) =
      some (registeredPair false) := by
    decide +kernel
  have hconverts : ledgerKeeper.converts switchedOffState.ctx switchedOffState.store timedOut
      tokenHolder.bytes = true := by
    decide +kernel
  have hamount : decimal timedOut.amount = some 100 := by decide +kernel
  have hrefund := Keeper.onRefund_of_converts
    (TextCodec.accAddressFromText_accAddressString tokenHolder.bytes)
    hpair rfl hconverts hamount .timeout
  have hafter : ((Keeper.recordFailure (registeredPair false)
      (ledgerKeeper.convertCoinNativeERC20 switchedOffState.ctx (registeredPair false) 100
        (bytesToAddress tokenHolder.bytes) tokenHolder.bytes)).toOption.map fun ctx' =>
      (ledgerKeeper.bank.bk.getSupply ctx'.store.sdk contractPair.denom,
        ledgerKeeper.balanceOf ctx' contractPair.getERC20Contract ledgerKeeper.moduleAddress,
        ledgerKeeper.balanceOf ctx' contractPair.getERC20Contract tokenHolder)) =
      some (0, some 0, some 100) := by
    decide +kernel
  obtain ⟨ctx', hctx', hvalues⟩ := Option.map_eq_some_iff.mp hafter
  obtain ⟨hsupply, hrest⟩ := Prod.mk.inj hvalues
  obtain ⟨hmodule, hholder⟩ := Prod.mk.inj hrest
  rw [Keeper.onRefund_eq, toOption_eq_some_iff.mp hctx'] at hrefund
  refine ⟨{ switchedOffState with ctx := ctx' }, ?_, rfl, by decide +kernel, hsupply, by decide +kernel,
    hmodule, by decide +kernel, hholder⟩
  exact ConversionKeeper.convert_onTimeoutPacket hrefund

end CosmosEvm.Erc20
