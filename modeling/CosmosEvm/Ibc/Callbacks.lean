import CosmosEvm.Erc20.Precompile
import CosmosEvm.Erc20.Refund
import CosmosEvm.Sdk.GasMeter

namespace CosmosEvm.Ibc

open Erc20 Vm

/-- `ConsumeGas`, whose panic unwinds the caller. -/
def consume (meter : GasMeter) (amount : ℕ) : Except Err GasMeter :=
  match meter.consumeGas amount with
  | (meter, none) => .ok meter
  | (_, some .gasOverflow) => .error (.panicked "gas overflow")
  | (_, some .outOfGas) => .error (.panicked "out of gas")

structure Hop where
  portId : String
  channelId : String
deriving DecidableEq

structure TransferDenom where
  base : String
  trace : List Hop

structure PacketData where
  denom : TransferDenom
  amount : String
  sender : String
  receiver : String

structure Packet where
  sequence : UInt64
  sourcePort : String
  sourceChannel : String
  destinationPort : String
  destinationChannel : String
  data : Bytes

structure CallbackData where
  calldata : Bytes
  commitGasLimit : UInt64

inductive CallbackKey where
  | source
  | destination
deriving DecidableEq

inductive Calldata where
  | approve (spender : Address) (amount : ℤ)
  | balanceOf (account : Address)
  | raw (data : Bytes)
  | onPacketAcknowledgement (sourceChannel sourcePort : String) (sequence : UInt64)
      (data acknowledgement : Bytes)
  | onPacketTimeout (sourceChannel sourcePort : String) (sequence : UInt64) (data : Bytes)
deriving DecidableEq

def Calldata.method : Calldata → Option String
  | .approve .. => some "approve"
  | .balanceOf _ => some "balanceOf"
  | .raw _ => none
  | .onPacketAcknowledgement .. => some "onPacketAcknowledgement"
  | .onPacketTimeout .. => some "onPacketTimeout"

def defaultGasCap : UInt64 := 25000000

/-- `errorsmod.Wrapf` of a registered error with another error in the text. A panic passes through. -/
def wrapText (registered text : String) : Err → Err
  | .wrapped _ inner => .wrapped .other s!"{text}: {inner}: {registered}"
  | .panicked inner => .panicked inner

structure CallContext (S : Type) where
  st : TokenState S
  meter : GasMeter

/-- The keeper. The EVM is a parameter: where it returns an error it says how much gas it has executed by
then, and in either case it may have writes to commit. -/
structure ContractKeeper (S Acc : Type) where
  vm : Vm.Keeper S Acc
  codec : Codec
  lib : Libraries
  erc20ModuleAddress : Address
  pack : Calldata → Bytes
  applyMessage : TokenState S → Message → Except (Err × ℕ) MsgEthereumTxResponse × TokenState S
  unmarshalPacketData : Bytes → String → Except Err PacketData
  getCallbackData : PacketData → String → String → ℕ → ℕ → CallbackKey → Except Err (Option CallbackData)
  valAddressFromBech32 : String → Option Bytes
  consAddressFromBech32 : String → Option Bytes
  generateIsolatedAddress : String → String → AccAddress
  newIntFromString : String → Option ℤ
  denomHash : TransferDenom → Denom

structure Trace (S : Type) where
  outcome : Except Err Unit
  ctx : CallContext S
  evmGas : List ℕ

namespace TransferDenom

def hasPrefix (denom : TransferDenom) (portId channelId : String) : Bool :=
  denom.trace.head? = some ⟨portId, channelId⟩

end TransferDenom

namespace ContractKeeper

variable {S Acc : Type} (k : ContractKeeper S Acc)

def ibcDenom (denom : TransferDenom) : Denom :=
  if denom.trace = [] then denom.base else k.denomHash denom

def receivedDenom (packet : Packet) (denom : TransferDenom) : Denom :=
  if denom.hasPrefix packet.sourcePort packet.sourceChannel then
    k.ibcDenom { denom with trace := denom.trace.tail }
  else
    k.ibcDenom
      { denom with trace := ⟨packet.destinationPort, packet.destinationChannel⟩ :: denom.trace }

def hexAddressFromBech32String (text : String) : Option Address :=
  ((k.codec.accAddressFromBech32 text <|> k.valAddressFromBech32 text) <|>
    k.consAddressFromBech32 text).map bytesToAddress

variable (ctx : CallContext S)

/-- `UnmarshalPacketData` and `GetCallbackData`. Without callback data there is nothing to do. -/
def readCallback (packet : Packet) (version : String) (key : CallbackKey) :
    Except Err (Option (PacketData × CallbackData)) := do
  let data ← k.unmarshalPacketData packet.data version
  let cbData ← k.getCallbackData data version packet.destinationPort ctx.meter.gasRemaining
    ctx.meter.gasRemaining key
  .ok (cbData.map fun cbData => (data, cbData))

def isContract (st : TokenState S) (addr : Address) : Bool :=
  match k.vm.getAccount st.ctx.store addr with
  | none => false
  | some account => account.codeHash ≠ k.vm.emptyCodeHash

def input : Calldata → Bytes
  | .raw data => data
  | call => k.pack call

/-- The message of `CallEVMWithData` and what the EVM makes of it. The limit of the message is the default
cap. -/
def execute (st : TokenState S) (sender contract : Address) (data : Calldata) (commit : Bool) :
    Except (Err × ℕ) MsgEthereumTxResponse × TokenState S :=
  match k.vm.ak.getAccount st.ctx.store.sdk sender.bytes with
  | none =>
    let account := k.codec.accAddressString sender.bytes
    (.error (.wrapped .other s!"account {account} does not exist: unknown address", 0), st)
  | some acc =>
    let msg : Message :=
      { sender
        recipient := some contract
        nonce := k.vm.ak.getSequence acc
        value := 0
        gasLimit := defaultGasCap
        gasPrice := 0
        gasFeeCap := 0
        gasTipCap := 0
        data := k.input data
        accessList := []
        setCodeAuthorizations := [] }
    let (answer, written) := k.applyMessage st msg
    (answer, if commit then written else st)

structure Called (S : Type) where
  answer : Except Err MsgEthereumTxResponse
  ctx : CallContext S
  gas : ℕ

def callEVMWithData (sender contract : Address) (data : Calldata) (commit : Bool)
    (_gasCap : Option ℤ) : Called S :=
  match k.execute ctx.st sender contract data commit with
  | (.error (err, gas), st) => ⟨.error err, { ctx with st }, gas⟩
  | (.ok res, st) =>
    if res.failed then
      let vmError := res.vmError.getD ""
      ⟨.error (.wrapped .other s!"{vmError}: evm transaction execution failed"),
        ⟨st, ctx.meter.exhaust⟩, res.gasUsed⟩
    else
      match consume ctx.meter res.gasUsed with
      | .error err => ⟨.error err, { ctx with st }, res.gasUsed⟩
      | .ok meter => ⟨.ok res, ⟨st, meter⟩, res.gasUsed⟩

def callEVM (sender contract : Address) (data : Calldata) (commit : Bool)
    (gasCap : Option ℤ) : Called S :=
  let called := k.callEVMWithData ctx sender contract data commit gasCap
  let method := data.method.getD ""
  let address := k.lib.addressString contract
  { called with
    answer := called.answer.mapError
      (Err.wrap s!"contract call failed: method '{method}', contract '{address}'") }

def receiverOf (data : PacketData) : Except Err (AccAddress × Address) :=
  let text := data.receiver
  match k.codec.accAddressFromBech32 text with
  | none => .error (.wrapped .other
      s!"acc addr from bech32 conversion failed for receiver address: {text}: invalid receiver address")
  | some receiver =>
    match k.hexAddressFromBech32String (k.codec.accAddressString receiver) with
    | none => .error (.wrapped .other
        s!"hex address conversion failed for receiver address: {text}: invalid receiver address")
    | some receiverHex => .ok (receiver, receiverHex)

def resetAccount (st : TokenState S) (receiver : AccAddress) : TokenState S :=
  let (acc, sdk) := k.vm.ak.newAccountWithAddress st.ctx.store.sdk receiver
  { st with ctx := Vm.Keeper.withSdk st.ctx (k.vm.ak.setAccount sdk acc) }

/-- The checks before the allowance, with the contract of the token and the amount. -/
def checkTarget (st : TokenState S) (packet : Packet) (data : PacketData)
    (receiverHex contractAddr : Address) : Except Err (Address × ℤ) :=
  let isolated := bytesToAddress (k.generateIsolatedAddress packet.destinationChannel data.sender)
  let expected := k.lib.addressString isolated
  let got := k.lib.addressString receiverHex
  let contract := k.lib.addressString contractAddr
  let denom := k.ibcDenom data.denom
  if receiverHex ≠ isolated then
    .error (.wrapped .other s!"expected {expected}, got {got}: invalid receiver address")
  else if k.isContract st contractAddr = false then
    .error (.wrapped .other
      s!"provided contract address is not a contract: {contract}: contract has no code")
  else
    match st.store.getTokenPair (st.store.getTokenPairID (k.receivedDenom packet data.denom)) with
    | none => .error (.wrapped .other s!"token pair for denom {denom} not found: token not registered")
    | some pair =>
      match k.newIntFromString data.amount with
      | none => .error (.wrapped .other "amount overflow: number overflow")
      | some amount => .ok (pair.getERC20Contract, amount)

/-- The check after the branch was written: the receiver has no tokens left. `BalanceOf` has no balance to
give where its call fails, and the comparison panics on that. -/
def checkReceiver (token receiverHex : Address) (spent : List ℕ) : Trace S :=
  let called := k.callEVM ctx k.erc20ModuleAddress token (.balanceOf receiverHex) false none
  let spent := spent ++ [called.gas]
  match called.answer with
  | .error (.panicked text) => ⟨.error (.panicked text), called.ctx, spent⟩
  | .error (.wrapped _ _) =>
    ⟨.error (.panicked "invalid memory address or nil pointer dereference"), called.ctx, spent⟩
  | .ok res =>
    match firstWord res.ret with
    | none => ⟨.error (.panicked "invalid memory address or nil pointer dereference"), called.ctx, spent⟩
    | some 0 => ⟨.ok (), called.ctx, spent⟩
    | some balance => ⟨.error (.wrapped .other
        s!"receiver has {balance} unrecoverable tokens after callback: EVM call unexpected error"),
        called.ctx, spent⟩

/-- `IBCReceivePacketCallback` once the allowance stands, with the gas executed for it. -/
def callReceiver (ctx cachedCtx : CallContext S) (cbData : CallbackData)
    (token receiverHex contractAddr : Address) (remainingGas : ℤ) (spent : List ℕ) : Trace S :=
  let called := k.callEVMWithData cachedCtx receiverHex contractAddr (.raw cbData.calldata) true
    (some remainingGas)
  let spent := spent ++ [called.gas]
  match called.answer with
  | .error err => ⟨.error (wrapText "evm call failed" "EVM returned error" err), ctx, spent⟩
  | .ok res =>
    match consume ctx.meter res.gasUsed with
    | .error err => ⟨.error err, ctx, spent⟩
    | .ok meter =>
      if meter.isOutOfGas then
        ⟨.error (.wrapped .other "out of gas: out of gas"), { ctx with meter }, spent⟩
      else k.checkReceiver ⟨called.ctx.st, meter⟩ token receiverHex spent

def approveReceiver (cbData : CallbackData)
    (token receiverHex contractAddr : Address) (amount : ℤ) : Trace S :=
  let cachedCtx : CallContext S := ⟨ctx.st, .newInfiniteWithLimit cbData.commitGasLimit⟩
  let remainingGas : ℤ := cachedCtx.meter.gasRemaining
  let called := k.callEVM cachedCtx receiverHex token (.approve contractAddr amount) true
    (some remainingGas)
  let spent := [called.gas]
  match called.answer with
  | .error err => ⟨.error (wrapText "allowance failed" "failed to set allowance" err), ctx, spent⟩
  | .ok res =>
    match consume ctx.meter res.gasUsed with
    | .error err => ⟨.error err, ctx, spent⟩
    | .ok meter =>
      let remainingGas := remainingGas - res.gasUsed
      if meter.isOutOfGas ∨ remainingGas < 0 then
        ⟨.error (.wrapped .other "out of gas: out of gas"), { ctx with meter }, spent⟩
      else
        match unpackBool res.ret with
        | .error err => ⟨.error (wrapText "allowance failed" "failed to unpack approve return" err),
            { ctx with meter }, spent⟩
        | .ok false => ⟨.error (.wrapped .other "failed to set allowance: allowance failed"),
            { ctx with meter }, spent⟩
        | .ok true => k.callReceiver { ctx with meter } called.ctx cbData token receiverHex
            contractAddr remainingGas spent

def ibcReceivePacketCallback (packet : Packet) (contractAddress version : String) : Trace S :=
  match k.readCallback ctx packet version .destination with
  | .error err => ⟨.error err, ctx, []⟩
  | .ok none => ⟨.ok (), ctx, []⟩
  | .ok (some (data, cbData)) =>
    match k.receiverOf data with
    | .error err => ⟨.error err, ctx, []⟩
    | .ok (receiver, receiverHex) =>
      -- the account is set on the given context, not on the branch
      let ctx := { ctx with st := k.resetAccount ctx.st receiver }
      let contractAddr := hexToAddress contractAddress
      match k.checkTarget ctx.st packet data receiverHex contractAddr with
      | .error err => ⟨.error err, ctx, []⟩
      | .ok (token, amount) =>
        k.approveReceiver ctx cbData token receiverHex contractAddr amount

/-- The checks of a callback on the sending side, given the sender's address. -/
def checkSource (st : TokenState S) (cbData : CallbackData) (name packetSenderAddress : String)
    (sender : Option Address) (contractAddr : Address) : Except Err Address :=
  let contract := k.lib.addressString contractAddr
  if cbData.calldata.length ≠ 0 then
    .error (.wrapped .other
      s!"{name} callback data should not contain calldata: invalid calldata in callback data")
  else
    match sender with
    | none => .error (.wrapped .other s!"unable to parse packet sender address {packetSenderAddress}")
    | some sender =>
      if k.isContract st contractAddr = false then
        .error (.wrapped .other
          s!"provided contract address is not a contract: {contract}: callback failed")
      else .ok sender

/-- What is left to do after the call: its gas is charged and the branch is written. -/
def finishSource (called : Called S) (written : TokenState S) : Trace S :=
  match called.answer with
  | .error err => ⟨.error (wrapText "callback failed" "EVM returned error" err), ctx, [called.gas]⟩
  | .ok res =>
    match consume ctx.meter res.gasUsed with
    | .error err => ⟨.error err, ctx, [called.gas]⟩
    | .ok meter =>
      if meter.isOutOfGas then
        ⟨.error (.wrapped .other "out of gas: callback failed"), { ctx with meter }, [called.gas]⟩
      else ⟨.ok (), ⟨written, meter⟩, [called.gas]⟩

/-- The part the two callbacks on the sending side share, around the call of the contract. -/
def sourceCallback (packet : Packet) (name packetSenderAddress version : String)
    (sender : Option Address) (contractAddr : Address) (call : CallContext S → Address → Trace S) :
    Trace S :=
  match k.readCallback ctx packet version .source with
  | .error err => ⟨.error err, ctx, []⟩
  | .ok none => ⟨.ok (), ctx, []⟩
  | .ok (some (_, cbData)) =>
    let cachedCtx : CallContext S := ⟨ctx.st, .newInfiniteWithLimit cbData.commitGasLimit⟩
    match k.checkSource ctx.st cbData name packetSenderAddress sender contractAddr with
    | .error err => ⟨.error err, ctx, []⟩
    | .ok sender => call cachedCtx sender

def ibcOnAcknowledgementPacketCallback (packet : Packet) (acknowledgement : Bytes)
    (contractAddress packetSenderAddress version : String) : Trace S :=
  let contractAddr := hexToAddress contractAddress
  k.sourceCallback ctx packet "acknowledgement" packetSenderAddress version
    (k.hexAddressFromBech32String packetSenderAddress) contractAddr fun cachedCtx sender =>
      let called := k.callEVM cachedCtx sender contractAddr
        (.onPacketAcknowledgement packet.sourceChannel packet.sourcePort packet.sequence packet.data
          acknowledgement) true (some cachedCtx.meter.gasRemaining)
      finishSource ctx called called.ctx.st

/-- `IBCOnTimeoutPacketCallback`. The call is made on the given context, so that it writes and charges
there, and the branch that is written back has nothing in it. -/
def ibcOnTimeoutPacketCallback (packet : Packet)
    (contractAddress packetSenderAddress version : String) : Trace S :=
  let contractAddr := hexToAddress contractAddress
  k.sourceCallback ctx packet "timeout" packetSenderAddress version
    ((k.codec.accAddressFromBech32 packetSenderAddress).map bytesToAddress) contractAddr
    fun cachedCtx sender =>
      let called := k.callEVM ctx sender contractAddr
        (.onPacketTimeout packet.sourceChannel packet.sourcePort packet.sequence packet.data) true
        (some cachedCtx.meter.gasRemaining)
      finishSource called.ctx called called.ctx.st

end ContractKeeper

end CosmosEvm.Ibc
