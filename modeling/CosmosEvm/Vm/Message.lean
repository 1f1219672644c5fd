import CosmosEvm.Sdk.Dec
import CosmosEvm.Statedb.Commit

/-!
# Applying a message

`ApplyMessageWithConfig` runs one message on a new StateDB: the checks on its gas limit, the nonce of a
creation and the authorizations of a call, the interpreter, and what the gas comes to afterwards.
-/

namespace CosmosEvm.Vm

open Statedb

structure SetCodeAuthorization where
  chainID : BitVec 256
  address : Address
  nonce : UInt64
  signature : Bytes

structure Message where
  sender : Address
  recipient : Option Address
  nonce : UInt64
  value : ℤ
  gasLimit : UInt64
  gasPrice : ℤ
  gasFeeCap : ℤ
  gasTipCap : ℤ
  data : Bytes
  accessList : List (Address × List Hash)
  setCodeAuthorizations : List SetCodeAuthorization

structure EthRules where
  isHomestead : Bool
  isIstanbul : Bool
  isShanghai : Bool
  isLondon : Bool
  isPrague : Bool
  isEIP2929 : Bool
  isEIP4762 : Bool

def EthRules.toRules (rules : EthRules) : StateDB.Rules := ⟨rules.isEIP2929, rules.isEIP4762, rules.isShanghai⟩

def maxUint64 : ℕ := 2 ^ 64 - 1

def errGasUintOverflow : Err := .wrapped .other "gas uint64 overflow"

/-- Charging for a number of units, unless the sum leaves the range of `uint64`. -/
def chargeUnits (gas units price : ℕ) : Except Err ℕ :=
  if (maxUint64 - gas) / price < units then .error errGasUintOverflow else .ok (gas + units * price)

def intrinsicGas (data : Bytes) (accessList : List (Address × List Hash))
    (authorizations : List SetCodeAuthorization) (isContractCreation : Bool) (rules : EthRules) :
    Except Err ℕ := do
  let gas := if isContractCreation && rules.isHomestead then 53000 else 21000
  let z := data.count 0
  let nz := data.length - z
  let gas ← if 0 < data.length then do
      let gas ← chargeUnits gas nz (if rules.isIstanbul then 16 else 68)
      let gas ← chargeUnits gas z 4
      if isContractCreation && rules.isShanghai then chargeUnits gas ((data.length + 31) / 32) 2
      else .ok gas
    else .ok gas
  let storageKeys := (accessList.map fun tuple => tuple.2.length).sum
  return (gas + accessList.length * 2400 + storageKeys * 1900 + authorizations.length * 25000) % 2 ^ 64

def floorDataGas (data : Bytes) : Except Err ℕ :=
  let z := data.count 0
  let nz := data.length - z
  let tokens := nz * 4 + z
  if (maxUint64 - 21000) / 10 < tokens then .error errGasUintOverflow else .ok (21000 + tokens * 10)

def delegationPrefix : Bytes := [0xef, 0x01, 0x00]

def parseDelegation (code : Bytes) : Option Address :=
  if code.length = 23 ∧ code.take 3 = delegationPrefix then some (bytesToAddress (code.drop 3)) else none

def addressToDelegation (addr : Address) : Bytes := delegationPrefix ++ addr.bytes

def authExistsRefund : UInt64 := 25000 - 12500

structure ExecutionResult (σ : Type) where
  ret : Bytes
  leftoverGas : UInt64
  vmErr : Option String
  stateDB : StateDB σ

/-- The interpreter, which works on a StateDB. An error is a panic: an execution that reverts or runs out
of gas has a result. -/
structure Evm (σ : Type) where
  create : StateDB σ → Address → Bytes → UInt64 → BitVec 256 → Except Err (ExecutionResult σ)
  call : StateDB σ → Address → Address → Bytes → UInt64 → BitVec 256 → Except Err (ExecutionResult σ)
  activePrecompiles : List Address

/-- The configuration of a block: its rules, the chain's id, the parameter `MinGasMultiplier` of the fee
market, and the signer of an authorization where its signature is valid. -/
structure EvmConfig where
  rules : EthRules
  chainID : ℕ
  minGasMultiplier : Dec
  authority : SetCodeAuthorization → Option Address

section Authorizations

variable {σ : Type} (env : Env σ) (cfg : EvmConfig)

/-- `validateAuthorization`. The authority is warm afterwards, whether the authorization is valid or not. -/
def validateAuthorization (s : StateDB σ) (auth : SetCodeAuthorization) :
    Except Err Address × StateDB σ :=
  if auth.chainID ≠ 0 ∧ auth.chainID.toNat ≠ cfg.chainID then
    (.error (.wrapped .other "EIP-7702 authorization chain ID mismatch"), s)
  else if auth.nonce + 1 < auth.nonce then
    (.error (.wrapped .other "EIP-7702 authorization nonce > 64 bit"), s)
  else
    match cfg.authority auth with
    | none => (.error (.wrapped .other "EIP-7702 authorization has invalid signature"), s)
    | some authority =>
      let s := s.addAddressToAccessList authority
      let code := (s.getCode env authority).1.getD []
      let s := (s.getCode env authority).2
      if code.length ≠ 0 ∧ parseDelegation code = none then
        (.error (.wrapped .other "EIP-7702 authorization destination is a contract"), s)
      else
        let nonce := (s.getNonce env authority).1
        let s := (s.getNonce env authority).2
        if nonce ≠ auth.nonce then
          (.error (.wrapped .other "EIP-7702 authorization nonce does not match current account nonce"), s)
        else (.ok authority, s)

def delegationCode (auth : SetCodeAuthorization) : Option Bytes :=
  if auth.address = FixedBytes.zero 20 then none else some (addressToDelegation auth.address)

def applyAuthorization (s : StateDB σ) (auth : SetCodeAuthorization) : StateDB σ :=
  match validateAuthorization env cfg s auth with
  | (.error _, s) => s
  | (.ok authority, s) =>
    let found := (s.exist env authority).1
    let s := (s.exist env authority).2
    let s := if found then s.addRefund authExistsRefund else s
    let s := s.setNonce env authority (auth.nonce + 1)
    (s.setCode env authority (delegationCode auth)).2

/-- The StateDB that a call starts with: the authorizations are applied, where invalid ones are skipped,
and the target of a delegation is warm. -/
def callState (s : StateDB σ) (msg : Message) (recipient : Address) : StateDB σ :=
  let s := msg.setCodeAuthorizations.foldl (applyAuthorization env cfg) s
  let code := (s.getCode env recipient).1.getD []
  let s := (s.getCode env recipient).2
  match parseDelegation code with
  | some addr => s.addAddressToAccessList addr
  | none => s

/-- The StateDB that the interpreter starts with. For a creation the nonce is taken over from the
interpreter: the sender's is that of the message again. -/
def startState (s : StateDB σ) (msg : Message) : StateDB σ :=
  match msg.recipient with
  | none => s.setNonce env msg.sender msg.nonce
  | some recipient => callState env cfg s msg recipient

end Authorizations

def gasToRefund (availableRefund gasConsumed refundQuotient : ℕ) : ℕ :=
  let refund := gasConsumed / refundQuotient
  if availableRefund < refund then availableRefund else refund

def refundQuotient (isLondon internal : Bool) : ℕ := if internal then 1 else if isLondon then 5 else 2

def toInt64 (n : ℕ) : ℤ := if n < 2 ^ 63 then n else n - 2 ^ 64

def minimumGasUsed (gasLimit : UInt64) (minGasMultiplier : Dec) : Dec :=
  (Dec.ofInt gasLimit.toNat).mul minGasMultiplier

def chargedGas (temporaryGasUsed : ℕ) (minimum : Dec) (internal : Bool) : Dec :=
  let gasUsed := Dec.ofInt (toInt64 temporaryGasUsed)
  if internal then gasUsed else gasUsed.max minimum

structure MsgEthereumTxResponse where
  gasUsed : ℕ
  maxUsedGas : ℕ
  vmError : Option String
  ret : Bytes
  logs : List Log

def MsgEthereumTxResponse.failed (res : MsgEthereumTxResponse) : Bool := res.vmError.isSome

def uint256FromBigInt (i : ℤ) : Except Err (BitVec 256) :=
  if i < 0 then .error (.wrapped .other "trying to convert negative *big.Int to uint256.Int")
  else if 2 ^ 256 ≤ i then .error (.wrapped .other "overflow trying to convert *big.Int to uint256.Int")
  else .ok (BitVec.ofInt 256 i)

section ApplyMessage

variable {σ : Type} (env : Env σ) (cfg : EvmConfig) (evm : Evm σ)

/-- The checks on the gas limit. The result is the gas the interpreter gets. -/
def checkGasLimit (msg : Message) : Except Err UInt64 := do
  let intrinsic ← (intrinsicGas msg.data msg.accessList msg.setCodeAuthorizations msg.recipient.isNone
    cfg.rules).mapError (Err.wrap "intrinsic gas failed")
  if msg.gasLimit.toNat < intrinsic then
    .error (.wrapped .other "apply message: intrinsic gas too low")
  else if cfg.rules.isPrague then do
    let floor ← floorDataGas msg.data
    if msg.gasLimit.toNat < floor then
      .error (.wrapped .other ("insufficient gas for floor data gas cost: have " ++ msg.gasLimit.toNat.repr ++
        ", want " ++ floor.repr))
    else .ok (msg.gasLimit - UInt64.ofNat intrinsic)
  else .ok (msg.gasLimit - UInt64.ofNat intrinsic)

/-- The execution. After a creation the nonce is one more than that of the message, whatever has happened. -/
def execute (s : StateDB σ) (msg : Message) (gas : UInt64) (value : BitVec 256) :
    Except Err (ExecutionResult σ) :=
  match msg.recipient with
  | none => do
    let res ← evm.create (startState env cfg s msg) msg.sender msg.data gas value
    return { res with stateDB := res.stateDB.setNonce env msg.sender (msg.nonce + 1) }
  | some recipient => evm.call (startState env cfg s msg) msg.sender recipient msg.data gas value

def refundedGas (msg : Message) (internal : Bool) (res : ExecutionResult σ) : ℕ :=
  gasToRefund res.stateDB.refund.toNat (msg.gasLimit.toNat - res.leftoverGas.toNat)
    (refundQuotient cfg.rules.isLondon internal)

def temporaryGasUsed (msg : Message) (internal : Bool) (res : ExecutionResult σ) : ℕ :=
  msg.gasLimit.toNat - res.leftoverGas.toNat - refundedGas cfg msg internal res

def committed (ctx : Context σ) (commit : Bool) (s : StateDB σ) : Except Err (Context σ) :=
  if commit then (s.commit env).mapError (Err.wrap "failed to commit stateDB") else .ok ctx

/-- What a message comes to after its execution: the response, and the context with the StateDB committed
if it is to be. -/
def settle (ctx : Context σ) (msg : Message) (commit internal : Bool) (res : ExecutionResult σ) :
    Except Err (MsgEthereumTxResponse × Context σ) :=
  if msg.gasLimit < res.leftoverGas then
    .error (.wrapped .other "apply message: gas computation overflow/underflow")
  else do
    let ctx ← committed env ctx commit res.stateDB
    let minimum := minimumGasUsed msg.gasLimit cfg.minGasMultiplier
    if minimum.truncateInt < 0 ∨ 2 ^ 64 ≤ minimum.truncateInt then
      .error (.wrapped .other ("minimumGasUsed(" ++ minimum.truncateInt.repr ++
        ") is not a uint64: gas computation overflow/underflow"))
    else if msg.gasLimit.toNat < res.leftoverGas.toNat + refundedGas cfg msg internal res then
      .error (.wrapped .other ("message gas limit < leftover gas (" ++ msg.gasLimit.toNat.repr ++ " < " ++
        (res.leftoverGas.toNat + refundedGas cfg msg internal res).repr ++
        "): gas computation overflow/underflow"))
    else
      let gasUsed := (chargedGas (temporaryGasUsed cfg msg internal res) minimum internal).truncateInt
      if gasUsed < 0 ∨ 2 ^ 64 ≤ gasUsed then .error (.panicked "Uint64() out of bounds")
      else
        .ok ({ gasUsed := gasUsed.toNat
               maxUsedGas := msg.gasLimit.toNat - res.leftoverGas.toNat
               vmError := res.vmErr
               ret := res.ret
               logs := res.stateDB.logs }, ctx)

def execution (ctx : Context σ) (msg : Message) (txConfig : TxConfig) : Except Err (ExecutionResult σ) := do
  let gas ← checkGasLimit cfg msg
  match (new ctx txConfig).prepare cfg.rules.toRules msg.sender (FixedBytes.zero 20) msg.recipient
      evm.activePrecompiles msg.accessList with
  | none => .error (.panicked "eip2929 and eip4762 are both activated")
  | some s => do
    let value ← uint256FromBigInt msg.value
    execute env cfg evm s msg gas value

def applyMessageWithConfig (ctx : Context σ) (msg : Message) (commit internal : Bool)
    (txConfig : TxConfig) : Except Err (MsgEthereumTxResponse × Context σ) := do
  let res ← execution env cfg evm ctx msg txConfig
  settle env cfg ctx msg commit internal res

end ApplyMessage

end CosmosEvm.Vm
