import CosmosEvm.Statedb.Journal

namespace CosmosEvm.Statedb

namespace StateDB

variable {σ : Type} (env : Env σ) (s : StateDB σ) (addr : Address)

def exist : Bool × StateDB σ :=
  let (obj, s) := s.getStateObject env addr
  (obj.isSome, s)

def empty : Bool × StateDB σ :=
  let (obj, s) := s.getStateObject env addr
  (obj.all (·.empty env), s)

def getBalance : BitVec 256 × StateDB σ :=
  let (obj, s) := s.getStateObject env addr
  ((obj.map (·.account.balance)).getD 0, s)

def getNonce : UInt64 × StateDB σ :=
  let (obj, s) := s.getStateObject env addr
  ((obj.map (·.account.nonce)).getD 0, s)

def getCode : Option Bytes × StateDB σ :=
  match s.getStateObject env addr with
  | (none, s) => (none, s)
  | (some obj, s) =>
    let (code, obj) := obj.loadCode env s.ctx.store
    (code, s.setStateObject addr obj)

def getCodeSize : ℕ × StateDB σ :=
  let (code, s) := s.getCode env addr
  ((code.map List.length).getD 0, s)

def getCodeHash : Hash × StateDB σ :=
  let (obj, s) := s.getStateObject env addr
  ((obj.map (·.account.codeHash)).getD zeroHash, s)

def getState (key : Hash) : Hash × StateDB σ :=
  match s.getStateObject env addr with
  | (none, s) => (zeroHash, s)
  | (some obj, s) =>
    let (value, obj) := obj.getState env s.ctx.store addr key
    (value, s.setStateObject addr obj)

def getCommittedState (key : Hash) : Hash × StateDB σ :=
  match s.getStateObject env addr with
  | (none, s) => (zeroHash, s)
  | (some obj, s) =>
    let (value, obj) := obj.getCommittedState env s.ctx.store addr key
    (value, s.setStateObject addr obj)

def hasSelfDestructed : Bool × StateDB σ :=
  let (obj, s) := s.getStateObject env addr
  (obj.any (·.selfDestructed), s)

def getTransientState (key : Hash) : Hash :=
  s.transientStorage.get addr key

def addressInAccessList : Bool := s.accessList.containsAddress addr

def slotInAccessList (slot : Hash) : Bool × Bool :=
  s.accessList.contains addr slot

def journaled (s : StateDB σ) (entry : JournalEntry) (addr : Address) (obj : StateObject) :
    StateDB σ :=
  (s.append entry).setStateObject addr obj

def createObject : StateObject × Option StateObject × StateDB σ :=
  let newobj := newObject env.emptyAccount
  match s.getStateObject env addr with
  | (none, s) => (newobj, none, s.journaled (.createObjectChange addr) addr newobj)
  | (some prev, s) => (newobj, some prev, s.journaled (.resetObjectChange addr prev) addr newobj)

def getOrNewStateObject : StateObject × StateDB σ :=
  match s.getStateObject env addr with
  | (some obj, s) => (obj, s)
  | (none, s) =>
    let (obj, _, s) := s.createObject env addr
    (obj, s)

def createAccount : StateDB σ :=
  match s.createObject env addr with
  | (_, none, s) => s
  | (newObj, some prev, s) => s.setStateObject addr (newObj.setBalance prev.account.balance)

def createContract : Option (StateDB σ) :=
  match s.getStateObject env addr with
  | (none, _) => none
  | (some obj, s) =>
    if obj.newContract then some s
    else some (s.journaled (.createContractChange addr) addr { obj with newContract := true })

def setBalance (obj : StateObject) (amount : BitVec 256) : BitVec 256 × StateDB σ :=
  (obj.account.balance,
    s.journaled (.balanceChange addr obj.account.balance) addr (obj.setBalance amount))

def addBalance (amount : BitVec 256) : BitVec 256 × StateDB σ :=
  let (obj, s) := s.getOrNewStateObject env addr
  if amount = 0 then (obj.account.balance, s)
  else s.setBalance addr obj (obj.account.balance + amount)

def subBalance (amount : BitVec 256) : BitVec 256 × StateDB σ :=
  let (obj, s) := s.getOrNewStateObject env addr
  if amount = 0 then (obj.account.balance, s)
  else s.setBalance addr obj (obj.account.balance - amount)

def setNonce (nonce : UInt64) : StateDB σ :=
  let (obj, s) := s.getOrNewStateObject env addr
  s.journaled (.nonceChange addr obj.account.nonce) addr (obj.setNonce nonce)

def setCode (code : Option Bytes) : Option Bytes × StateDB σ :=
  let (obj, s) := s.getOrNewStateObject env addr
  let (prevcode, loaded) := obj.loadCode env s.ctx.store
  (obj.code, s.journaled (.codeChange addr prevcode loaded.account.codeHash) addr
    (loaded.setCode (env.keccak256 (code.getD [])) code))

def setState (key value : Hash) : Hash × StateDB σ :=
  let (obj, s) := s.getOrNewStateObject env addr
  let (prev, obj) := obj.getState env s.ctx.store addr key
  if prev = value then (prev, s.setStateObject addr obj)
  else (prev, s.journaled (.storageChange addr key prev) addr (obj.setState key value))

def selfDestruct : BitVec 256 × StateDB σ :=
  match s.getStateObject env addr with
  | (none, s) => (0, s)
  | (some obj, s) =>
    (obj.account.balance,
      s.journaled (.selfDestructChange addr obj.selfDestructed obj.account.balance) addr
        ({ obj with selfDestructed := true }.setBalance 0))

def selfDestruct6780 : BitVec 256 × Bool × StateDB σ :=
  match s.getStateObject env addr with
  | (none, s) => (0, false, s)
  | (some obj, s) =>
    if obj.newContract then
      let (prev, s) := s.selfDestruct env addr
      (prev, true, s)
    else (obj.account.balance, false, s)

def setTransientState (key value : Hash) : StateDB σ :=
  let prev := s.getTransientState addr key
  if prev = value then s
  else
    { s.append (.transientStorageChange addr key prev) with
      transientStorage := s.transientStorage.set addr key value }

/-- `AddLog`, which stamps the log with the transaction and its index. -/
def addLog (log : Log) : StateDB σ :=
  { s.append .addLogChange with
    logs := s.logs ++ [{ log with
      txHash := s.txConfig.txHash
      blockHash := s.txConfig.blockHash
      txIndex := s.txConfig.txIndex
      index := s.txConfig.logIndex + s.logs.length }] }

def addRefund (gas : UInt64) : StateDB σ :=
  { s.append (.refundChange s.refund) with refund := s.refund + gas }

def subRefund (gas : UInt64) : Option (StateDB σ) :=
  if s.refund < gas then none
  else some { s.append (.refundChange s.refund) with refund := s.refund - gas }

def addAddressToAccessList : StateDB σ :=
  let (accessList, added) := s.accessList.addAddress addr
  if added then { s.append (.accessListAddAccountChange addr) with accessList } else s

def addSlotToAccessList (slot : Hash) : StateDB σ :=
  let (accessList, addrMod, slotMod) := s.accessList.addSlot addr slot
  let s := { s with accessList }
  let s := if addrMod then s.append (.accessListAddAccountChange addr) else s
  if slotMod then s.append (.accessListAddSlotChange addr slot) else s

structure Rules where
  isEIP2929 : Bool
  isEIP4762 : Bool
  isShanghai : Bool

def warmAccessList (rules : Rules) (sender coinbase : Address) (dst : Option Address)
    (precompiles : List Address) (list : List (Address × List Hash)) : AccessList :=
  let al := AccessList.new.addAddresses ([sender] ++ dst.toList ++ precompiles)
  let al := list.foldl (fun al el => (al.addAddress el.1).1.addSlots el.1 el.2) al
  al.addAddresses (if rules.isShanghai then [coinbase] else [])

def prepare (rules : Rules) (sender coinbase : Address) (dst : Option Address)
    (precompiles : List Address) (list : List (Address × List Hash)) : Option (StateDB σ) :=
  if rules.isEIP2929 && rules.isEIP4762 then none
  else
    let accessList :=
      if rules.isEIP2929 then warmAccessList rules sender coinbase dst precompiles list
      else s.accessList
    some { s with accessList, transientStorage := ∅ }

end StateDB

end CosmosEvm.Statedb
