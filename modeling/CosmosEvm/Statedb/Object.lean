import CosmosEvm.Store.Context

/-!
# Accounts and state objects

The `Keeper` interface the StateDB reads from and commits to, and the state object it caches for an account:
the account itself, its code once loaded, the slots read so far and those written.
-/

namespace CosmosEvm.Statedb

structure Account where
  nonce : UInt64
  balance : BitVec 256
  codeHash : Hash
deriving DecidableEq

abbrev Storage := Finmap fun _ : Hash => Hash

def zeroHash : Hash := FixedBytes.zero 32

structure Keeper (σ : Type) where
  getAccount : σ → Address → Option Account
  getState : σ → Address → Hash → Hash
  getCode : σ → Hash → Option Bytes
  setAccount : Context σ → Address → Account → Except Err (Context σ)
  deleteState : Context σ → Address → Hash → Context σ
  setState : Context σ → Address → Hash → Bytes → Context σ
  deleteCode : Context σ → Hash → Context σ
  setCode : Context σ → Hash → Bytes → Context σ
  deleteAccount : Context σ → Address → Except Err (Context σ)

structure Env (σ : Type) where
  keeper : Keeper σ
  keccak256 : Bytes → Hash
  addressString : Address → String

variable {σ : Type}

def Env.blank (σ : Type) : Env σ where
  keeper :=
    { getAccount := fun _ _ => none
      getState := fun _ _ _ => zeroHash
      getCode := fun _ _ => none
      setAccount := fun ctx _ _ => .ok ctx
      deleteState := fun ctx _ _ => ctx
      setState := fun ctx _ _ _ => ctx
      deleteCode := fun ctx _ => ctx
      setCode := fun ctx _ _ => ctx
      deleteAccount := fun ctx _ => .ok ctx }
  keccak256 := bytesToHash
  addressString := fun _ => ""

def Env.emptyCodeHash (env : Env σ) : Hash := env.keccak256 []

structure StateObject where
  account : Account
  code : Option Bytes
  originStorage : Storage
  dirtyStorage : Storage
  dirtyCode : Bool
  selfDestructed : Bool
  newContract : Bool

def newObject (account : Account) : StateObject where
  account := account
  code := none
  originStorage := ∅
  dirtyStorage := ∅
  dirtyCode := false
  selfDestructed := false
  newContract := false

def Env.emptyAccount (env : Env σ) : Account where
  nonce := 0
  balance := 0
  codeHash := env.emptyCodeHash

namespace StateObject

def empty (env : Env σ) (obj : StateObject) : Bool :=
  obj.account.nonce = 0 && obj.account.balance = 0 && obj.account.codeHash = env.emptyCodeHash

def resolveCode (env : Env σ) (store : σ) (code : Option Bytes) (codeHash : Hash) : Option Bytes :=
  match code with
  | some code => some code
  | none => if codeHash = env.emptyCodeHash then none else env.keeper.getCode store codeHash

def loadCode (env : Env σ) (store : σ) (obj : StateObject) : Option Bytes × StateObject :=
  let code := resolveCode env store obj.code obj.account.codeHash
  (code, { obj with code := code })

def getCommittedState (env : Env σ) (store : σ) (addr : Address) (obj : StateObject) (key : Hash) :
    Hash × StateObject :=
  match obj.originStorage.lookup key with
  | some value => (value, obj)
  | none =>
    let value := env.keeper.getState store addr key
    (value, { obj with originStorage := obj.originStorage.insert key value })

def getState (env : Env σ) (store : σ) (addr : Address) (obj : StateObject) (key : Hash) :
    Hash × StateObject :=
  match obj.dirtyStorage.lookup key with
  | some value => (value, obj)
  | none => obj.getCommittedState env store addr key

def setBalance (obj : StateObject) (amount : BitVec 256) : StateObject :=
  { obj with account := { obj.account with balance := amount } }

def setNonce (obj : StateObject) (nonce : UInt64) : StateObject :=
  { obj with account := { obj.account with nonce := nonce } }

def setCode (obj : StateObject) (codeHash : Hash) (code : Option Bytes) : StateObject :=
  { obj with
    code := code
    account := { obj.account with codeHash := codeHash }
    dirtyCode := true }

def setState (obj : StateObject) (key value : Hash) : StateObject :=
  { obj with dirtyStorage := obj.dirtyStorage.insert key value }

end StateObject

end CosmosEvm.Statedb
