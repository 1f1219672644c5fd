import CosmosEvm.PreciseBank.MintBurn
import CosmosEvm.Sdk.Auth
import CosmosEvm.Statedb.Object

/-!
# The x/vm keeper under the StateDB

The keeper stores code, code hashes and storage itself, nonces in the accounts of `x/auth` and balances in
`x/precisebank`, where it changes them by minting and burning through its own module account.
-/

namespace CosmosEvm.Vm

def moduleName : ModuleName := "evm"

structure Keeper (S Acc : Type) where
  bank : PreciseBank.Keeper S
  ak : AccountKeeper S Acc
  keccak256 : Bytes → Hash
  account : ModuleAccount
  getModuleAccount_moduleName : bank.modules.getModuleAccount moduleName = some account
  minter_mem : .minter ∈ account.permissions
  burner_mem : .burner ∈ account.permissions

namespace Keeper

variable {S Acc : Type} (k : Keeper S Acc) (ctx : Ctx S)

def emptyCodeHash : Hash := k.keccak256 []

def withSdk (ctx : Ctx S) (sdk : S) : Ctx S :=
  { ctx with store := { ctx.store with sdk } }

def withEvm (ctx : Ctx S) (evm : EvmStore) : Ctx S :=
  { ctx with store := { ctx.store with evm } }

def spendableCoin (addr : Address) : ℤ :=
  k.bank.spendableCoin ctx addr.bytes k.bank.extendedCoinDenom

/-- The coins a mint or a burn is made with, after `ConvertEvmCoinDenomToExtendedDenom`. -/
def evmCoins (amt : ℤ) : Coins := [⟨k.bank.extendedCoinDenom, amt⟩]

def mintAmountToAccount (recipientAddr : AccAddress) (amt : ℤ) :
    Except Err (Ctx S) := do
  let ctx ← (k.bank.mintCoins ctx moduleName (k.evmCoins amt)).mapError
    (Err.wrap "failed to mint coins to account in bank wrapper")
  k.bank.sendCoinsFromModuleToAccount ctx moduleName recipientAddr (k.evmCoins amt)

def burnAmountFromAccount (account : AccAddress) (amt : ℤ) : Except Err (Ctx S) := do
  let ctx ← (k.bank.sendCoinsFromAccountToModule ctx account moduleName (k.evmCoins amt)).mapError
    (Err.wrap "failed to burn coins from account in bank wrapper")
  k.bank.burnCoins ctx moduleName (k.evmCoins amt)

def uint256 (amt : ℤ) : BitVec 256 := if amt < 2 ^ 256 then BitVec.ofInt 256 amt else 0

variable (store : MultiStore S)

def getCodeHash (addr : Address) : Hash :=
  (store.evm.codeHash.lookup addr).getD k.emptyCodeHash

/-- `GetAccount`, whose balance is only looked up where there is an account. -/
def getAccount (store : MultiStore S) (addr : Address) : Option Statedb.Account :=
  (k.ak.getAccount store.sdk addr.bytes).map fun acct =>
    { nonce := k.ak.getSequence acct
      balance := uint256 (k.spendableCoin ⟨store, []⟩ addr)
      codeHash := k.getCodeHash store addr }

def getState (addr : Address) (key : Hash) : Hash :=
  match store.evm.storage.lookup (addr, key) with
  | some (byte :: bytes) => bytesToHash (byte :: bytes)
  | _ => Statedb.zeroHash

theorem hash_bytes_length_ne_zero (value : Hash) : ¬ value.bytes.length = 0 := by
  rw [value.length_bytes]
  decide

theorem getState_of_lookup_bytes {store : MultiStore S} {addr : Address} {key value : Hash}
    (hlookup : store.evm.storage.lookup (addr, key) = some value.bytes) :
    getState store addr key = value := by
  unfold getState
  rw [hlookup]
  cases hbytes : value.bytes with
  | nil => exact absurd (congrArg List.length hbytes) (hash_bytes_length_ne_zero value)
  | cons byte bytes =>
    change bytesToHash (byte :: bytes) = value
    rw [← hbytes]
    exact FixedBytes.ofBytes_bytes value

def getCode (codeHash : Hash) : Option Bytes := store.evm.code.lookup codeHash

def isContract (addr : Address) : Bool :=
  (store.evm.codeHash.lookup addr).isSome

def storageKeys (addr : Address) : List Hash :=
  FixedBytes.sorted ((store.evm.storage.keys.filter fun entry => entry.1 = addr).image Prod.snd)

variable (addr : Address)

def setState (key : Hash) (value : Bytes) : Ctx S :=
  withEvm ctx { ctx.store.evm with storage := ctx.store.evm.storage.insert (addr, key) value }

def deleteState (key : Hash) : Ctx S :=
  withEvm ctx { ctx.store.evm with storage := ctx.store.evm.storage.erase (addr, key) }

def setCode (codeHash : Hash) (code : Bytes) : Ctx S :=
  withEvm ctx { ctx.store.evm with code := ctx.store.evm.code.insert codeHash code }

def deleteCode (codeHash : Hash) : Ctx S :=
  withEvm ctx { ctx.store.evm with code := ctx.store.evm.code.erase codeHash }

def setCodeHash (codeHash : Hash) : Ctx S :=
  withEvm ctx { ctx.store.evm with codeHash := ctx.store.evm.codeHash.insert addr codeHash }

def deleteCodeHash : Ctx S :=
  withEvm ctx { ctx.store.evm with codeHash := ctx.store.evm.codeHash.erase addr }

/-- `SetBalance`: the difference to the spendable coins is minted or burned. -/
def setBalance (amount : BitVec 256) : Except Err (Ctx S) :=
  let delta := amount.toNat - k.spendableCoin ctx addr
  if 0 < delta then k.mintAmountToAccount ctx addr.bytes delta
  else if delta < 0 then k.burnAmountFromAccount ctx addr.bytes (-delta)
  else .ok ctx

def getOrNewAccount (sdk : S) (addr : Address) : Acc × S :=
  match k.ak.getAccount sdk addr.bytes with
  | some acct => (acct, sdk)
  | none => k.ak.newAccountWithAddress sdk addr.bytes

/-- `SetAccount` up to `SetBalance`: the nonce and the code hash. -/
def setAccountRecord (account : Statedb.Account) : Except Err (Ctx S) := do
  let (acct, sdk) := k.getOrNewAccount ctx.store.sdk addr
  let acct ← k.ak.setSequence acct account.nonce
  let ctx :=
    if account.codeHash = k.emptyCodeHash then deleteCodeHash ctx addr
    else setCodeHash ctx addr account.codeHash
  return withSdk ctx (k.ak.setAccount sdk acct)

def setAccount (account : Statedb.Account) : Except Err (Ctx S) := do
  let ctx ← k.setAccountRecord ctx addr account
  k.setBalance ctx addr account.balance

/-- The end of `DeleteAccount`: storage, code hash and the account itself. -/
def clearAccount (acct : Acc) : Ctx S :=
  let ctx := (storageKeys ctx.store addr).foldl (fun ctx key => deleteState ctx addr key) ctx
  let ctx := deleteCodeHash ctx addr
  withSdk ctx (k.ak.removeAccount ctx.store.sdk acct)

def deleteAccount : Except Err (Ctx S) :=
  match k.ak.getAccount ctx.store.sdk addr.bytes with
  | none => .ok ctx
  | some acct =>
    if ¬ isContract ctx.store addr then
      .error (.wrapped .other "only smart contracts can be self-destructed")
    else do
      let ctx := withSdk ctx (k.ak.setAccount ctx.store.sdk (k.ak.newBaseAccount acct))
      let ctx ← k.setBalance ctx addr 0
      return k.clearAccount ctx addr acct

end Keeper

def Keeper.toStatedb {S Acc : Type} (k : Keeper S Acc) : Statedb.Keeper (MultiStore S) where
  getAccount := k.getAccount
  getState := Keeper.getState
  getCode := Keeper.getCode
  setAccount := k.setAccount
  deleteState := Keeper.deleteState
  setState := Keeper.setState
  deleteCode := Keeper.deleteCode
  setCode := Keeper.setCode
  deleteAccount := k.deleteAccount

def Keeper.env {S Acc : Type} (k : Keeper S Acc) (addressString : Address → String) :
    Statedb.Env (MultiStore S) where
  keeper := k.toStatedb
  keccak256 := k.keccak256
  addressString := addressString

end CosmosEvm.Vm
