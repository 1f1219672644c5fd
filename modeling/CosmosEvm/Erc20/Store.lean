import CosmosEvm.Lib.Result
import CosmosEvm.Sdk.Hex
import CosmosEvm.Sdk.Keepers
import Mathlib.Data.Finmap

/-!
# The store of the erc20 module

A token pair is stored under the hash of its texts. Two maps lead to that key, one from the bytes of the
contract's address and one from the denomination.
-/

namespace CosmosEvm.Erc20

open Result

def moduleName : ModuleName := "erc20"

inductive Owner where
  | unspecified
  | module
  | external
deriving DecidableEq

structure StoredPair where
  erc20Address : String
  denom : Denom
  enabled : Bool
  contractOwner : Owner
deriving DecidableEq

def StoredPair.getERC20Contract (pair : StoredPair) : Address := hexToAddress pair.erc20Address

structure DenomUnit where
  denom : Denom
  exponent : ℕ
deriving DecidableEq

structure Metadata where
  description : String
  denomUnits : List DenomUnit
  base : Denom
  display : Denom
  name : String
  symbol : String
deriving DecidableEq

structure ERC20Data where
  name : String
  symbol : String
  decimals : ℕ

structure Store where
  enableErc20 : Bool
  permissionlessRegistration : Bool
  pairs : Finmap fun _ : Bytes => StoredPair
  byErc20 : Finmap fun _ : Address => Bytes
  byDenom : Finmap fun _ : Denom => Bytes
  allowances : Finmap fun _ : Address × Address × Address => ℤ
  nativePrecompiles : Finset Address
  dynamicPrecompiles : Finset Address
  denomMetadata : Finmap fun _ : Denom => Metadata

def Store.empty : Store := ⟨false, false, ∅, ∅, ∅, ∅, ∅, ∅, ∅⟩

structure Libraries where
  addressString : Address → String
  tmhashSum : String → Bytes
  trimSpace : String → String
  sanitizeERC20Name : String → String
  validateMetadata : Metadata → Except Err Unit

/-- The text of an address is an address and reads back as itself, and the hash has no collision. -/
structure Libraries.Lawful (lib : Libraries) : Prop where
  isHexAddress_addressString : ∀ address, isHexAddress (lib.addressString address) = true
  hexToAddress_addressString : ∀ address, hexToAddress (lib.addressString address) = address
  tmhashSum_injective : Function.Injective lib.tmhashSum

instance rightCommutative_erase {α : Type} [DecidableEq α] {β : α → Type} :
    RightCommutative fun (entries : Finmap β) key => entries.erase key where
  right_comm _ _ _ := Finmap.erase_erase

theorem lookup_foldl_erase {α : Type} [DecidableEq α] {β : α → Type} (keys : Multiset α)
    (entries : Finmap β) (key : α) :
    (keys.foldl (fun entries key => entries.erase key) entries).lookup key =
      if key ∈ keys then none else entries.lookup key := by
  induction keys using Multiset.induction generalizing entries with
  | empty => simp
  | cons other keys ih =>
    rw [Multiset.foldl_cons, ih]
    by_cases heq : key = other
    · subst heq
      simp
    · simp [Finmap.lookup_erase_ne heq, heq]

namespace Store

variable (store : Store)

def ValidAllowances : Prop :=
  ∀ erc20 owner spender value, store.allowances.lookup (erc20, owner, spender) = some value →
    owner ≠ FixedBytes.zero 20 ∧ spender ≠ FixedBytes.zero 20 ∧ 0 < value ∧ value < 2 ^ 256

def getTokenPair (id : Option Bytes) : Option StoredPair := id.bind store.pairs.lookup

def isERC20Registered (erc20 : Address) : Bool := (store.byErc20.lookup erc20).isSome

def isDenomRegistered (denom : Denom) : Bool := (store.byDenom.lookup denom).isSome

def getTokenPairID (token : String) : Option Bytes :=
  if isHexAddress token then store.byErc20.lookup (hexToAddress token) else store.byDenom.lookup token

def getAllowance (erc20 owner spender : Address) : ℤ :=
  (store.allowances.lookup (erc20, owner, spender)).getD 0

def deleteAllowances (erc20 : Address) : Store :=
  { store with
    allowances := (store.allowances.keys.filter fun key => key.1 = erc20).val.foldl
      (fun allowances key => allowances.erase key) store.allowances }

/-- `IsNativePrecompileAvailable` or `IsDynamicPrecompileAvailable`. -/
def isPrecompile (address : Address) : Bool :=
  address ∈ store.nativePrecompiles || address ∈ store.dynamicPrecompiles

/-- `RegisterCodeHash`: the code of a precompile that is there is not written again. -/
def registerCodeHash (available : Bool) (registerERC20CodeHash : Except Err Unit) : Except Err Unit :=
  if available then .ok () else registerERC20CodeHash

/-- `EnableNativePrecompile`, where `RegisterERC20CodeHash` ends as given. -/
def enableNativePrecompile (address : Address) (registerERC20CodeHash : Except Err Unit) :
    Except Err Store := do
  registerCodeHash (address ∈ store.nativePrecompiles) registerERC20CodeHash
  .ok { store with nativePrecompiles := insert address store.nativePrecompiles }

/-- `EnableDynamicPrecompile`, where `RegisterERC20CodeHash` ends as given. -/
def enableDynamicPrecompile (address : Address) (registerERC20CodeHash : Except Err Unit) :
    Except Err Store := do
  registerCodeHash (address ∈ store.dynamicPrecompiles) registerERC20CodeHash
  .ok { store with dynamicPrecompiles := insert address store.dynamicPrecompiles }

end Store

namespace Libraries

variable (lib : Libraries) (store : Store) (pair : StoredPair)

def getID : Bytes := lib.tmhashSum (pair.erc20Address ++ "|" ++ pair.denom)

def setTokenPair : Store :=
  { store with pairs := store.pairs.insert (lib.getID pair) pair }

def setToken : Except Err Store :=
  if store.isDenomRegistered pair.denom then
    .error (.wrapped .other
      ("token already exists for denom " ++ pair.denom ++ ": token pair already exists"))
  else if store.isERC20Registered pair.getERC20Contract then
    .error (.wrapped .other
      ("token already exists for token " ++ pair.erc20Address ++ ": token pair already exists"))
  else .ok { lib.setTokenPair store pair with
    byDenom := store.byDenom.insert pair.denom (lib.getID pair)
    byErc20 := store.byErc20.insert pair.getERC20Contract (lib.getID pair) }

def setAllowance (erc20 owner spender : Address) (value : ℤ) (allowDisabledTokenPair : Bool) :
    Except Err Store :=
  match store.getTokenPair (store.byErc20.lookup erc20) with
  | none => .error (.wrapped .other ("token pair for address '" ++ lib.addressString erc20 ++
      "' not registered: token pair not found"))
  | some pair =>
    if ¬ allowDisabledTokenPair ∧ ¬ pair.enabled then
      .error (.wrapped .other ("token pair for address '" ++ lib.addressString erc20 ++
        "' is disabled: erc20 token pair is disabled"))
    else if owner = FixedBytes.zero 20 then
      .error (.wrapped .other "owner address is empty: invalid address")
    else if spender = FixedBytes.zero 20 then
      .error (.wrapped .other "spender address is empty: invalid address")
    else if value < 0 then
      .error (.wrapped .other ("value '" ++ value.repr ++ "' is less than zero: invalid allowance"))
    else if 2 ^ 256 ≤ value then
      .error (.wrapped .other ("value '" ++ value.repr ++
        "' is greater than max value of uint256: invalid allowance"))
    else .ok { store with allowances :=
      if value = 0 then store.allowances.erase (erc20, owner, spender)
      else store.allowances.insert (erc20, owner, spender) value }

def deleteTokenPair : Store :=
  { store.deleteAllowances pair.getERC20Contract with
    pairs := store.pairs.erase (lib.getID pair)
    byErc20 := store.byErc20.erase pair.getERC20Contract
    byDenom := store.byDenom.erase pair.denom }

variable {lib store} {store' : Store} {erc20 owner spender : Address} {value : ℤ} {allowDisabled : Bool}

theorem setAllowance_eq_ok_iff :
    lib.setAllowance store erc20 owner spender value allowDisabled = .ok store' ↔
      ∃ pair, store.getTokenPair (store.byErc20.lookup erc20) = some pair ∧
        (allowDisabled = true ∨ pair.enabled = true) ∧ owner ≠ FixedBytes.zero 20 ∧
        spender ≠ FixedBytes.zero 20 ∧ 0 ≤ value ∧ value < 2 ^ 256 ∧
        { store with allowances :=
          if value = 0 then store.allowances.erase (erc20, owner, spender)
          else store.allowances.insert (erc20, owner, spender) value } = store' := by
  unfold setAllowance
  cases hpair : store.getTokenPair (store.byErc20.lookup erc20) with
  | none => simp
  | some pair =>
    simp only [ite_error_eq_ok_iff, Except.ok.injEq, Option.some.injEq, exists_eq_left', not_lt, not_le,
      not_and_or, not_not]

end Libraries

theorem lookup_ite_erase_insert {α : Type} [DecidableEq α] {entries : Finmap fun _ : α => ℤ}
    {key other : α} {value found : ℤ}
    (hlookup : (if value = 0 then entries.erase key else entries.insert key value).lookup other =
      some found) : other = key ∧ value = found ∧ value ≠ 0 ∨ other ≠ key ∧
        entries.lookup other = some found := by
  by_cases heq : other = key
  · subst heq
    split_ifs at hlookup with hzero
    · rw [Finmap.lookup_erase] at hlookup
      cases hlookup
    · rw [Finmap.lookup_insert, Option.some.injEq] at hlookup
      exact .inl ⟨rfl, hlookup, hzero⟩
  · refine .inr ⟨heq, ?_⟩
    split_ifs at hlookup with hzero
    · rwa [Finmap.lookup_erase_ne heq] at hlookup
    · rwa [Finmap.lookup_insert_of_ne _ heq] at hlookup

section Allowances

variable {lib : Libraries} {store store' : Store} {erc20 owner spender : Address} {value : ℤ}
  {allowDisabled : Bool}

theorem Store.ValidAllowances.setAllowance (hvalid : store.ValidAllowances)
    (hok : lib.setAllowance store erc20 owner spender value allowDisabled = .ok store') :
    store'.ValidAllowances := by
  obtain ⟨-, -, -, howner, hspender, hnonneg, hbound, rfl⟩ := Libraries.setAllowance_eq_ok_iff.mp hok
  intro erc20 owner spender found hlookup
  rcases lookup_ite_erase_insert hlookup with ⟨heq, rfl, hzero⟩ | ⟨-, hbefore⟩
  · cases heq
    exact ⟨howner, hspender, lt_of_le_of_ne hnonneg (Ne.symm hzero), hbound⟩
  · exact hvalid _ _ _ _ hbefore

theorem Store.ValidAllowances.getAllowance_nonneg (hvalid : store.ValidAllowances)
    (erc20 owner spender : Address) : 0 ≤ store.getAllowance erc20 owner spender := by
  unfold getAllowance
  cases hlookup : store.allowances.lookup (erc20, owner, spender) with
  | none => exact le_rfl
  | some value => exact (hvalid _ _ _ _ hlookup).2.2.1.le

theorem getAllowance_setAllowance
    (hok : lib.setAllowance store erc20 owner spender value allowDisabled = .ok store')
    (erc20' owner' spender' : Address) : store'.getAllowance erc20' owner' spender' =
      if (erc20', owner', spender') = (erc20, owner, spender) then value
      else store.getAllowance erc20' owner' spender' := by
  obtain ⟨-, -, -, -, -, -, -, rfl⟩ := Libraries.setAllowance_eq_ok_iff.mp hok
  unfold Store.getAllowance
  by_cases heq : (erc20', owner', spender') = (erc20, owner, spender)
  · rw [heq, if_pos rfl]
    split_ifs with hzero
    · rw [Finmap.lookup_erase, hzero]
      rfl
    · rw [Finmap.lookup_insert]
      rfl
  · rw [if_neg heq]
    split_ifs with hzero
    · rw [Finmap.lookup_erase_ne heq]
    · rw [Finmap.lookup_insert_of_ne _ heq]

end Allowances

end CosmosEvm.Erc20
