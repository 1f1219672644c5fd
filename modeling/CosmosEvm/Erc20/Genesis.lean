import CosmosEvm.Erc20.Store

/-!
# How token pairs come and go

Pairs are registered for a contract or for an IBC denomination, switched on and off, deleted, and read from
the genesis file.
-/

namespace CosmosEvm.Erc20

structure Allowance where
  erc20Address : String
  owner : String
  spender : String
  value : ℤ

structure GenesisState where
  enableErc20 : Bool
  permissionlessRegistration : Bool
  tokenPairs : List StoredPair
  allowances : List Allowance
  nativePrecompiles : List String
  dynamicPrecompiles : List String

def Allowance.validate (allowance : Allowance) : Except Err Unit :=
  if isHexAddress allowance.erc20Address = false then
    .error (.wrapped .other
      ("invalid erc20 hex address " ++ allowance.erc20Address ++ ": invalid address"))
  else if isHexAddress allowance.owner = false then
    .error (.wrapped .other ("invalid owner hex address " ++ allowance.owner ++ ": invalid address"))
  else if isHexAddress allowance.spender = false then
    .error (.wrapped .other ("invalid sender hex address " ++ allowance.spender ++ ": invalid address"))
  else if ¬ 0 < allowance.value then
    .error (.wrapped .other "invalid allowance value: invalid allowance")
  else .ok ()

def hasActiveTokenPair (pairs : List StoredPair) (address : String) : Bool :=
  pairs.any fun pair => pair.erc20Address = address && pair.enabled

def validatePrecompiles (pairs : List StoredPair) : List String → Except Err Unit
  | [] => .ok ()
  | precompile :: precompiles =>
    if hasActiveTokenPair pairs precompile = false then
      .error (.wrapped .other ("precompile address '" ++ precompile ++ "' not found in token pairs"))
    else validatePrecompiles pairs precompiles

def validateAllowances (seenErc20 : Finset String) :
    List Allowance → Finset String → Except Err Unit
  | [], _ => .ok ()
  | allowance :: allowances, seenAllowance =>
    let key := allowance.erc20Address ++ allowance.owner ++ allowance.spender
    if key ∈ seenAllowance then .error (.wrapped .other ("duplicated allowance on genesis: " ++ key))
    else if allowance.erc20Address ∉ seenErc20 then
      .error (.wrapped .other
        ("allowance has no corresponding token pair on genesis: " ++ allowance.erc20Address))
    else
      match allowance.validate with
      | .error err => .error (err.wrap "invalid allowance on genesis")
      | .ok _ => validateAllowances seenErc20 allowances (insert key seenAllowance)

def StoredPair.validate (pair : StoredPair) : Except Err Unit :=
  if validateDenom pair.denom = false then
    .error (.wrapped .other ("invalid denom: " ++ pair.denom))
  else if isHexAddress pair.erc20Address = false then
    .error (.wrapped .other
      ("address '" ++ pair.erc20Address ++ "' is not a valid ethereum hex address: invalid address"))
  else .ok ()

/-- The loop of `GenesisState.Validate` over the pairs, with the addresses it has seen. -/
def validatePairs : List StoredPair → Finset String → Finset Denom → Except Err (Finset String)
  | [], seenErc20, _ => .ok seenErc20
  | pair :: pairs, seenErc20, seenDenom =>
    if pair.erc20Address ∈ seenErc20 then
      .error (.wrapped .other
        ("token ERC20 contract duplicated on genesis '" ++ pair.erc20Address ++ "'"))
    else if pair.denom ∈ seenDenom then
      .error (.wrapped .other ("coin denomination duplicated on genesis: '" ++ pair.denom ++ "'"))
    else do
      pair.validate
      validatePairs pairs (insert pair.erc20Address seenErc20) (insert pair.denom seenDenom)

def GenesisState.validate (data : GenesisState) : Except Err Unit := do
  let seenErc20 ← validatePairs data.tokenPairs ∅ ∅
  (validatePrecompiles data.tokenPairs data.dynamicPrecompiles).mapError
    (Err.wrap "invalid dynamic precompiles on genesis")
  (validatePrecompiles data.tokenPairs data.nativePrecompiles).mapError
    (Err.wrap "invalid native precompiles on genesis")
  validateAllowances seenErc20 data.allowances ∅

namespace Libraries

variable (lib : Libraries) (store : Store)

def newTokenPair (erc20Address : Address) (denom : Denom) (contractOwner : Owner) : StoredPair :=
  ⟨lib.addressString erc20Address, denom, true, contractOwner⟩

def getIBCDenomAddress (denom : Denom) : Except Err Address :=
  match denom.toList with
  | 'i' :: 'b' :: 'c' :: '/' :: hash =>
    if hash = [] ∨ lib.trimSpace (String.ofList hash) = "" then
      .error (.wrapped .other ("coin " ++ denom ++
        " is not a valid IBC voucher hash: invalid denomination for cross-chain transfer"))
    else
      -- `ParseHexHash`: a hash of the tree, or none
      match Hex.decodeString hash with
      | (_, false) =>
        .error (.wrapped .other "encoding/hex: invalid byte: invalid denomination for cross-chain transfer")
      | (bytes, true) =>
        if bytes.length ≠ 0 ∧ bytes.length ≠ 32 then
          .error (.wrapped .other ("expected size to be 32 bytes, got " ++ bytes.length.repr ++
            " bytes: invalid denomination for cross-chain transfer"))
        else .ok (bytesToAddress bytes)
  | _ =>
    .error (.wrapped .other ("coin " ++ denom ++
      " does not have 'ibc/' prefix: invalid denomination for cross-chain transfer"))

def createCoinMetadata (contract : Address) (queryERC20 : Except Err ERC20Data) :
    Except Err (Metadata × Store) := do
  let strContract := lib.addressString contract
  let base := "erc20:" ++ strContract
  let erc20Data ← queryERC20
  if (store.denomMetadata.lookup base).isSome then
    .error (.wrapped .other
      "denom metadata already registered: internal ethereum token mapping error")
  else if store.isDenomRegistered base then
    .error (.wrapped .other ("coin denomination already registered: " ++ erc20Data.name ++
      ": internal ethereum token mapping error"))
  else
    let nameSanitized := lib.sanitizeERC20Name erc20Data.name
    let metadata : Metadata := {
      description := "Cosmos coin token representation of " ++ strContract
      base
      denomUnits := ⟨base, 0⟩ :: if 0 < erc20Data.decimals then [⟨nameSanitized, erc20Data.decimals⟩] else []
      name := base
      symbol := erc20Data.symbol
      display := if 0 < erc20Data.decimals then nameSanitized else base }
    (lib.validateMetadata metadata).mapError
      (Err.wrap ("ERC20 token data is invalid for contract " ++ strContract))
    .ok (metadata, { store with denomMetadata := store.denomMetadata.insert base metadata })

def registerERC20 (contract : Address) (queryERC20 : Except Err ERC20Data) :
    Except Err StoredPair × Store :=
  if store.isERC20Registered contract then
    (.error (.wrapped .other ("token ERC20 contract already registered: " ++ lib.addressString contract ++
      ": token pair already exists")), store)
  else
    match lib.createCoinMetadata store contract queryERC20 with
    | .error err => (.error (err.wrap "failed to create wrapped coin denom metadata for ERC20"), store)
    | .ok (metadata, store) =>
      let pair := lib.newTokenPair contract metadata.name .external
      match lib.setToken store pair with
      | .error err => (.error err, store)
      | .ok store => (.ok pair, store)

/-- `CreateNewTokenPair`, where the account of the address is a contract or is not. -/
def createNewTokenPair (denom : Denom) (isContract : Address → Bool) :
    Except Err (StoredPair × Store) := do
  let address ← lib.getIBCDenomAddress denom
  let pair := lib.newTokenPair address denom .module
  if isContract pair.getERC20Contract then
    .error (.wrapped .other
      ("token already exists for token " ++ pair.erc20Address ++ ": token pair already exists"))
  else
    let store ← lib.setToken store pair
    .ok (pair, store)

def registerERC20Extension (denom : Denom) (isContract : Address → Bool)
    (registerERC20CodeHash : Address → Except Err Unit) : Except Err StoredPair × Store :=
  match lib.createNewTokenPair store denom isContract with
  | .error err => (.error err, store)
  | .ok (pair, store) =>
    match store.enableDynamicPrecompile pair.getERC20Contract
        (registerERC20CodeHash pair.getERC20Contract) with
    | .error err => (.error err, store)
    | .ok store => (.ok pair, store)

def toggleConversion (token : String) : Except Err (StoredPair × Store) :=
  match store.getTokenPairID token with
  | none => .error (.wrapped .other
      ("token '" ++ token ++ "' not registered by id: token pair not found"))
  | some id =>
    match store.getTokenPair (some id) with
    | none => .error (.wrapped .other ("token '" ++ token ++ "' not registered: token pair not found"))
    | some pair =>
      let pair := { pair with enabled := !pair.enabled }
      .ok (pair, lib.setTokenPair store pair)

/-- The loop of `InitGenesis` over the pairs, and that it came to the end. -/
def setTokens : Store → List StoredPair → Store × Bool
  | store, [] => (store, true)
  | store, pair :: pairs =>
    match lib.setToken store pair with
    | .error _ => (store, false)
    | .ok store => setTokens store pairs

def setAllowances : Store → List Allowance → Except Err Store
  | store, [] => .ok store
  | store, allowance :: allowances =>
    match lib.setAllowance store (hexToAddress allowance.erc20Address) (hexToAddress allowance.owner)
        (hexToAddress allowance.spender) allowance.value true with
    | .error err => .error (.panicked ("error setting allowance " ++ err.text))
    | .ok store => setAllowances store allowances

def enablePrecompiles (enable : Store → Address → Except Err Store) (kind : String) :
    Store → List String → Except Err Store
  | store, [] => .ok store
  | store, precompile :: precompiles =>
    match enable store (hexToAddress precompile) with
    | .error err => .error (.panicked ("error registering " ++ kind ++ " precompiles " ++ err.text))
    | .ok store => enablePrecompiles enable kind store precompiles

def initGenesis (data : GenesisState) (moduleAccount : Bool)
    (registerERC20CodeHash : Address → Except Err Unit) : Except Err Store :=
  let store := { store with
    enableErc20 := data.enableErc20
    permissionlessRegistration := data.permissionlessRegistration }
  if moduleAccount = false then .error (.panicked "the erc20 module account has not been set")
  else
    match lib.setTokens store data.tokenPairs with
    | (store, false) => .ok store
    | (store, true) => do
      let store ← enablePrecompiles
        (fun store address => store.enableNativePrecompile address (registerERC20CodeHash address))
        "native" store data.nativePrecompiles
      let store ← enablePrecompiles
        (fun store address => store.enableDynamicPrecompile address (registerERC20CodeHash address))
        "dynamic" store data.dynamicPrecompiles
      lib.setAllowances store data.allowances

end Libraries

end CosmosEvm.Erc20
