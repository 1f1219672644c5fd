import CosmosEvm.Lib.Result
import CosmosEvm.Sdk.Hex
import CosmosEvm.Sdk.Keepers

namespace CosmosEvm.Vm

open Result

/-- `AccessType`. An enumeration of the wire format can have any number. -/
inductive AccessType where
  | permissionless
  | restricted
  | permissioned
  | unknown (value : ℤ)
deriving DecidableEq

structure AccessControlType where
  accessType : AccessType
  accessControlList : List String

structure AccessControl where
  create : AccessControlType
  call : AccessControlType

structure Params where
  extraEIPs : List ℤ
  activeStaticPrecompiles : List String
  evmChannels : List String
  accessControl : AccessControl

def validateAddress (address : String) : Except Err Unit :=
  ensure (isHexAddress address = true)
    (.wrapped .other s!"address '{address}' is not a valid ethereum hex address")

def validateAccessType : AccessType → Except Err Unit
  | .unknown value => .error (.wrapped .other s!"invalid access type: {value}")
  | _ => .ok ()

def validateAllowlistAddresses : List String → Except Err Unit
  | [] => .ok ()
  | address :: rest => do
    (validateAddress address).mapError fun _ => .wrapped .other s!"invalid whitelist address: {address}"
    validateAllowlistAddresses rest

def AccessControlType.validate (act : AccessControlType) : Except Err Unit := do
  validateAccessType act.accessType
  validateAllowlistAddresses act.accessControlList

def AccessControl.validate (ac : AccessControl) : Except Err Unit := do
  ac.create.validate
  ac.call.validate

def validateEIPs (validEip : ℤ → Bool) (unique : List ℤ) : List ℤ → Except Err Unit
  | [] => .ok ()
  | eip :: rest => do
    ensure (validEip eip = true) (.wrapped .other s!"EIP {eip} is not activateable")
    ensure (eip ∉ unique) (.wrapped .other s!"found duplicate EIP: {eip}")
    validateEIPs validEip (eip :: unique) rest

/-- The loop of `ValidatePrecompiles`, with the entries seen so far. -/
def checkPrecompiles (seen : List String) : List String → Except Err Unit
  | [] => .ok ()
  | precompile :: rest => do
    ensure (precompile ∉ seen) (.wrapped .other s!"duplicate precompile {precompile}")
    (validateAddress precompile).mapError fun _ => .wrapped .other s!"invalid precompile {precompile}"
    checkPrecompiles (precompile :: seen) rest

def validatePrecompiles (precompiles : List String) : Except Err Unit := do
  checkPrecompiles [] precompiles
  let text := String.intercalate " " precompiles
  ensure (precompiles.IsChain fun left right => ¬ right < left)
    (.wrapped .other s!"precompiles need to be sorted: [{text}]")

def validateChannels (channelIdentifierValidator : String → Except Err Unit) : List String → Except Err Unit
  | [] => .ok ()
  | channel :: rest => do
    channelIdentifierValidator channel
    validateChannels channelIdentifierValidator rest

def Params.validate (validEip : ℤ → Bool) (channelIdentifierValidator : String → Except Err Unit)
    (p : Params) : Except Err Unit := do
  validateEIPs validEip [] p.extraEIPs
  validatePrecompiles p.activeStaticPrecompiles
  p.accessControl.validate
  validateChannels channelIdentifierValidator p.evmChannels

variable (keccak256 : Bytes → Hash)

def permissionlessCheckFn (addresses : List String) (signer caller : Address) : Bool :=
  !addresses.contains (addressHex keccak256 signer) && !addresses.contains (addressHex keccak256 caller)

def permissionedCheckFn (addresses : List String) (signer caller : Address) : Bool :=
  addresses.contains (addressHex keccak256 signer) || addresses.contains (addressHex keccak256 caller)

def checkFn (act : AccessControlType) (signer caller : Address) : Bool :=
  match act.accessType with
  | .permissionless => permissionlessCheckFn keccak256 act.accessControlList signer caller
  | .restricted => false
  | .permissioned => permissionedCheckFn keccak256 act.accessControlList signer caller
  | .unknown _ => false

def getCanCreateFn (ac : AccessControl) (signer : Address) : Address → Bool := checkFn keccak256 ac.create signer

def getCanCallFn (ac : AccessControl) (signer : Address) : Address → Bool := checkFn keccak256 ac.call signer

def canCreate (ac : AccessControl) (signer caller : Address) : Bool := getCanCreateFn keccak256 ac signer caller

/-- `CanCall`, of the policy made for a signer. The recipient does not matter. -/
def canCall (ac : AccessControl) (signer caller _recipient : Address) : Bool :=
  getCanCallFn keccak256 ac signer caller

/-- `IsAvailableStaticPrecompile`, with `vm.PrecompiledAddressesPrague`, which cannot be disabled. -/
def isAvailableStaticPrecompile (prague : List Address) (p : Params) (address : Address) : Bool :=
  p.activeStaticPrecompiles.contains (addressHex keccak256 address) || prague.contains address

def listed (texts : List String) : List Address := texts.map hexToAddress

def AccessControlType.Allows (act : AccessControlType) (signer caller : Address) : Prop :=
  match act.accessType with
  | .permissionless => signer ∉ listed act.accessControlList ∧ caller ∉ listed act.accessControlList
  | .restricted => False
  | .permissioned => signer ∈ listed act.accessControlList ∨ caller ∈ listed act.accessControlList
  | .unknown _ => False

structure ByAddress (prague : List Address) (p : Params) : Prop where
  create : ∀ signer caller, canCreate keccak256 p.accessControl signer caller = true ↔
    p.accessControl.create.Allows signer caller
  call : ∀ signer caller recipient, canCall keccak256 p.accessControl signer caller recipient = true ↔
    p.accessControl.call.Allows signer caller
  available : ∀ address, isAvailableStaticPrecompile keccak256 prague p address = true ↔
    address ∈ listed p.activeStaticPrecompiles ∨ address ∈ prague
  unique : (listed p.activeStaticPrecompiles).Nodup

def Checksummed (texts : List String) : Prop := ∀ text ∈ texts, addressHex keccak256 (hexToAddress text) ∈ texts

structure PrecompilesSpelled (prague : List Address) (texts : List String) : Prop where
  spelled : ∀ text ∈ texts, text = addressHex keccak256 (hexToAddress text) ∨ hexToAddress text ∈ prague
  once : ∀ left ∈ texts, ∀ right ∈ texts, hexToAddress left ∈ prague →
    hexToAddress left = hexToAddress right → left = right

variable {keccak256} {texts : List String} {address : Address} {act : AccessControlType} {prague : List Address}
  {p : Params}

theorem mem_listed_of_contains (hcontains : texts.contains (addressHex keccak256 address) = true) :
    address ∈ listed texts := by
  rw [List.contains_iff_mem] at hcontains
  exact List.mem_map.2 ⟨_, hcontains, hexToAddress_addressHex keccak256 address⟩

theorem contains_iff_mem_listed_iff_checksummed :
    (∀ address, texts.contains (addressHex keccak256 address) = true ↔ address ∈ listed texts) ↔
      Checksummed keccak256 texts := by
  constructor
  · intro hiff text htext
    rw [← List.contains_iff_mem, hiff]
    exact List.mem_map_of_mem htext
  · intro hchecksummed address
    refine ⟨mem_listed_of_contains, ?_⟩
    intro hmem
    obtain ⟨text, htext, rfl⟩ := List.mem_map.mp hmem
    exact List.contains_iff_mem.2 (hchecksummed text htext)

theorem checkFn_byAddress_iff (hvalid : act.validate = .ok ()) :
    (∀ signer caller, checkFn keccak256 act signer caller = true ↔ act.Allows signer caller) ↔
      (act.accessType ≠ .restricted → Checksummed keccak256 act.accessControlList) := by
  rw [← contains_iff_mem_listed_iff_checksummed]
  cases htype : act.accessType with
  | permissionless =>
    simp only [checkFn, AccessControlType.Allows, htype, permissionlessCheckFn, Bool.and_eq_true,
      Bool.not_eq_true', ne_eq, reduceCtorEq, not_false_eq_true, forall_const]
    constructor
    · intro hiff address
      have hself := hiff address address
      rw [and_self, and_self, ← Bool.not_eq_true] at hself
      exact not_iff_not.1 hself
    · intro hiff signer caller
      rw [← Bool.not_eq_true, ← Bool.not_eq_true, hiff, hiff]
  | restricted => simp [checkFn, AccessControlType.Allows, htype]
  | permissioned =>
    simp only [checkFn, AccessControlType.Allows, htype, permissionedCheckFn, Bool.or_eq_true, ne_eq,
      reduceCtorEq, not_false_eq_true, forall_const]
    constructor
    · intro hiff address
      have hself := hiff address address
      rwa [or_self, or_self] at hself
    · intro hiff signer caller
      rw [hiff, hiff]
  | unknown value =>
    simp only [AccessControlType.validate, htype, validateAccessType, seq_eq_ok_iff] at hvalid
    exact nomatch hvalid.1

theorem nodup_of_checkPrecompiles {seen : List String} (hok : checkPrecompiles seen texts = .ok ()) :
    texts.Nodup ∧ ∀ text ∈ texts, text ∉ seen := by
  induction texts generalizing seen with
  | nil => exact ⟨List.nodup_nil, fun _ hmem => absurd hmem List.not_mem_nil⟩
  | cons text texts ih =>
    simp only [checkPrecompiles, seq_eq_ok_iff, ensure_eq_ok_iff] at hok
    obtain ⟨hfresh, -, hrest⟩ := hok
    obtain ⟨hnodup, hunseen⟩ := ih hrest
    constructor
    · refine List.nodup_cons.2 ⟨?_, hnodup⟩
      intro hmem
      exact hunseen text hmem List.mem_cons_self
    · intro other hmem
      rcases List.mem_cons.mp hmem with rfl | hmem
      · exact hfresh
      · exact fun hseen => hunseen other hmem (List.mem_cons_of_mem text hseen)

/-- An address is looked up under its checksummed text, so that other spellings are missed. -/
theorem available_unique_iff_spelled (hnodup : p.activeStaticPrecompiles.Nodup) :
    ((∀ address, isAvailableStaticPrecompile keccak256 prague p address = true ↔
        address ∈ listed p.activeStaticPrecompiles ∨ address ∈ prague) ∧
      (listed p.activeStaticPrecompiles).Nodup) ↔
        PrecompilesSpelled keccak256 prague p.activeStaticPrecompiles := by
  constructor
  · rintro ⟨havailable, hunique⟩
    have hinj := List.inj_on_of_nodup_map hunique
    refine ⟨?_, fun left hleft right hright _ heq => hinj hleft hright heq⟩
    intro text htext
    have hfound := (havailable (hexToAddress text)).2 (.inl (List.mem_map_of_mem htext))
    rw [isAvailableStaticPrecompile, Bool.or_eq_true, List.contains_iff_mem, List.contains_iff_mem] at hfound
    exact hfound.imp_left fun hmem =>
      hinj htext hmem (hexToAddress_addressHex keccak256 (hexToAddress text)).symm
  · rintro ⟨hspelled, honce⟩
    constructor
    · intro address
      have hbuiltin : prague.contains address = true ↔ address ∈ prague := List.contains_iff_mem
      rw [isAvailableStaticPrecompile, Bool.or_eq_true, hbuiltin]
      constructor
      · exact fun hfound => hfound.imp_left mem_listed_of_contains
      · rintro (hmem | hprague)
        · obtain ⟨text, htext, rfl⟩ := List.mem_map.mp hmem
          refine (hspelled text htext).imp_left fun heq => ?_
          rw [← heq]
          exact List.contains_iff_mem.2 htext
        · exact .inr hprague
    · refine List.Nodup.map_on ?_ hnodup
      intro left hleft right hright heq
      rcases hspelled left hleft with hchecksum | hprague
      · rcases hspelled right hright with hchecksum' | hprague'
        · rw [hchecksum, hchecksum', heq]
        · exact (honce right hright left hleft hprague' heq.symm).symm
      · exact honce left hleft right hright hprague heq

theorem validate_spec {validEip : ℤ → Bool} {channelIdentifierValidator : String → Except Err Unit}
    (hvalid : p.validate validEip channelIdentifierValidator = .ok ()) :
    p.activeStaticPrecompiles.Nodup ∧ p.accessControl.create.validate = .ok () ∧
      p.accessControl.call.validate = .ok () := by
  simp only [Params.validate, validatePrecompiles, AccessControl.validate, seq_eq_ok_iff] at hvalid
  obtain ⟨-, ⟨hprecompiles, -⟩, ⟨hcreate, hcall⟩, -⟩ := hvalid
  exact ⟨(nodup_of_checkPrecompiles hprecompiles).1, hcreate, hcall⟩

/-- The hash of the digits of the address `0x1e0DE5DB1a39F99cBc67B00fA3415181b3509e42`. -/
def aliceKeccak256 (text : Bytes) : Hash :=
  if text = "1e0de5db1a39f99cbc67b00fa3415181b3509e42".toList.map fun c => lowByte c.toNat then
    bytesToHash [119, 233, 207, 219, 115, 156, 247, 96, 133, 4, 165, 0, 166, 222, 255, 143, 91, 112, 4, 178,
      184, 20, 242, 82, 237, 119, 144, 248, 95, 172, 148, 93]
  else bytesToHash []

def blockingParams (texts : List String) : Params where
  extraEIPs := []
  activeStaticPrecompiles := ["0x0000000000000000000000000000000000000800"]
  evmChannels := []
  accessControl := ⟨⟨.permissionless, texts⟩, ⟨.permissionless, texts⟩⟩

/-- Valid parameters go by address exactly where their lists are spelled with checksums. -/
theorem byAddress_iff_spelled (keccak256 : Bytes → Hash) (validEip : ℤ → Bool)
    (channelIdentifierValidator : String → Except Err Unit) (prague : List Address) (p : Params)
    (hvalid : p.validate validEip channelIdentifierValidator = .ok ()) :
    ByAddress keccak256 prague p ↔
      (p.accessControl.create.accessType ≠ .restricted →
        Checksummed keccak256 p.accessControl.create.accessControlList) ∧
      (p.accessControl.call.accessType ≠ .restricted →
        Checksummed keccak256 p.accessControl.call.accessControlList) ∧
      PrecompilesSpelled keccak256 prague p.activeStaticPrecompiles := by
  obtain ⟨hnodup, hcreate, hcall⟩ := validate_spec hvalid
  rw [← checkFn_byAddress_iff hcreate, ← checkFn_byAddress_iff hcall, ← available_unique_iff_spelled hnodup]
  constructor
  · intro hby
    exact ⟨hby.create, fun signer caller => hby.call signer caller signer, hby.available, hby.unique⟩
  · rintro ⟨hcreate, hcall, havailable, hunique⟩
    exact ⟨hcreate, fun signer caller _ => hcall signer caller, havailable, hunique⟩

theorem byAddress_checksummed :
    (blockingParams ["0x1e0DE5DB1a39F99cBc67B00fA3415181b3509e42"]).validate (fun _ => true) (fun _ => .ok ()) =
        .ok () ∧
      ByAddress aliceKeccak256 [bytesToAddress [1]]
        (blockingParams ["0x1e0DE5DB1a39F99cBc67B00fA3415181b3509e42"]) := by
  have hvalid : (blockingParams ["0x1e0DE5DB1a39F99cBc67B00fA3415181b3509e42"]).validate (fun _ => true)
      (fun _ => .ok ()) = .ok () := by
    decide +kernel
  have hchecksummed : ∀ text ∈ ["0x1e0DE5DB1a39F99cBc67B00fA3415181b3509e42"],
      addressHex aliceKeccak256 (hexToAddress text) ∈ ["0x1e0DE5DB1a39F99cBc67B00fA3415181b3509e42"] := by
    decide +kernel
  have hspelled : ∀ text ∈ ["0x0000000000000000000000000000000000000800"],
      text = addressHex aliceKeccak256 (hexToAddress text) ∨ hexToAddress text ∈ [bytesToAddress [1]] := by
    decide +kernel
  have honce : ∀ left ∈ ["0x0000000000000000000000000000000000000800"],
      ∀ right ∈ ["0x0000000000000000000000000000000000000800"], left = right := by
    decide
  refine ⟨hvalid, (byAddress_iff_spelled _ _ _ _ _ hvalid).2
    ⟨fun _ => hchecksummed, fun _ => hchecksummed, hspelled, ?_⟩⟩
  exact fun left hleft right hright _ _ => honce left hleft right hright

/-- The entry in lower case is valid and stands for the address, which may call and create all the same. -/
theorem blocked_address_calls :
    (blockingParams ["0x1e0de5db1a39f99cbc67b00fa3415181b3509e42"]).validate (fun _ => true) (fun _ => .ok ()) =
        .ok () ∧
      hexToAddress "0x1e0de5db1a39f99cbc67b00fa3415181b3509e42" =
        hexToAddress "0x1e0DE5DB1a39F99cBc67B00fA3415181b3509e42" ∧
      canCall aliceKeccak256 (blockingParams ["0x1e0de5db1a39f99cbc67b00fa3415181b3509e42"]).accessControl
        (hexToAddress "0x1e0de5db1a39f99cbc67b00fa3415181b3509e42")
        (hexToAddress "0x1e0de5db1a39f99cbc67b00fa3415181b3509e42") (bytesToAddress [7]) = true ∧
      canCreate aliceKeccak256 (blockingParams ["0x1e0de5db1a39f99cbc67b00fa3415181b3509e42"]).accessControl
        (hexToAddress "0x1e0de5db1a39f99cbc67b00fa3415181b3509e42")
        (hexToAddress "0x1e0de5db1a39f99cbc67b00fa3415181b3509e42") = true := by
  decide +kernel

end CosmosEvm.Vm
