import CosmosEvm.Vm.Message
import Mathlib.Data.UInt

namespace CosmosEvm.Rpc

abbrev AccessList := List (Address × List Hash)

inductive Touch where
  | account (address : Address)
  | slot (address : Address) (key : Hash)
deriving DecidableEq

def Touch.address : Touch → Address
  | .account address => address
  | .slot address _ => address

def Listed (accessList : AccessList) : Touch → Prop
  | .account address => ∃ tuple ∈ accessList, tuple.1 = address
  | .slot address key => ∃ tuple ∈ accessList, tuple.1 = address ∧ key ∈ tuple.2

instance (accessList : AccessList) : DecidablePred (Listed accessList)
  | .account address => inferInstanceAs (Decidable (∃ tuple ∈ accessList, tuple.1 = address))
  | .slot address key =>
    inferInstanceAs (Decidable (∃ tuple ∈ accessList, tuple.1 = address ∧ key ∈ tuple.2))

structure TracerApi (T : Type) where
  newAccessListTracer : AccessList → List Address → T
  accessList : T → AccessList
  equal : T → T → Bool

structure TracerApi.Lawful {T : Type} (api : TracerApi T) : Prop where
  listed_slot : ∀ accessList excluded address key,
    Listed (api.accessList (api.newAccessListTracer accessList excluded)) (.slot address key) ↔
      Listed accessList (.slot address key)
  listed_account : ∀ accessList excluded address,
    Listed (api.accessList (api.newAccessListTracer accessList excluded)) (.account address) ↔
      (address ∉ excluded ∧ Listed accessList (.account address)) ∨
        ∃ key, Listed accessList (.slot address key)
  equal_iff : ∀ tracer tracer', api.equal tracer tracer' = true ↔
    ∀ touch, Listed (api.accessList tracer) touch ↔ Listed (api.accessList tracer') touch

structure TransactionArgs where
  sender : Option Address
  recipient : Option Address
  gas : Option UInt64
  gasPrice : Option ℤ
  maxFeePerGas : Option ℤ
  maxPriorityFeePerGas : Option ℤ
  value : Option ℤ
  nonce : Option UInt64
  data : Option Bytes
  input : Option Bytes
  accessList : Option AccessList
  chainID : Option ℤ
  blobFeeCap : Option ℤ
  blobHashes : Option (List Hash)
  authorizationList : List Vm.SetCodeAuthorization

def TransactionArgs.getFrom (args : TransactionArgs) : Address := args.sender.getD (bytesToAddress [])

structure Header where
  number : ℤ
  time : ℕ
  baseFee : Option ℤ

structure CallResponse where
  vmError : String
  ret : Bytes
  gasUsed : UInt64
  touched : List Touch

structure Backend (N T : Type) where
  tracers : TracerApi T
  currentHeader : Option Header
  headerByNumber : ℤ → Except Err Header
  blockNumberFromComet : N → Except Err ℤ
  suggestGasTipCap : Option ℤ → Except Err ℤ
  getAccountNonce : Address → Bool → ℤ → Except Err UInt64
  estimateGas : TransactionArgs → Except Err UInt64
  evmChainID : ℤ
  rpcGasCap : UInt64
  activePrecompiles : Header → List Address
  authority : Vm.SetCodeAuthorization → Except Err Address
  txHash : TransactionArgs → String
  execErrorWithReason : Bytes → Err
  ethCall : TransactionArgs → ℤ → Except Err CallResponse

def failed {α : Type} (text : String) : Except Err α := .error (.wrapped .other text)

def hexText (n : ℤ) : String :=
  (if n < 0 then "-0x" else "0x") ++ String.ofList (Nat.toDigits 16 n.natAbs)

namespace TransactionArgs

def mixesFees (args : TransactionArgs) : Bool :=
  args.gasPrice.isSome && (args.maxFeePerGas.isSome || args.maxPriorityFeePerGas.isSome)

def callDefaults (globalGasCap : UInt64) (baseFee : Option ℤ) (chainID : ℤ) (args : TransactionArgs) :
    Except Err TransactionArgs :=
  if args.mixesFees then failed "both gasPrice and (maxFeePerGas or maxPriorityFeePerGas) specified"
  else if args.chainID.getD chainID ≠ chainID then
    failed ("chainId does not match node's (have=" ++ toString (args.chainID.getD chainID) ++
      ", want=" ++ toString chainID ++ ")")
  else
    let gas := match args.gas with
      | none => if globalGasCap = 0 then (2 ^ 64 - 1) / 2 else globalGasCap
      | some gas => if 0 < globalGasCap ∧ globalGasCap < gas then globalGasCap else gas
    let args := { args with
      chainID := some chainID
      gas := some gas
      nonce := some (args.nonce.getD 0)
      value := some (args.value.getD 0)
      blobFeeCap := if args.blobFeeCap.isNone && args.blobHashes.isSome then some 0 else args.blobFeeCap }
    match baseFee with
    | none => .ok { args with gasPrice := some (args.gasPrice.getD 0) }
    | some _ => .ok { args with
        maxFeePerGas := some (args.maxFeePerGas.getD 0)
        maxPriorityFeePerGas := some (args.maxPriorityFeePerGas.getD 0) }

end TransactionArgs

def checkFeeCap (maxFee tip : ℤ) : Except Err Unit :=
  if maxFee < tip then
    failed ("maxFeePerGas (" ++ hexText maxFee ++ ") < maxPriorityFeePerGas (" ++ hexText tip ++ ")")
  else .ok ()

namespace Backend

variable {N T : Type} (b : Backend N T)

def tipOrSuggested (baseFee : Option ℤ) : Option ℤ → Except Err ℤ
  | some tip => .ok tip
  | none => b.suggestGasTipCap baseFee

def setFees (head : Header) (args : TransactionArgs) : Except Err TransactionArgs :=
  match args.maxPriorityFeePerGas, args.maxFeePerGas with
  | some tip, some maxFee => do
    checkFeeCap maxFee tip
    .ok args
  | tip, maxFee =>
    match head.baseFee, args.gasPrice with
    | some baseFee, none => do
      let tip ← b.tipOrSuggested head.baseFee tip
      let maxFee := maxFee.getD (tip + baseFee * 2)
      checkFeeCap maxFee tip
      .ok { args with maxPriorityFeePerGas := some tip, maxFeePerGas := some maxFee }
    | baseFee, gasPrice =>
      if maxFee.isSome || tip.isSome then
        failed "maxFeePerGas or maxPriorityFeePerGas specified but london is not active yet"
      else
        match gasPrice with
        | some _ => .ok args
        | none => do
          let price ← b.suggestGasTipCap baseFee
          .ok { args with gasPrice := some (price + baseFee.getD 0) }

variable (args : TransactionArgs)

/-- The nonce in `SetTxDefaults`, where an error counts as zero. -/
def setNonce : Except Err TransactionArgs :=
  match args.nonce, args.sender with
  | some _, _ => .ok args
  | none, none => .error (.panicked "invalid memory address or nil pointer dereference")
  | none, some sender =>
    .ok { args with nonce := some ((b.getAccountNonce sender true 0).toOption.getD 0) }

def checkInput : Except Err Unit := do
  if args.data.isSome && args.input.isSome && args.data != args.input then
    failed ("both 'data' and 'input' are set and not equal. Please use 'input' to pass " ++
      "transaction call data")
  else if args.recipient.isNone && ((args.data.or args.input).getD []).isEmpty then
    failed "contract creation without any data provided"
  else .ok ()

def setGas : Except Err TransactionArgs :=
  match args.gas with
  | some _ => .ok args
  | none => do
    let estimated ← b.estimateGas
      { args with
        data := args.input.or args.data
        input := none
        blobFeeCap := none
        blobHashes := none
        authorizationList := [] }
    .ok { args with gas := some estimated }

def setTxDefaults : Except Err TransactionArgs :=
  if args.mixesFees then failed "both gasPrice and (maxFeePerGas or maxPriorityFeePerGas) specified"
  else
    match b.currentHeader with
    | none => failed "latest header is nil"
    | some head => do
      let args ← b.setFees head args
      let args ← b.setNonce { args with value := some (args.value.getD 0) }
      checkInput args
      let args ← b.setGas args
      .ok { args with chainID := some (args.chainID.getD b.evmChainID) }

def handleRevertError (vmError : String) (ret : Bytes) : Except Err Unit :=
  if vmError = "" then .ok ()
  else if vmError ≠ "execution reverted" then failed vmError
  else if ret.isEmpty then failed vmError
  else .error (b.execErrorWithReason ret)

def doCall (blockNum : ℤ) : Except Err CallResponse := do
  let res ← b.ethCall args blockNum
  b.handleRevertError res.vmError res.ret
  .ok res

def authorities (authorizations : List Vm.SetCodeAuthorization) : List Address :=
  authorizations.filterMap fun auth =>
    if auth.nonce + 1 < auth.nonce ∨ (auth.chainID ≠ 0 ∧ (auth.chainID.toNat : ℤ) ≠ b.evmChainID) then none
    else (b.authority auth).toOption

def getAccessListExcludes (blockNum : ℤ) : Except Err (List Address) := do
  let header ← b.headerByNumber blockNum
  match args.gas with
  | none => .error (.panicked "invalid memory address or nil pointer dereference")
  | some gas =>
    if gas.toNat / 25000 < args.authorizationList.length then
      failed "insufficient gas to process all authorizations"
    else
      .ok (args.getFrom :: args.recipient.toList ++ b.activePrecompiles header ++
        b.authorities args.authorizationList)

def nonceOrAccount (blockNum : ℤ) : Except Err UInt64 :=
  match args.nonce with
  | some nonce => .ok nonce
  | none => b.getAccountNonce args.getFrom (blockNum = -2) blockNum

def initAccessListTracer (blockNum : ℤ) (excluded : List Address) :
    Except Err (T × TransactionArgs) := do
  let header ← b.headerByNumber blockNum
  let nonce ← b.nonceOrAccount args blockNum
  let args ← TransactionArgs.callDefaults b.rpcGasCap header.baseFee b.evmChainID
    { args with nonce := some nonce }
  .ok (b.tracers.newAccessListTracer (args.accessList.getD []) excluded, args)

structure Created where
  accessList : AccessList
  gasUsed : UInt64
  vmErr : Option String
  excluded : List Address
  touched : List Touch

/-- The loop of `createAccessList`, `none` while it has not ended after that many rounds. -/
def expand (traceArgs : TransactionArgs) (blockNum : ℤ) (excluded : List Address) :
    ℕ → T → Option (Except Err Created)
  | 0, _ => none
  | rounds + 1, prevTracer =>
    let accessList := b.tracers.accessList prevTracer
    let traceArgs := { traceArgs with accessList := some accessList }
    match b.doCall traceArgs blockNum with
    | .error err =>
      some (.error (err.wrap ("failed to apply transaction: " ++ b.txHash traceArgs ++ " err")))
    | .ok res =>
      let newTracer := b.tracers.newAccessListTracer accessList excluded
      if b.tracers.equal newTracer prevTracer then
        some (.ok ⟨accessList, res.gasUsed, if res.vmError = "" then none else some res.vmError, excluded,
          res.touched⟩)
      else expand traceArgs blockNum excluded rounds newTracer

/-- What `createAccessList` does before its loop: the first tracer, the arguments, the block and the excluded
addresses. -/
def prepare (blockNrOrHash : N) : Except Err (T × TransactionArgs × ℤ × List Address) := do
  let args ← b.setTxDefaults args
  let blockNum ← b.blockNumberFromComet blockNrOrHash
  let excluded ← b.getAccessListExcludes args blockNum
  let (tracer, traceArgs) ← b.initAccessListTracer args blockNum excluded
  .ok (tracer, traceArgs, blockNum, excluded)

def createAccessList (rounds : ℕ) (args : TransactionArgs) (blockNrOrHash : N) :
    Option (Except Err Created) :=
  match b.prepare args blockNrOrHash with
  | .error err => some (.error err)
  | .ok (tracer, traceArgs, blockNum, excluded) => b.expand traceArgs blockNum excluded rounds tracer

variable {b : Backend N T} {args args' : TransactionArgs}

theorem accessList_of_setFees {head : Header} (hset : b.setFees head args = .ok args') :
    args'.accessList = args.accessList := by
  unfold setFees at hset
  split at hset
  · obtain ⟨_, -, hargs⟩ := Result.bind_eq_ok_iff.1 hset
    rw [← Except.ok.inj hargs]
  · split at hset
    · obtain ⟨tip, -, hrest⟩ := Result.bind_eq_ok_iff.1 hset
      obtain ⟨_, -, hargs⟩ := Result.bind_eq_ok_iff.1 hrest
      rw [← Except.ok.inj hargs]
    · split at hset
      · cases hset
      · split at hset
        · rw [← Except.ok.inj hset]
        · obtain ⟨price, -, hargs⟩ := Result.bind_eq_ok_iff.1 hset
          rw [← Except.ok.inj hargs]

theorem accessList_of_setNonce (hset : b.setNonce args = .ok args') :
    args'.accessList = args.accessList := by
  unfold setNonce at hset
  split at hset
  · rw [← Except.ok.inj hset]
  · cases hset
  · rw [← Except.ok.inj hset]

theorem accessList_of_setGas (hset : b.setGas args = .ok args') : args'.accessList = args.accessList := by
  unfold setGas at hset
  split at hset
  · rw [← Except.ok.inj hset]
  · obtain ⟨estimated, -, hargs⟩ := Result.bind_eq_ok_iff.1 hset
    rw [← Except.ok.inj hargs]

theorem accessList_of_setTxDefaults (hset : b.setTxDefaults args = .ok args') :
    args'.accessList = args.accessList := by
  unfold setTxDefaults at hset
  split at hset
  · cases hset
  split at hset
  · cases hset
  obtain ⟨args₁, hfees, hset⟩ := Result.bind_eq_ok_iff.1 hset
  obtain ⟨args₂, hnonce, hset⟩ := Result.bind_eq_ok_iff.1 hset
  obtain ⟨_, -, hset⟩ := Result.bind_eq_ok_iff.1 hset
  obtain ⟨args₃, hgas, hset⟩ := Result.bind_eq_ok_iff.1 hset
  have hkept := accessList_of_setNonce hnonce
  rw [← Except.ok.inj hset]
  calc args₃.accessList = args₂.accessList := accessList_of_setGas hgas
    _ = args₁.accessList := hkept
    _ = args.accessList := accessList_of_setFees hfees

theorem accessList_of_callDefaults {gasCap : UInt64} {baseFee : Option ℤ} {chainID : ℤ}
    (hset : args.callDefaults gasCap baseFee chainID = .ok args') : args'.accessList = args.accessList := by
  unfold TransactionArgs.callDefaults at hset
  split at hset
  · cases hset
  split at hset
  · cases hset
  cases baseFee with
  | none => rw [← Except.ok.inj hset]
  | some fee => rw [← Except.ok.inj hset]

theorem tracer_of_prepare {blockNrOrHash : N} {tracer : T} {blockNum : ℤ} {excluded : List Address}
    (hprepare : b.prepare args blockNrOrHash = .ok (tracer, args', blockNum, excluded)) :
    tracer = b.tracers.newAccessListTracer (args.accessList.getD []) excluded := by
  obtain ⟨args₁, hdefaults, hprepare⟩ := Result.bind_eq_ok_iff.1 hprepare
  obtain ⟨num, -, hprepare⟩ := Result.bind_eq_ok_iff.1 hprepare
  obtain ⟨excl, -, hprepare⟩ := Result.bind_eq_ok_iff.1 hprepare
  obtain ⟨⟨first, traceArgs⟩, hinit, hprepare⟩ := Result.bind_eq_ok_iff.1 hprepare
  obtain ⟨rfl, rfl, rfl, rfl⟩ : first = tracer ∧ traceArgs = args' ∧ num = blockNum ∧ excl = excluded := by
    simpa using hprepare
  obtain ⟨header, -, hinit⟩ := Result.bind_eq_ok_iff.1 hinit
  obtain ⟨nonce, -, hinit⟩ := Result.bind_eq_ok_iff.1 hinit
  obtain ⟨args₂, hcall, hinit⟩ := Result.bind_eq_ok_iff.1 hinit
  obtain ⟨rfl, rfl⟩ := Prod.mk.inj (Except.ok.inj hinit)
  rw [accessList_of_callDefaults hcall]
  dsimp only
  rw [accessList_of_setTxDefaults hdefaults]

variable (hlawful : b.tracers.Lawful)

include hlawful in
theorem equal_newAccessListTracer (accessList : AccessList) (excluded : List Address) :
    b.tracers.equal
      (b.tracers.newAccessListTracer
        (b.tracers.accessList (b.tracers.newAccessListTracer accessList excluded)) excluded)
      (b.tracers.newAccessListTracer accessList excluded) = true := by
  rw [hlawful.equal_iff]
  intro touch
  cases touch with
  | slot address key => rw [hlawful.listed_slot]
  | account address =>
    simp only [hlawful.listed_account, hlawful.listed_slot]
    tauto

include hlawful in
theorem expand_of_doCall_eq_ok {traceArgs : TransactionArgs} {blockNum : ℤ} {excluded : List Address}
    {accessList : AccessList} {res : CallResponse} (rounds : ℕ)
    (hcall : b.doCall { traceArgs with accessList := some (b.tracers.accessList
      (b.tracers.newAccessListTracer accessList excluded)) } blockNum = .ok res) :
    b.expand traceArgs blockNum excluded (rounds + 1) (b.tracers.newAccessListTracer accessList excluded) =
      some (.ok ⟨b.tracers.accessList (b.tracers.newAccessListTracer accessList excluded), res.gasUsed,
        if res.vmError = "" then none else some res.vmError, excluded, res.touched⟩) := by
  rw [expand]
  dsimp only
  rw [hcall]
  dsimp only
  rw [equal_newAccessListTracer hlawful accessList excluded, if_pos rfl]

theorem expand_of_doCall_eq_error {traceArgs : TransactionArgs} {blockNum : ℤ} (excluded : List Address)
    {tracer : T} {err : Err} (rounds : ℕ)
    (hcall : b.doCall { traceArgs with accessList := some (b.tracers.accessList tracer) } blockNum =
      .error err) :
    ∃ err', b.expand traceArgs blockNum excluded (rounds + 1) tracer = some (.error err') := by
  rw [expand]
  dsimp only
  rw [hcall]
  exact ⟨_, rfl⟩

include hlawful in
theorem listed_newAccessListTracer (accessList : AccessList) {excluded : List Address} {touch : Touch}
    (hincluded : touch.address ∉ excluded) :
    Listed (b.tracers.accessList (b.tracers.newAccessListTracer accessList excluded)) touch ↔
      Listed accessList touch := by
  cases touch with
  | slot address key => exact hlawful.listed_slot accessList excluded address key
  | account address =>
    rw [hlawful.listed_account]
    constructor
    · rintro (⟨-, hlisted⟩ | ⟨key, tuple, hmem, haddress, -⟩)
      · exact hlisted
      · exact ⟨tuple, hmem, haddress⟩
    · intro hlisted
      exact .inl ⟨hincluded, hlisted⟩

def tracedCall (b : Backend N T) (args : TransactionArgs) (blockNrOrHash : N) :
    Except Err (CallResponse × List Address) := do
  let (tracer, traceArgs, blockNum, excluded) ← b.prepare args blockNrOrHash
  let res ← b.doCall { traceArgs with accessList := some (b.tracers.accessList tracer) } blockNum
  .ok (res, excluded)

include hlawful in
theorem createAccessList_succ (rounds : ℕ) (args : TransactionArgs) (blockNrOrHash : N) :
    (∃ err err', b.tracedCall args blockNrOrHash = .error err' ∧
      b.createAccessList (rounds + 1) args blockNrOrHash = some (.error err)) ∨
    ∃ res created, b.tracedCall args blockNrOrHash = .ok (res, created.excluded) ∧
      b.createAccessList (rounds + 1) args blockNrOrHash = some (.ok created) ∧
      created.touched = res.touched ∧
      ∀ touch, touch.address ∉ created.excluded →
        (Listed created.accessList touch ↔ Listed (args.accessList.getD []) touch) := by
  cases hprepare : b.prepare args blockNrOrHash with
  | error err =>
    refine .inl ⟨err, err, ?_, ?_⟩
    · simp [tracedCall, hprepare, bind, Except.bind]
    · simp [createAccessList, hprepare]
  | ok prepared =>
    obtain ⟨tracer, traceArgs, blockNum, excluded⟩ := prepared
    obtain rfl := tracer_of_prepare hprepare
    cases hcall : b.doCall { traceArgs with accessList := some (b.tracers.accessList
        (b.tracers.newAccessListTracer (args.accessList.getD []) excluded)) } blockNum with
    | error err =>
      obtain ⟨err', hexpand⟩ := expand_of_doCall_eq_error excluded rounds hcall
      refine .inl ⟨err', err, ?_, ?_⟩
      · simp [tracedCall, hprepare, hcall, bind, Except.bind]
      · rw [createAccessList, hprepare]
        exact hexpand
    | ok res =>
      have hexpand := expand_of_doCall_eq_ok hlawful rounds hcall
      refine .inr ⟨res, _, ?_, (by rw [createAccessList, hprepare]; exact hexpand), rfl, ?_⟩
      · simp [tracedCall, hprepare, hcall, bind, Except.bind]
      · intro touch hincluded
        exact listed_newAccessListTracer hlawful (args.accessList.getD []) hincluded

/-- The loop ends, and a list that is returned has all that the last call touched but the excluded
addresses. -/
def Complete (b : Backend N T) (args : TransactionArgs) (blockNrOrHash : N) : Prop :=
  ∃ bound, ∀ rounds ≥ bound, ∃ outcome, b.createAccessList rounds args blockNrOrHash = some outcome ∧
    ∀ created, outcome = .ok created → ∀ touch ∈ created.touched, touch.address ∉ created.excluded →
      Listed created.accessList touch

/-- The call touches nothing beyond the list of the caller and the excluded addresses. -/
def Covered (b : Backend N T) (args : TransactionArgs) (blockNrOrHash : N) : Prop :=
  ∀ res excluded, b.tracedCall args blockNrOrHash = .ok (res, excluded) →
    ∀ touch ∈ res.touched, touch.address ∉ excluded → Listed (args.accessList.getD []) touch

def touches (accessList : AccessList) : List Touch :=
  accessList.flatMap fun tuple => .account tuple.1 :: tuple.2.map (.slot tuple.1)

theorem mem_touches_iff {accessList : AccessList} {touch : Touch} :
    touch ∈ touches accessList ↔ Listed accessList touch := by
  unfold touches
  rw [List.mem_flatMap]
  cases touch with
  | account address =>
    apply exists_congr
    intro tuple
    simp [eq_comm]
  | slot address key =>
    apply exists_congr
    intro tuple
    simp only [List.mem_cons, reduceCtorEq, List.mem_map, Touch.slot.injEq, false_or]
    constructor
    · rintro ⟨hmem, key, hkey, haddress, rfl⟩
      exact ⟨hmem, haddress, hkey⟩
    · rintro ⟨hmem, haddress, hkey⟩
      exact ⟨hmem, key, hkey, haddress, rfl⟩

def listTracers : TracerApi AccessList where
  newAccessListTracer accessList excluded :=
    accessList.filter fun tuple => tuple.1 ∉ excluded ∨ tuple.2 ≠ []
  accessList tracer := tracer
  equal tracer tracer' :=
    (touches tracer).all (Listed tracer' ·) && (touches tracer').all (Listed tracer ·)

theorem listTracers_lawful : listTracers.Lawful where
  listed_slot accessList excluded address key := by
    simp only [listTracers, Listed, List.mem_filter, decide_eq_true_eq]
    constructor
    · rintro ⟨tuple, ⟨hmem, -⟩, haddress, hkey⟩
      exact ⟨tuple, hmem, haddress, hkey⟩
    · rintro ⟨tuple, hmem, haddress, hkey⟩
      exact ⟨tuple, ⟨hmem, .inr (List.ne_nil_of_mem hkey)⟩, haddress, hkey⟩
  listed_account accessList excluded address := by
    simp only [listTracers, Listed, List.mem_filter, decide_eq_true_eq]
    constructor
    · rintro ⟨tuple, ⟨hmem, hincluded | hkeys⟩, rfl⟩
      · exact .inl ⟨hincluded, tuple, hmem, rfl⟩
      · obtain ⟨key, hkey⟩ := List.exists_mem_of_ne_nil _ hkeys
        exact .inr ⟨key, tuple, hmem, rfl, hkey⟩
    · rintro (⟨hincluded, tuple, hmem, rfl⟩ | ⟨key, tuple, hmem, rfl, hkey⟩)
      · exact ⟨tuple, ⟨hmem, .inl hincluded⟩, rfl⟩
      · exact ⟨tuple, ⟨hmem, .inr (List.ne_nil_of_mem hkey)⟩, rfl⟩
  equal_iff tracer tracer' := by
    simp only [listTracers, Bool.and_eq_true, List.all_eq_true, mem_touches_iff, decide_eq_true_eq]
    constructor
    · rintro ⟨hleft, hright⟩ touch
      exact ⟨hleft touch, hright touch⟩
    · intro hsame
      exact ⟨fun touch => (hsame touch).1, fun touch => (hsame touch).2⟩

def sampleBackend (touched : List Touch) : Backend Unit AccessList where
  tracers := listTracers
  currentHeader := some ⟨1, 0, none⟩
  headerByNumber _ := .ok ⟨1, 0, none⟩
  blockNumberFromComet _ := .ok 1
  suggestGasTipCap _ := .ok 0
  getAccountNonce _ _ _ := .ok 0
  estimateGas _ := .ok 100000
  evmChainID := 9001
  rpcGasCap := 0
  activePrecompiles _ := []
  authority _ := failed "invalid signature"
  txHash _ := "0x"
  execErrorWithReason _ := .wrapped .other "execution reverted"
  ethCall _ _ := .ok ⟨"", [], 50000, touched⟩

def sampleArgs (accessList : Option AccessList) : TransactionArgs :=
  { sender := some (bytesToAddress [1]), recipient := some (bytesToAddress [2]), gas := none,
    gasPrice := none, maxFeePerGas := none, maxPriorityFeePerGas := none, value := none, nonce := none,
    data := none, input := none, accessList := accessList, chainID := none, blobFeeCap := none,
    blobHashes := none, authorizationList := [] }

def sampleTouch : Touch := .slot (bytesToAddress [3]) (FixedBytes.ofBytes 32 [7])

/-- The list is complete exactly when the caller's own list already is. -/
theorem complete_iff_covered (b : Backend N T) (hlawful : b.tracers.Lawful) (args : TransactionArgs)
    (blockNrOrHash : N) : Complete b args blockNrOrHash ↔ Covered b args blockNrOrHash := by
  constructor
  · rintro ⟨bound, hcomplete⟩ res excluded htraced touch htouch hincluded
    obtain ⟨outcome, houtcome, hlisted⟩ := hcomplete (bound + 1) (by omega)
    obtain ⟨err, err', herror, -⟩ | ⟨res', created, htraced', hcreated, htouched, hiff⟩ :=
      createAccessList_succ hlawful bound args blockNrOrHash
    · rw [herror] at htraced
      cases htraced
    · rw [hcreated] at houtcome
      obtain ⟨rfl, rfl⟩ : res' = res ∧ created.excluded = excluded := by
        simpa using htraced'.symm.trans htraced
      rw [← htouched] at htouch
      have hfound := hlisted created (Option.some.inj houtcome).symm touch htouch hincluded
      exact (hiff touch hincluded).1 hfound
  · intro hcovered
    refine ⟨1, ?_⟩
    intro rounds hrounds
    obtain ⟨rounds, rfl⟩ : ∃ n, rounds = n + 1 := ⟨rounds - 1, by omega⟩
    obtain ⟨err, -, -, herror⟩ | ⟨res, created, htraced, hcreated, htouched, hiff⟩ :=
      createAccessList_succ hlawful rounds args blockNrOrHash
    · refine ⟨_, herror, ?_⟩
      intro created hok
      cases hok
    · refine ⟨_, hcreated, ?_⟩
      intro created' hok touch htouch hincluded
      obtain rfl : created = created' := Except.ok.inj hok
      rw [htouched] at htouch
      exact (hiff touch hincluded).2 (hcovered res created.excluded htraced touch htouch hincluded)

theorem complete_of_own_list :
    Complete (sampleBackend [sampleTouch])
      (sampleArgs (some [(bytesToAddress [3], [FixedBytes.ofBytes 32 [7]])])) () := by
  refine (complete_iff_covered _ listTracers_lawful _ _).2 ?_
  rintro res excluded htraced touch htouch -
  obtain ⟨rfl, rfl⟩ := Prod.mk.inj (Except.ok.inj htraced)
  obtain rfl := List.mem_singleton.1 htouch
  decide +kernel

/-- The call reads a slot of another contract, and the list that is returned is empty. -/
theorem access_list_misses_slot :
    (∀ rounds, (sampleBackend [sampleTouch]).createAccessList (rounds + 1) (sampleArgs none) () =
      some (.ok ⟨[], 50000, none, [bytesToAddress [1], bytesToAddress [2]], [sampleTouch]⟩)) ∧
    ¬ Complete (sampleBackend [sampleTouch]) (sampleArgs none) () := by
  have hcreated : ∀ rounds, (sampleBackend [sampleTouch]).createAccessList (rounds + 1) (sampleArgs none) () =
      some (.ok ⟨[], 50000, none, [bytesToAddress [1], bytesToAddress [2]], [sampleTouch]⟩) := fun _ => rfl
  refine ⟨hcreated, ?_⟩
  rintro ⟨bound, hcomplete⟩
  obtain ⟨outcome, houtcome, hlisted⟩ := hcomplete (bound + 1) (by omega)
  rw [hcreated] at houtcome
  have hslot := hlisted _ (Option.some.inj houtcome).symm sampleTouch List.mem_cons_self (by decide +kernel)
  exact absurd hslot (by decide +kernel)

end Backend

end CosmosEvm.Rpc
