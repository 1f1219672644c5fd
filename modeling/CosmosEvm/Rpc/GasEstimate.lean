import CosmosEvm.Lib.Loop
import CosmosEvm.Rpc.AccessList

namespace CosmosEvm.Rpc

section Search

variable {R : Type} (executable : UInt64 → Except Err (Bool × Option R))

/-- One round of `BinSearch`. An execution says whether it failed. -/
def binSearchStep (range : UInt64 × UInt64) : Except Err UInt64 ⊕ UInt64 × UInt64 :=
  if range.1 + 1 < range.2 then
    let mid := (range.2 + range.1) / 2
    match executable mid with
    | .error err => .inl (.error err)
    | .ok (failed, _) => if failed then .inr (mid, range.2) else .inr (range.1, mid)
  else .inl (.ok range.2)

def binSearch (rounds : ℕ) (lo hi : UInt64) : Option (Except Err UInt64) :=
  Loop.run (binSearchStep executable) rounds (lo, hi)

def Threshold (threshold : UInt64) : Prop :=
  ∀ gas, ∃ response, executable gas = .ok (decide (gas < threshold), response)

def FindsThreshold (lo hi threshold : UInt64) : Prop :=
  ∃ rounds, binSearch executable rounds lo hi = some (.ok threshold)

def middle (hi lo : ℕ) : ℕ := (hi + lo) % 2 ^ 64 / 2

theorem toNat_mid (lo hi : UInt64) : ((hi + lo) / 2).toNat = middle hi.toNat lo.toNat := by
  rw [UInt64.toNat_div, UInt64.toNat_add]
  rfl

theorem add_one_lt_iff {lo hi : UInt64} (hlt : lo < hi) : lo + 1 < hi ↔ lo.toNat + 1 < hi.toNat := by
  rw [UInt64.lt_iff_toNat_lt] at hlt ⊢
  have hbound := hi.toNat_lt
  rw [UInt64.toNat_add, show (1 : UInt64).toNat = 1 from rfl, Nat.mod_eq_of_lt (by omega)]

variable {executable : UInt64 → Except Err (Bool × Option R)} {lo hi threshold : UInt64}

theorem add_one_lt {lo hi : UInt64} (hwide : lo.toNat + 1 < hi.toNat) : lo + 1 < hi :=
  (add_one_lt_iff (UInt64.lt_iff_toNat_lt.2 (by omega))).2 hwide

theorem binSearchStep_of_threshold (hthreshold : Threshold executable threshold) (hmore : lo + 1 < hi) :
    binSearchStep executable (lo, hi) =
      .inr (if (hi + lo) / 2 < threshold then ((hi + lo) / 2, hi) else (lo, (hi + lo) / 2)) := by
  obtain ⟨response, hexecutes⟩ := hthreshold ((hi + lo) / 2)
  unfold binSearchStep
  dsimp only
  rw [if_pos hmore, hexecutes]
  by_cases hfails : (hi + lo) / 2 < threshold
  · simp [hfails]
  · simp [hfails]

/-- Below `2 ^ 63` no middle wraps, and each round halves a range that holds the threshold. -/
theorem exists_binSearch_eq (hthreshold : Threshold executable threshold) (hhalf : hi.toNat ≤ 2 ^ 63)
    (hlo : lo < threshold) (hhi : threshold ≤ hi) :
    ∃ rounds, binSearch executable rounds lo hi = some (.ok threshold) := by
  -- the threshold stays in the range, and the range stays in the lower half
  have hstep : ∀ range : UInt64 × UInt64,
      range.1 < threshold ∧ threshold ≤ range.2 ∧ range.2.toNat ≤ 2 ^ 63 →
        (∃ result, binSearchStep executable range = .inl result ∧ result = .ok threshold) ∨
          ∃ next, binSearchStep executable range = .inr next ∧
            (next.1 < threshold ∧ threshold ≤ next.2 ∧ next.2.toNat ≤ 2 ^ 63) ∧
              next.2.toNat - next.1.toNat < range.2.toNat - range.1.toNat := by
    rintro ⟨lo, hi⟩ ⟨hlo, hhi, hhalf⟩
    dsimp only at hlo hhi hhalf ⊢
    rw [UInt64.lt_iff_toNat_lt] at hlo
    rw [UInt64.le_iff_toNat_le] at hhi
    have hmore := add_one_lt_iff (UInt64.lt_iff_toNat_lt.2 (hlo.trans_le hhi))
    by_cases hwide : lo.toNat + 1 < hi.toNat
    · right
      have hmid : ((hi + lo) / 2).toNat = (hi.toNat + lo.toNat) / 2 := by
        rw [toNat_mid, middle, Nat.mod_eq_of_lt (by omega)]
      refine ⟨_, binSearchStep_of_threshold hthreshold (hmore.2 hwide), ?_⟩
      split_ifs with hfails
      · refine ⟨⟨hfails, UInt64.le_iff_toNat_le.2 hhi, hhalf⟩, ?_⟩
        dsimp only
        omega
      · rw [UInt64.lt_iff_toNat_lt, not_lt] at hfails
        refine ⟨⟨UInt64.lt_iff_toNat_lt.2 hlo, UInt64.le_iff_toNat_le.2 hfails, ?_⟩, ?_⟩
        all_goals
          dsimp only
          omega
    · left
      have hend : binSearchStep executable (lo, hi) = .inl (.ok hi) := if_neg fun hlt => hwide (hmore.1 hlt)
      refine ⟨_, hend, ?_⟩
      have heq : hi = threshold := UInt64.toNat_inj.1 (by omega)
      rw [heq]
  obtain ⟨rounds, result, hrun, rfl⟩ := Loop.exists_run_eq_some _ _ _ hstep (s := (lo, hi)) ⟨hlo, hhi, hhalf⟩
  exact ⟨rounds, hrun⟩

theorem middle_lt (hi lo : ℕ) : middle hi lo < 2 ^ 63 := by
  unfold middle
  omega

theorem FindsThreshold.of_step {lo' hi' : UInt64} (hstep : binSearchStep executable (lo, hi) = .inr (lo', hi'))
    (hfinds : FindsThreshold executable lo' hi' threshold) : FindsThreshold executable lo hi threshold := by
  obtain ⟨rounds, hrun⟩ := hfinds
  refine ⟨rounds + 1, ?_⟩
  rw [binSearch, Loop.run_succ_of_inr hstep]
  exact hrun

/-- A middle from the threshold on ends what can go wrong: all middles are in the lower half, so that no sum
wraps in the range below this one. -/
theorem findsThreshold_of_le_middle (hthreshold : Threshold executable threshold) (hmore : lo + 1 < hi)
    (hlo : lo < threshold) (hle : threshold.toNat ≤ middle hi.toNat lo.toNat) :
    FindsThreshold executable lo hi threshold := by
  have hstep := binSearchStep_of_threshold hthreshold hmore
  rw [← toNat_mid, ← UInt64.le_iff_toNat_le] at hle
  rw [if_neg (UInt64.not_lt.2 hle)] at hstep
  have hlow := middle_lt hi.toNat lo.toNat
  rw [← toNat_mid] at hlow
  exact .of_step hstep (exists_binSearch_eq hthreshold hlow.le hlo hle)

theorem findsThreshold_of_le_iterate (hthreshold : Threshold executable threshold)
    (hhalf : 2 ^ 63 < hi.toNat) (n : ℕ) (hwide : lo.toNat + 1 < hi.toNat) (hlo : lo < threshold)
    (hle : threshold.toNat ≤ (middle hi.toNat)^[n + 1] lo.toNat) :
    FindsThreshold executable lo hi threshold := by
  -- the middles before the one from the threshold on only move the lower end
  induction n generalizing lo with
  | zero =>
    exact findsThreshold_of_le_middle hthreshold (add_one_lt hwide) hlo hle
  | succ n ih =>
    have hmore := add_one_lt hwide
    have hmid := toNat_mid lo hi
    have hlow := middle_lt hi.toNat lo.toNat
    by_cases hfails : (hi + lo) / 2 < threshold
    · have hstep := binSearchStep_of_threshold hthreshold hmore
      rw [if_pos hfails] at hstep
      refine .of_step hstep (ih (by omega) hfails ?_)
      rw [hmid]
      exact hle
    · rw [UInt64.lt_iff_toNat_lt, hmid, not_lt] at hfails
      exact findsThreshold_of_le_middle hthreshold hmore hlo hfails

/-- Where every middle is below the threshold the upper end stays, and a lower end from the lower half never
comes next to it. -/
theorem binSearch_eq_none (hthreshold : Threshold executable threshold) (hhalf : 2 ^ 63 < hi.toNat)
    (hwide : lo.toNat + 1 < hi.toNat)
    (hbelow : ∀ n, (middle hi.toNat)^[n + 1] lo.toNat < threshold.toNat) (rounds : ℕ) :
    binSearch executable rounds lo hi = none := by
  have hstep : ∀ range : UInt64 × UInt64,
      range.2 = hi ∧ range.1.toNat + 1 < hi.toNat ∧ (∃ n, range.1.toNat = (middle hi.toNat)^[n] lo.toNat) →
        ∃ next, binSearchStep executable range = .inr next ∧ next.2 = hi ∧ next.1.toNat + 1 < hi.toNat ∧
          ∃ n, next.1.toNat = (middle hi.toNat)^[n] lo.toNat := by
    rintro ⟨lower, upper⟩ ⟨hupper, hwide, n, hlower⟩
    dsimp only at hupper hwide hlower
    subst hupper
    have hmid := toNat_mid lower upper
    have hlow := middle_lt upper.toNat lower.toNat
    have hnext : ((upper + lower) / 2).toNat = (middle upper.toNat)^[n + 1] lo.toNat := by
      rw [hmid, hlower, Function.iterate_succ_apply']
    have hfails : (upper + lower) / 2 < threshold := by
      rw [UInt64.lt_iff_toNat_lt, hnext]
      exact hbelow n
    refine ⟨_, binSearchStep_of_threshold hthreshold (add_one_lt hwide), ?_⟩
    rw [if_pos hfails]
    refine ⟨rfl, ?_, n + 1, hnext⟩
    dsimp only
    omega
  exact Loop.run_eq_none _ hstep (s := (lo, hi)) ⟨rfl, hwide, 0, rfl⟩ rounds

theorem findsThreshold_iff (hthreshold : Threshold executable threshold) (hlo : lo < threshold)
    (hhi : threshold ≤ hi) (hsum : lo.toNat + hi.toNat < 2 ^ 64) :
    FindsThreshold executable lo hi threshold ↔
      hi.toNat ≤ 2 ^ 63 ∨ ∃ n, threshold.toNat ≤ (middle hi.toNat)^[n + 1] lo.toNat := by
  constructor
  · rintro ⟨rounds, hrun⟩
    by_contra hnot
    obtain ⟨hhalf, hbelow⟩ := not_or.mp hnot
    rw [binSearch_eq_none hthreshold (by omega) (by omega) fun n => by
      by_contra hle
      exact hbelow ⟨n, by omega⟩] at hrun
    cases hrun
  · intro hreached
    by_cases hhalf : hi.toNat ≤ 2 ^ 63
    · exact exists_binSearch_eq hthreshold hhalf hlo hhi
    · obtain ⟨n, hle⟩ := hreached.resolve_left hhalf
      exact findsThreshold_of_le_iterate hthreshold (by omega) n (by omega) hlo hle

theorem mid_le (hmore : lo + 1 < hi) : ((hi + lo) / 2).toNat ≤ hi.toNat := by
  have hlo := lo.toNat_lt
  have hhi := hi.toNat_lt
  rw [toNat_mid, middle]
  rw [UInt64.lt_iff_toNat_lt, UInt64.toNat_add, show (1 : UInt64).toNat = 1 from rfl] at hmore
  omega

/-- A limit that succeeded, or is the end that a search began with, and is not above that. -/
def Tried (executable : UInt64 → Except Err (Bool × Option R)) (hi gas : UInt64) : Prop :=
  gas.toNat ≤ hi.toNat ∧ (gas = hi ∨ ∃ response, executable gas = .ok (false, response))

theorem tried_of_step {lo upper : UInt64} {next : UInt64 × UInt64} (htried : Tried executable hi upper)
    (hstep : binSearchStep executable (lo, upper) = .inr next) : Tried executable hi next.2 := by
  unfold binSearchStep at hstep
  dsimp only at hstep
  split_ifs at hstep with hmore
  cases hexecutes : executable ((upper + lo) / 2) with
  | error err =>
    rw [hexecutes] at hstep
    exact nomatch hstep
  | ok outcome =>
    obtain ⟨failed, response⟩ := outcome
    rw [hexecutes] at hstep
    cases failed with
    | true =>
      obtain rfl := Sum.inr.inj hstep
      exact htried
    | false =>
      obtain rfl := Sum.inr.inj hstep
      exact ⟨(mid_le hmore).trans htried.1, .inr ⟨response, hexecutes⟩⟩

theorem eq_of_step {lo upper gas : UInt64} (hstep : binSearchStep executable (lo, upper) = .inl (.ok gas)) :
    gas = upper := by
  unfold binSearchStep at hstep
  dsimp only at hstep
  split_ifs at hstep
  · cases hexecutes : executable ((upper + lo) / 2) with
    | error err =>
      rw [hexecutes] at hstep
      exact nomatch hstep
    | ok outcome =>
      rw [hexecutes] at hstep
      dsimp only at hstep
      split_ifs at hstep
  · cases hstep
    rfl

theorem tried_of_binSearch_eq {rounds : ℕ} {gas : UInt64}
    (hrun : binSearch executable rounds lo hi = some (.ok gas)) : Tried executable hi gas := by
  have hkept : ∀ range next : UInt64 × UInt64, Tried executable hi range.2 →
      binSearchStep executable range = .inr next → Tried executable hi next.2 :=
    fun _ _ htried hstep => tried_of_step htried hstep
  have hends : ∀ (range : UInt64 × UInt64) (result : Except Err UInt64), Tried executable hi range.2 →
      binSearchStep executable range = .inl result → ∀ gas, result = .ok gas → Tried executable hi gas := by
    rintro range result htried hstep gas rfl
    rw [eq_of_step hstep]
    exact htried
  exact Loop.of_run_eq_some _ _ hkept hends (s := (lo, hi)) ⟨le_rfl, .inl rfl⟩ hrun gas rfl

end Search

def txGas : UInt64 := 21000

def callStipend : UInt64 := 2300

structure TransactionArgs.Decoded (args : TransactionArgs) : Prop where
  gasPrice_nonneg : ∀ price, args.gasPrice = some price → 0 ≤ price
  maxFeePerGas_nonneg : ∀ maxFee, args.maxFeePerGas = some maxFee → 0 ≤ maxFee

structure EthCallRequest where
  args : Except Err TransactionArgs
  gasCap : UInt64
  decoded : ∀ decodedArgs, args = .ok decodedArgs → decodedArgs.Decoded

structure EstimateGasResponse where
  gas : UInt64
  ret : Bytes
  vmError : Option String

inductive ApplyError where
  | intrinsicGas
  | floorDataGas
  | other (err : Err)

inductive CallType where
  | internal
  | rpc
deriving DecidableEq

/-- What `EstimateGas` asks of the keepers, over contexts `C` and accounts `A`. An execution is a function of
the context and the message. -/
structure EstimateKeeper (C A : Type) where
  maxGas : C → Option Int64
  baseFee : C → Except Err (Option ℤ)
  chainID : ℤ
  getNonce : C → Address → UInt64
  spendableCoin : C → Address → ℤ
  isContract : C → Address → Bool
  getAccount : C → Address → Option A
  newAccount : C → Address → C
  emptyAccount : A
  withNonce : A → UInt64 → A
  setAccount : C → Address → A → Except Err C
  buildTraceCtx : C → UInt64 → C
  applyMessage : C → Vm.Message → Except ApplyError Vm.MsgEthereumTxResponse

namespace TransactionArgs

def getData (args : TransactionArgs) : Bytes := (args.input.or args.data).getD []

def prices (baseFee : Option ℤ) (args : TransactionArgs) : ℤ × ℤ × ℤ :=
  match baseFee, args.gasPrice with
  | none, gasPrice => (gasPrice.getD 0, gasPrice.getD 0, gasPrice.getD 0)
  | some _, some gasPrice => (gasPrice, gasPrice, gasPrice)
  | some baseFee, none =>
    let feeCap := args.maxFeePerGas.getD 0
    let tipCap := args.maxPriorityFeePerGas.getD 0
    (if feeCap ≠ 0 ∨ tipCap ≠ 0 then min (tipCap + baseFee) feeCap else 0, feeCap, tipCap)

def toMessage (baseFee : Option ℤ) (args : TransactionArgs) : Vm.Message where
  sender := args.getFrom
  recipient := args.recipient
  nonce := args.nonce.getD 0
  value := args.value.getD 0
  gasLimit := args.gas.getD 0
  gasPrice := (args.prices baseFee).1
  gasFeeCap := (args.prices baseFee).2.1
  gasTipCap := (args.prices baseFee).2.2
  data := args.getData
  accessList := args.accessList.getD []
  setCodeAuthorizations := args.authorizationList

end TransactionArgs

structure Call where
  requested : Option UInt64
  args : TransactionArgs
  nonce : UInt64
  msg : Vm.Message

namespace EstimateKeeper

variable {C A : Type} (k : EstimateKeeper C A)

def blockGas (ctx : C) (gasCap : UInt64) : UInt64 :=
  match k.maxGas ctx with
  | none => gasCap
  | some maxGas => if 0 < maxGas then maxGas.toUInt64 else gasCap

def highestGas (ctx : C) (gasCap : UInt64) (requested : Option UInt64) : UInt64 :=
  let hi := match requested with
    | none => k.blockGas ctx gasCap
    | some gas => if txGas ≤ gas then gas else k.blockGas ctx gasCap
  if gasCap ≠ 0 ∧ gasCap < hi then gasCap else hi

def toCall (ctx : C) (req : EthCallRequest) : Except Err Call := do
  let args ← req.args
  let baseFee ← (k.baseFee ctx).mapError fun _ => .wrapped .other "failed to load evm config"
  let nonce := k.getNonce ctx args.getFrom
  let withDefaults ← TransactionArgs.callDefaults req.gasCap baseFee k.chainID
    { args with nonce := some nonce, gas := some (args.gas.getD 0) }
  .ok ⟨args.gas, withDefaults, nonce, withDefaults.toMessage baseFee⟩

def recap (ctx : C) (call : Call) (hi : UInt64) : Except Err UInt64 :=
  if call.msg.gasFeeCap = 0 then .ok hi
  else
    match call.args.sender with
    | none => .error (.panicked "invalid memory address or nil pointer dereference")
    | some sender =>
      let available := k.spendableCoin ctx sender
      if available ≤ call.msg.value then failed "insufficient funds for transfer"
      else
        let allowance := (available - call.msg.value).tdiv call.msg.gasFeeCap
        if 0 ≤ allowance ∧ allowance < 2 ^ 64 ∧ allowance < hi.toNat then
          if allowance < txGas.toNat then failed "insufficient funds for gas * price + value"
          else .ok (UInt64.ofNat allowance.toNat)
        else .ok hi

def executionCtx (ctx : C) (call : Call) (fromType : CallType) (gas : UInt64) : Except Err C :=
  match fromType with
  | .internal => .ok ctx
  | .rpc => do
    let sender := call.msg.sender
    let (tmpCtx, account) := match k.getAccount ctx sender with
      | none => (k.newAccount ctx sender, k.emptyAccount)
      | some account => (ctx, account)
    let tmpCtx ← k.setAccount tmpCtx sender (k.withNonce account (call.nonce + 1))
    .ok (k.buildTraceCtx tmpCtx gas)

def executable (ctx : C) (call : Call) (fromType : CallType) (gas : UInt64) :
    Except Err (Bool × Option Vm.MsgEthereumTxResponse) := do
  let tmpCtx ← k.executionCtx ctx call fromType gas
  match k.applyMessage tmpCtx { call.msg with gasLimit := gas } with
  | .error .intrinsicGas => .ok (true, none)
  | .error .floorDataGas => .ok (true, none)
  | .error (.other err) => .error err
  | .ok response => .ok (response.failed, some response)

def plainTransfer (ctx : C) (msg : Vm.Message) : Bool :=
  msg.data.isEmpty && match msg.recipient with
    | none => false
    | some recipient => !k.isContract ctx recipient

end EstimateKeeper

def refuse (hi gasCap : UInt64) (result : Option Vm.MsgEthereumTxResponse) : Except Err EstimateGasResponse :=
  if hi = gasCap then
    match result with
    | none => failed s!"gas required exceeds allowance ({gasCap})"
    | some result =>
      if result.vmError ≠ some "out of gas" then
        if result.vmError = some "execution reverted" then .ok ⟨0, result.ret, result.vmError⟩
        else failed (result.vmError.getD "")
      else failed s!"gas required exceeds allowance ({gasCap})"
  else failed s!"gas required exceeds allowance ({hi})"

variable (executable : UInt64 → Except Err (Bool × Option Vm.MsgEthereumTxResponse))

/-- The range of the search, after a try with a little more than what was used. -/
def narrow (hi : UInt64) (result : Vm.MsgEthereumTxResponse) : Except Err (UInt64 × UInt64) :=
  let optimisticGasLimit := (UInt64.ofNat result.maxUsedGas + callStipend) * 64 / 63
  if optimisticGasLimit < hi then
    match executable optimisticGasLimit with
    | .error err => .error err
    | .ok (true, _) => .ok (optimisticGasLimit, hi)
    | .ok (false, _) => .ok (txGas - 1, optimisticGasLimit)
  else .ok (txGas - 1, hi)

def searchFrom (rounds : ℕ) (hi gasCap : UInt64) : Option (Except Err EstimateGasResponse) :=
  match executable hi with
  | .error err => some (.error err)
  | .ok (true, result) => some (refuse hi gasCap result)
  | .ok (false, none) => some (.error (.panicked "invalid memory address or nil pointer dereference"))
  | .ok (false, some result) =>
    match narrow executable hi result with
    | .error err => some (.error err)
    | .ok range => (binSearch executable rounds range.1 range.2).map fun found => found.map (⟨·, [], none⟩)

def succeeds (gas : UInt64) : Bool :=
  match executable gas with
  | .ok (failed, _) => !failed
  | .error _ => false

namespace EstimateKeeper

variable {C A : Type} (k : EstimateKeeper C A)

def estimateGasInternal (rounds : ℕ) (ctx : C) (req : EthCallRequest) (fromType : CallType) :
    Option (Except Err EstimateGasResponse) :=
  if req.gasCap < txGas then some (failed s!"gas cap cannot be lower than {txGas}")
  else
    match k.toCall ctx req with
    | .error err => some (.error err)
    | .ok call =>
      match k.recap ctx call (k.highestGas ctx req.gasCap call.requested) with
      | .error err => some (.error err)
      | .ok hi =>
        if k.plainTransfer ctx call.msg && succeeds (k.executable ctx call fromType) txGas then
          some (.ok ⟨txGas, [], none⟩)
        else
          searchFrom (k.executable ctx call fromType) rounds hi
            (k.highestGas ctx req.gasCap call.requested)

def estimateGas (rounds : ℕ) (ctx : C) (req : EthCallRequest) : Option (Except Err EstimateGasResponse) :=
  k.estimateGasInternal rounds ctx req .rpc

end EstimateKeeper

end CosmosEvm.Rpc
