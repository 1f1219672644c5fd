import CosmosEvm.Rpc.GasEstimate

namespace CosmosEvm.Rpc

@[simp]
theorem toNat_txGas : txGas.toNat = 21000 := rfl

namespace TransactionArgs

variable {args withDefaults : TransactionArgs} {globalGasCap : UInt64} {baseFee : Option ℤ} {chainID : ℤ}

theorem nonneg_getD {amount : Option ℤ} (hnonneg : ∀ n, amount = some n → 0 ≤ n) : 0 ≤ amount.getD 0 := by
  cases amount with
  | none => exact le_rfl
  | some n => exact hnonneg n rfl

theorem Decoded.callDefaults (hdecoded : args.Decoded)
    (hok : args.callDefaults globalGasCap baseFee chainID = .ok withDefaults) : withDefaults.Decoded := by
  unfold TransactionArgs.callDefaults at hok
  unfold failed at hok
  rw [Result.ite_error_eq_ok_iff, Result.ite_error_eq_ok_iff] at hok
  obtain ⟨-, -, hok⟩ := hok
  cases baseFee with
  | none =>
    cases hok
    refine ⟨?_, hdecoded.maxFeePerGas_nonneg⟩
    rintro price ⟨⟩
    exact nonneg_getD hdecoded.gasPrice_nonneg
  | some baseFee =>
    cases hok
    refine ⟨hdecoded.gasPrice_nonneg, ?_⟩
    rintro maxFee ⟨⟩
    exact nonneg_getD hdecoded.maxFeePerGas_nonneg

theorem Decoded.gasFeeCap_nonneg (hdecoded : args.Decoded) (baseFee : Option ℤ) :
    0 ≤ (args.toMessage baseFee).gasFeeCap := by
  change 0 ≤ (args.prices baseFee).2.1
  unfold prices
  cases baseFee with
  | none => exact nonneg_getD hdecoded.gasPrice_nonneg
  | some baseFee =>
    cases hprice : args.gasPrice with
    | none => exact nonneg_getD hdecoded.maxFeePerGas_nonneg
    | some price => exact hdecoded.gasPrice_nonneg price hprice

end TransactionArgs

variable {C A : Type}

namespace EstimateKeeper

variable {k : EstimateKeeper C A} {ctx : C} {req : EthCallRequest} {call : Call} {hi hi' gas : UInt64}

def Pays (k : EstimateKeeper C A) (ctx : C) (call : Call) (gas : UInt64) : Prop :=
  call.msg.gasFeeCap ≠ 0 →
    gas.toNat * call.msg.gasFeeCap ≤ k.spendableCoin ctx call.msg.sender - call.msg.value

structure Estimates (k : EstimateKeeper C A) (ctx : C) (req : EthCallRequest) (call : Call) (gas : UInt64) :
    Prop where
  executes : ∃ response, k.executable ctx call .rpc gas = .ok (false, response)
  requested : ∀ asked, call.requested = some asked → txGas ≤ asked → gas ≤ asked
  gasCap : gas ≤ req.gasCap
  pays : k.Pays ctx call gas

def Sound (k : EstimateKeeper C A) (ctx : C) (req : EthCallRequest) : Prop :=
  ∀ rounds response, k.estimateGas rounds ctx req = some (.ok response) → response.vmError = none →
    ∃ call, k.toCall ctx req = .ok call ∧ k.Estimates ctx req call response.gas

/-- A plain transfer that no gas is asked for, on a chain whose blocks have less gas than it takes. It succeeds
with that gas, and the sender can pay for a block, but not for the transfer. -/
structure TransferAboveBlock (k : EstimateKeeper C A) (ctx : C) (req : EthCallRequest) (call : Call) : Prop where
  gasCap : txGas ≤ req.gasCap
  toCall : k.toCall ctx req = .ok call
  unasked : ∀ asked, call.requested = some asked → asked < txGas
  block : k.blockGas ctx req.gasCap < txGas
  plain : k.plainTransfer ctx call.msg = true
  executes : succeeds (k.executable ctx call .rpc) txGas = true
  sender : call.args.sender = some call.msg.sender
  value_lt : call.msg.value < k.spendableCoin ctx call.msg.sender
  block_pays : k.Pays ctx call (k.blockGas ctx req.gasCap)
  not_pays : ¬ k.Pays ctx call txGas

section

variable {gasCap : UInt64} {executable : UInt64 → Except Err (Bool × Option Vm.MsgEthereumTxResponse)}
  {response : EstimateGasResponse} {rounds : ℕ}

theorem toCall_spec (hcall : k.toCall ctx req = .ok call) :
    0 ≤ call.msg.gasFeeCap ∧ call.msg.sender = call.args.getFrom := by
  simp only [toCall, Result.bind_eq_ok_iff] at hcall
  obtain ⟨args, hargs, baseFee, -, withDefaults, hdefaults, hcall⟩ := hcall
  cases hcall
  have hdecoded := req.decoded args hargs
  have hwith : withDefaults.Decoded := by
    refine TransactionArgs.Decoded.callDefaults ?_ hdefaults
    exact ⟨hdecoded.gasPrice_nonneg, hdecoded.maxFeePerGas_nonneg⟩
  exact ⟨hwith.gasFeeCap_nonneg baseFee, rfl⟩

theorem toNat_ofNat_toNat {allowance : ℤ} (hnonneg : 0 ≤ allowance) (hlt : allowance < 2 ^ 64) :
    ((UInt64.ofNat allowance.toNat).toNat : ℤ) = allowance := by
  rw [UInt64.toNat_ofNat', Nat.mod_eq_of_lt (by omega)]
  exact Int.toNat_of_nonneg hnonneg

theorem recap_spec (hfeeCap : 0 ≤ call.msg.gasFeeCap) (hsender : call.msg.sender = call.args.getFrom)
    (hok : k.recap ctx call hi = .ok hi') :
    hi'.toNat ≤ hi.toNat ∧ (hi'.toNat < 21000 → hi' = hi) ∧ k.Pays ctx call hi' ∧
      (call.msg.gasFeeCap ≠ 0 → call.args.sender = some call.msg.sender ∧
        call.msg.value < k.spendableCoin ctx call.msg.sender) := by
  unfold recap at hok
  split_ifs at hok with hzero
  · cases hok
    exact ⟨le_rfl, fun _ => rfl, fun hne => absurd hzero hne, fun hne => absurd hzero hne⟩
  · have hpos : 0 < call.msg.gasFeeCap := lt_of_le_of_ne hfeeCap (Ne.symm hzero)
    cases hgiven : call.args.sender with
    | none =>
      rw [hgiven] at hok
      exact nomatch hok
    | some sender =>
      obtain rfl : call.msg.sender = sender := by
        rw [hsender, TransactionArgs.getFrom, hgiven]
        rfl
      rw [hgiven] at hok
      dsimp only [failed] at hok
      rw [Result.ite_error_eq_ok_iff] at hok
      obtain ⟨hrich, hok⟩ := hok
      rw [Int.tdiv_eq_ediv_of_nonneg (by omega)] at hok
      have hnonneg : 0 ≤ (k.spendableCoin ctx call.msg.sender - call.msg.value) / call.msg.gasFeeCap :=
        Int.ediv_nonneg (by omega) hfeeCap
      simp only [Pays, ← Int.le_ediv_iff_mul_le hpos]
      generalize (k.spendableCoin ctx call.msg.sender - call.msg.value) / call.msg.gasFeeCap = allowance
        at hok hnonneg ⊢
      by_cases hlow : 0 ≤ allowance ∧ allowance < 2 ^ 64 ∧ allowance < hi.toNat
      · rw [if_pos hlow, Result.ite_error_eq_ok_iff, toNat_txGas] at hok
        obtain ⟨henough, hok⟩ := hok
        cases hok
        have hgas := toNat_ofNat_toNat hnonneg hlow.2.1
        exact ⟨by omega, by omega, fun _ => by omega, fun _ => ⟨trivial, not_le.mp hrich⟩⟩
      · rw [if_neg hlow] at hok
        cases hok
        have hbound := hi.toNat_lt
        exact ⟨le_rfl, fun _ => rfl, fun _ => by omega, fun _ => ⟨trivial, not_le.mp hrich⟩⟩

theorem recap_of_pays (hfeeCap : 0 < call.msg.gasFeeCap) (hsender : call.args.sender = some call.msg.sender)
    (hvalue : call.msg.value < k.spendableCoin ctx call.msg.sender) (hpays : k.Pays ctx call hi) :
    k.recap ctx call hi = .ok hi := by
  have hle := (Int.le_ediv_iff_mul_le hfeeCap).2 (hpays hfeeCap.ne')
  unfold recap
  rw [if_neg hfeeCap.ne', hsender]
  dsimp only
  rw [if_neg (not_le.mpr hvalue), Int.tdiv_eq_ediv_of_nonneg (by omega), if_neg (by omega)]

theorem toNat_highestGas (k : EstimateKeeper C A) (ctx : C) (hgasCap : txGas ≤ gasCap)
    (requested : Option UInt64) :
    ∃ start : UInt64, (k.highestGas ctx gasCap requested).toNat = min gasCap.toNat start.toNat ∧
      ((∃ asked, requested = some asked ∧ txGas ≤ asked ∧ start = asked) ∨
        (∀ asked, requested = some asked → asked < txGas) ∧ start = k.blockGas ctx gasCap) := by
  have hmin : ∀ start : UInt64, (if gasCap ≠ 0 ∧ gasCap < start then gasCap else start).toNat =
      min gasCap.toNat start.toNat := by
    intro start
    have hne : gasCap ≠ 0 := by
      rintro rfl
      exact absurd hgasCap (by decide)
    simp only [hne, ne_eq, not_false_eq_true, true_and, UInt64.lt_iff_toNat_lt]
    split_ifs <;> omega
  unfold highestGas
  cases requested with
  | none => exact ⟨_, hmin _, .inr ⟨nofun, rfl⟩⟩
  | some asked =>
    dsimp only
    by_cases henough : txGas ≤ asked
    · rw [if_pos henough]
      exact ⟨_, hmin _, .inl ⟨asked, rfl, henough, rfl⟩⟩
    · rw [if_neg henough]
      refine ⟨_, hmin _, .inr ⟨?_, rfl⟩⟩
      rintro _ ⟨⟩
      exact UInt64.not_le.1 henough

theorem highestGas_eq_blockGas {requested : Option UInt64} (hgasCap : txGas ≤ gasCap)
    (hunasked : ∀ asked, requested = some asked → asked < txGas) (hblock : k.blockGas ctx gasCap < txGas) :
    k.highestGas ctx gasCap requested = k.blockGas ctx gasCap := by
  obtain ⟨start, hmin, ⟨asked, hasked, henough, -⟩ | ⟨-, rfl⟩⟩ :=
    toNat_highestGas k ctx hgasCap requested
  · exact absurd henough (UInt64.not_le.2 (hunasked asked hasked))
  · rw [UInt64.le_iff_toNat_le] at hgasCap
    rw [UInt64.lt_iff_toNat_lt] at hblock
    exact UInt64.toNat_inj.1 (by omega)

theorem executes_of_succeeds (hsucceeds : succeeds executable gas = true) :
    ∃ response, executable gas = .ok (false, response) := by
  unfold succeeds at hsucceeds
  split at hsucceeds
  · next failed response heq =>
      cases failed with
      | true => exact nomatch hsucceeds
      | false => exact ⟨response, heq⟩
  · exact nomatch hsucceeds

theorem narrow_spec {result : Vm.MsgEthereumTxResponse} {range : UInt64 × UInt64}
    (hok : narrow executable hi result = .ok range) : Tried executable hi range.2 := by
  unfold narrow at hok
  dsimp only at hok
  split_ifs at hok with hlow
  · cases hexecutes : executable ((UInt64.ofNat result.maxUsedGas + callStipend) * 64 / 63) with
    | error err =>
      rw [hexecutes] at hok
      exact nomatch hok
    | ok outcome =>
      obtain ⟨failed, response⟩ := outcome
      rw [hexecutes] at hok
      cases failed with
      | true =>
        cases hok
        exact ⟨le_rfl, .inl rfl⟩
      | false =>
        cases hok
        exact ⟨(UInt64.lt_iff_toNat_lt.1 hlow).le, .inr ⟨response, hexecutes⟩⟩
  · cases hok
    exact ⟨le_rfl, .inl rfl⟩

theorem refuse_spec {result : Option Vm.MsgEthereumTxResponse} (hok : refuse hi gasCap result = .ok response) :
    response.vmError = some "execution reverted" := by
  unfold refuse at hok
  split_ifs at hok
  · split at hok
    · exact nomatch hok
    · split_ifs at hok with hgas hreverted
      · cases hok
        exact hreverted
      · exact nomatch hok
      · exact nomatch hok
  · exact nomatch hok

theorem searchFrom_spec (hok : searchFrom executable rounds hi gasCap = some (.ok response))
    (hvmError : response.vmError = none) :
    response.gas.toNat ≤ hi.toNat ∧ ∃ result, executable response.gas = .ok (false, result) := by
  unfold searchFrom at hok
  split at hok
  · exact nomatch hok
  · have hreverted := refuse_spec (Option.some.inj hok)
    rw [hvmError] at hreverted
    exact absurd hreverted (by decide)
  · exact nomatch hok
  · next result hexecutes =>
      cases hnarrow : narrow executable hi result with
      | error err =>
        rw [hnarrow] at hok
        exact nomatch hok
      | ok range =>
        rw [hnarrow] at hok
        dsimp only at hok
        obtain ⟨found, hfound, hresponse⟩ := Option.map_eq_some_iff.1 hok
        cases found with
        | error err => exact nomatch hresponse
        | ok gas =>
          cases hresponse
          obtain ⟨hle, hrange⟩ := narrow_spec hnarrow
          obtain ⟨hle', htried⟩ := tried_of_binSearch_eq hfound
          refine ⟨hle'.trans hle, ?_⟩
          -- the upper end of the range was tried as well
          rcases htried with rfl | htried
          · rcases hrange with heq | hrange
            · exact ⟨_, heq ▸ hexecutes⟩
            · exact hrange
          · exact htried

theorem estimateGas_cases (hok : k.estimateGas rounds ctx req = some (.ok response)) :
    txGas ≤ req.gasCap ∧ ∃ call hi, k.toCall ctx req = .ok call ∧
      k.recap ctx call (k.highestGas ctx req.gasCap call.requested) = .ok hi ∧
        ((k.plainTransfer ctx call.msg = true ∧ succeeds (k.executable ctx call .rpc) txGas = true ∧
            response = ⟨txGas, [], none⟩) ∨
          searchFrom (k.executable ctx call .rpc) rounds hi (k.highestGas ctx req.gasCap call.requested) =
            some (.ok response)) := by
  unfold estimateGas estimateGasInternal at hok
  split_ifs at hok with hcap
  · exact nomatch hok
  refine ⟨UInt64.not_lt.1 hcap, ?_⟩
  cases hcall : k.toCall ctx req with
  | error err =>
    rw [hcall] at hok
    exact nomatch hok
  | ok call =>
    rw [hcall] at hok
    dsimp only at hok
    cases hrecap : k.recap ctx call (k.highestGas ctx req.gasCap call.requested) with
    | error err =>
      rw [hrecap] at hok
      exact nomatch hok
    | ok hi =>
      rw [hrecap] at hok
      dsimp only at hok
      refine ⟨call, hi, rfl, hrecap, ?_⟩
      split_ifs at hok with hplain
      · rw [Bool.and_eq_true] at hplain
        cases hok
        exact .inl ⟨hplain.1, hplain.2, rfl⟩
      · exact .inr hok

end

theorem TransferAboveBlock.estimateGas_eq (habove : k.TransferAboveBlock ctx req call) (rounds : ℕ) :
    k.estimateGas rounds ctx req = some (.ok ⟨txGas, [], none⟩) := by
  have hblock : k.highestGas ctx req.gasCap call.requested = k.blockGas ctx req.gasCap :=
    highestGas_eq_blockGas habove.gasCap habove.unasked habove.block
  have hfeeCap : 0 < call.msg.gasFeeCap := by
    have hne : call.msg.gasFeeCap ≠ 0 := fun hzero => habove.not_pays fun hne => absurd hzero hne
    have hnonneg := (toCall_spec habove.toCall).1
    omega
  have hrecap : k.recap ctx call (k.highestGas ctx req.gasCap call.requested) =
      .ok (k.highestGas ctx req.gasCap call.requested) := by
    rw [hblock]
    exact recap_of_pays hfeeCap habove.sender habove.value_lt habove.block_pays
  unfold estimateGas estimateGasInternal
  rw [if_neg (UInt64.not_lt.2 habove.gasCap), habove.toCall]
  dsimp only
  rw [hrecap]
  dsimp only
  rw [habove.plain, habove.executes, Bool.and_self, if_pos rfl]

theorem Estimates.of_le (hgasCap : txGas ≤ req.gasCap) (hcall : k.toCall ctx req = .ok call)
    (hrecap : k.recap ctx call (k.highestGas ctx req.gasCap call.requested) = .ok hi)
    (hle : gas.toNat ≤ hi.toNat) (hexecutes : ∃ response, k.executable ctx call .rpc gas = .ok (false, response)) :
    k.Estimates ctx req call gas := by
  obtain ⟨hfeeCap, hsender⟩ := toCall_spec hcall
  obtain ⟨hbelow, -, hpays, -⟩ := recap_spec hfeeCap hsender hrecap
  obtain ⟨start, hmin, hstart⟩ := toNat_highestGas k ctx hgasCap call.requested
  refine ⟨hexecutes, ?_, UInt64.le_iff_toNat_le.2 (by omega), ?_⟩
  · intro asked hasked henough
    rcases hstart with ⟨asked', hasked', -, rfl⟩ | ⟨hunasked, -⟩
    · obtain rfl : asked = start := Option.some.inj (hasked.symm.trans hasked')
      exact UInt64.le_iff_toNat_le.2 (by omega)
    · exact absurd henough (UInt64.not_le.2 (hunasked asked hasked))
  · intro hne
    have hmono : (gas.toNat : ℤ) * call.msg.gasFeeCap ≤ hi.toNat * call.msg.gasFeeCap :=
      mul_le_mul_of_nonneg_right (by omega) hfeeCap
    exact hmono.trans (hpays hne)

/-- The shortcut for a plain transfer is the only answer above what the balance was checked for. -/
theorem sound_iff (k : EstimateKeeper C A) (ctx : C) (req : EthCallRequest) :
    k.Sound ctx req ↔ ∀ call, ¬ k.TransferAboveBlock ctx req call := by
  constructor
  · intro hsound call habove
    obtain ⟨call', hcall', hestimates⟩ := hsound 0 _ (habove.estimateGas_eq 0) rfl
    obtain rfl : call = call' := Except.ok.inj (habove.toCall.symm.trans hcall')
    exact habove.not_pays hestimates.pays
  · intro hnone rounds response hok hvmError
    obtain ⟨hgasCap, call, hi, hcall, hrecap, ⟨hplain, hsucceeds, rfl⟩ | hsearch⟩ := estimateGas_cases hok
    · have hexecutes := executes_of_succeeds hsucceeds
      refine ⟨call, hcall, ?_⟩
      by_cases henough : 21000 ≤ hi.toNat
      · exact .of_le hgasCap hcall hrecap henough hexecutes
      · -- the limit is that of a block, and was not lowered
        obtain ⟨hfeeCap, hsender⟩ := toCall_spec hcall
        obtain ⟨-, hkept, hpays, hgiven⟩ := recap_spec hfeeCap hsender hrecap
        obtain ⟨start, hmin, hstart⟩ := toNat_highestGas k ctx hgasCap call.requested
        have heq := hkept (by omega)
        have hcapNat := UInt64.le_iff_toNat_le.1 hgasCap
        rw [toNat_txGas] at hcapNat
        rcases hstart with ⟨asked, -, hasked, rfl⟩ | ⟨hunasked, rfl⟩
        · rw [UInt64.le_iff_toNat_le, toNat_txGas] at hasked
          rw [heq] at henough
          omega
        · have hblock : hi = k.blockGas ctx req.gasCap := UInt64.toNat_inj.1 (by rw [heq] at henough ⊢; omega)
          refine ⟨hexecutes, fun asked hasked hle => absurd hle (UInt64.not_le.2 (hunasked asked hasked)),
            hgasCap, ?_⟩
          by_contra hnot
          have hne : call.msg.gasFeeCap ≠ 0 := fun hzero => hnot fun hne => absurd hzero hne
          refine hnone call ⟨hgasCap, hcall, hunasked, ?_, hplain, hsucceeds, (hgiven hne).1, (hgiven hne).2,
            hblock ▸ hpays, hnot⟩
          rw [UInt64.lt_iff_toNat_lt, ← hblock, toNat_txGas]
          omega
    · obtain ⟨hle, hexecutes⟩ := searchFrom_spec hsearch hvmError
      exact ⟨call, hcall, .of_le hgasCap hcall hrecap hle hexecutes⟩

end EstimateKeeper

def transferKeeper (maxGas : Int64) (balance : ℤ) : EstimateKeeper Unit Unit where
  maxGas := fun _ => some maxGas
  baseFee := fun _ => .ok none
  chainID := 9001
  getNonce := fun _ _ => 0
  spendableCoin := fun _ _ => balance
  isContract := fun _ _ => false
  getAccount := fun _ _ => some ()
  newAccount := fun _ _ => ()
  emptyAccount := ()
  withNonce := fun _ _ => ()
  setAccount := fun _ _ _ => .ok ()
  buildTraceCtx := fun _ _ => ()
  applyMessage := fun _ _ => .ok ⟨21000, 21000, none, [], []⟩

def transferArgs : TransactionArgs where
  sender := some (bytesToAddress [1])
  recipient := some (bytesToAddress [2])
  gas := none
  gasPrice := some 1
  maxFeePerGas := none
  maxPriorityFeePerGas := none
  value := none
  nonce := none
  data := none
  input := none
  accessList := none
  chainID := none
  blobFeeCap := none
  blobHashes := none
  authorizationList := []

theorem decoded_transferArgs (decodedArgs : TransactionArgs)
    (hargs : (.ok transferArgs : Except Err TransactionArgs) = .ok decodedArgs) : decodedArgs.Decoded := by
  cases hargs
  refine ⟨?_, nofun⟩
  rintro price ⟨⟩
  decide

def transferRequest : EthCallRequest := ⟨.ok transferArgs, 1000000, decoded_transferArgs⟩

/-- The search finds a threshold if and only if no sum can wrap or one of the middles that come up with the upper
end kept is from it on; and estimates are sound but for a transfer that takes more gas than a block has. -/
theorem estimation_iff (R C A : Type) :
    (∀ (executable : UInt64 → Except Err (Bool × Option R)) (lo hi threshold : UInt64),
      Threshold executable threshold → lo < threshold → threshold ≤ hi → lo.toNat + hi.toNat < 2 ^ 64 →
        (FindsThreshold executable lo hi threshold ↔
          hi.toNat ≤ 2 ^ 63 ∨ ∃ n, threshold.toNat ≤ (middle hi.toNat)^[n + 1] lo.toNat)) ∧
    (∀ (k : EstimateKeeper C A) (ctx : C) (req : EthCallRequest),
      k.Sound ctx req ↔ ∀ call, ¬ k.TransferAboveBlock ctx req call) :=
  ⟨fun _ _ _ _ hthreshold hlo hhi hsum => findsThreshold_iff hthreshold hlo hhi hsum,
    EstimateKeeper.sound_iff⟩

theorem estimation_million :
    FindsThreshold (fun gas => .ok (decide (gas < 30000), (none : Option Unit))) 20999 18446744073709530615
      30000 ∧ (transferKeeper 1000000 50000).Sound () transferRequest := by
  obtain ⟨hsearch, hestimate⟩ := estimation_iff Unit Unit Unit
  constructor
  · refine (hsearch _ 20999 18446744073709530615 30000 (fun gas => ⟨none, rfl⟩) (by decide) (by decide)
      (by decide)).2 (.inr ⟨0, ?_⟩)
    decide
  · rw [hestimate]
    intro call habove
    exact absurd habove.block (by decide)

/-- A search up to the largest number never ends where only that number is enough; and a transfer is estimated at
21000 gas for a sender who can pay for 15000. -/
theorem estimation_fails :
    (∀ rounds, binSearch (fun gas => .ok (decide (gas < 18446744073709551615), (none : Option Unit))) rounds 0
      18446744073709551615 = none) ∧
    (transferKeeper 10000 15000).estimateGas 0 () transferRequest = some (.ok ⟨21000, [], none⟩) ∧
    (transferKeeper 10000 15000).spendableCoin () (bytesToAddress [1]) < 21000 := by
  refine ⟨?_, rfl, by decide⟩
  intro rounds
  refine binSearch_eq_none (fun gas => ⟨none, rfl⟩) (by decide) (by decide) ?_ rounds
  intro n
  rw [Function.iterate_succ_apply']
  exact (middle_lt _ _).trans (by decide)

end CosmosEvm.Rpc
