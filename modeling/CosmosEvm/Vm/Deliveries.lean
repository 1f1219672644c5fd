import CosmosEvm.Ante.Fees
import CosmosEvm.Vm.Nonces

namespace CosmosEvm.Vm

open Result BankKeeper PreciseBank.Keeper Statedb

structure Delivery (S : Type) where
  cfg : EvmConfig
  baseFee : Option ℤ
  txConfig : TxConfig
  tx : Transaction
  program : Program (MultiStore S)

namespace Delivery

variable {S : Type} (delivery : Delivery S)

def msg : Message := transactionToMessage delivery.tx delivery.baseFee

def started (interp : Interpreter (MultiStore S)) (ctx : Ctx S) :
    Option (StateDB (MultiStore S)) :=
  ((new (cacheContext ctx) delivery.txConfig).prepare delivery.cfg.rules.toRules delivery.msg.sender
    (FixedBytes.zero 20) delivery.msg.recipient interp.activePrecompiles delivery.msg.accessList).map
      fun s => startState interp.env delivery.cfg s delivery.msg

def creations (interp : Interpreter (MultiStore S)) (ctx : Ctx S) : List Creation :=
  ((delivery.started interp ctx).map fun s => delivery.program.creations interp s delivery.msg).getD []

end Delivery

namespace Keeper

variable {S Acc : Type}

def interpreter (k : Keeper S Acc) (addressString : Address → String) (activePrecompiles : List Address)
    (createAddress : Address → UInt64 → Address) : Interpreter (MultiStore S) where
  env := k.env addressString
  activePrecompiles := activePrecompiles
  createAddress := createAddress
  hasStorage store addr := storageKeys store addr ≠ []

variable (k : Keeper S Acc) (addressString : Address → String) (activePrecompiles : List Address)
  (createAddress : Address → UInt64 → Address)

/-- `IncrementNonce` and `ApplyTransaction`, with the creations of the transaction if it succeeds. What the
ante handler has written stays when the message fails. -/
def deliver (ctx : Ctx S) (delivery : Delivery S) :
    Ctx S × List Creation :=
  let interp := k.interpreter addressString activePrecompiles createAddress
  match Ante.incrementSequence k ctx delivery.tx with
  | .error _ => (ctx, [])
  | .ok ctx =>
    match k.applyTransaction addressString delivery.cfg (delivery.program.evm interp) none
        delivery.baseFee ctx delivery.tx delivery.txConfig with
    | .error _ => (ctx, [])
    | .ok (res, ctx') => (ctx', if res.failed then [] else delivery.creations interp ctx)

structure Outcome (S : Type) where
  before : Ctx S
  after : Ctx S
  made : List Creation

def history (ctx : Ctx S) : List (Delivery S) → List (Outcome S)
  | [] => []
  | delivery :: deliveries =>
    let delivered := k.deliver addressString activePrecompiles createAddress ctx delivery
    ⟨ctx, delivered.1, delivered.2⟩ :: history delivered.1 deliveries

/-- No stored nonce goes back, and no account uses a nonce for two creations. An account that is destructed
in the transaction in which it creates has no nonce afterwards: what is there later is another account. -/
structure NoncesSound (outcomes : List (Outcome S)) : Prop where
  nonce_le : ∀ outcome ∈ outcomes, ∀ addr,
    k.storedNonce outcome.before addr ≤ k.storedNonce outcome.after addr
  nodup : ∀ outcome ∈ outcomes, outcome.made.Nodup
  unused : outcomes.Pairwise fun first second => ∀ creator nonce, (creator, nonce) ∈ first.made →
    k.storedNonce first.after creator ≠ 0 → (creator, nonce) ∉ second.made

/-- The precompiles that are called run no messages which change nonces, and the sender of a creation makes
no creation of its own from within the init code. -/
structure Orderly (delivery : Delivery S) : Prop where
  calm : delivery.program.frame.Calm (k.env addressString) k.Sound
  creates : delivery.tx.recipient = none → delivery.program.deployed.isSome = true →
    delivery.program.frame.creates delivery.tx.sender false = false

variable {k addressString activePrecompiles createAddress} {ctx ctx' : Ctx S}
  {delivery : Delivery S}

theorem incrementSequence_nonce (hwired : k.Wired) {tx : Transaction}
    (hok : Ante.incrementSequence k ctx tx = .ok ctx') :
    k.storedNonce ctx tx.sender = tx.nonce ∧ tx.nonce < tx.nonce + 1 ∧
      ∀ addr, k.storedNonce ctx' addr =
        if addr = tx.sender then tx.nonce + 1 else k.storedNonce ctx addr := by
  unfold Ante.incrementSequence at hok
  cases haccount : k.ak.getAccount ctx.store.sdk tx.sender.bytes with
  | none =>
    rw [haccount] at hok
    cases hok
  | some account =>
    rw [haccount] at hok
    obtain ⟨_, hmatch, hok⟩ := bind_eq_ok_iff.mp hok
    obtain ⟨_, hmax, hok⟩ := bind_eq_ok_iff.mp hok
    obtain ⟨updated, hsequence, hok⟩ := bind_eq_ok_iff.mp hok
    have hmatch := ensure_eq_ok_iff.mp hmatch
    have hmax := ensure_eq_ok_iff.mp hmax
    obtain ⟨hupdated, haddress⟩ :=
      hwired.auth.getSequence_setSequence (mapError_eq_ok_iff.mp hsequence)
    cases hok
    rw [← hmatch] at hmax hupdated
    refine ⟨?_, ?_, fun addr => ?_⟩
    · rw [storedNonce_eq, haccount, hmatch]
      rfl
    · have hlt := tx.nonce.toNat_lt
      unfold maxUint64 at hmax
      rw [UInt64.lt_iff_toNat_lt, UInt64.toNat_add, UInt64.toNat_one]
      omega
    · rw [storedNonce_eq, storedNonce_eq]
      change ((k.ak.getAccount (k.ak.setAccount ctx.store.sdk updated) addr.bytes).map
        k.ak.getSequence).getD 0 = _
      rw [hwired.auth.getAccount_setAccount, haddress, hwired.auth.getAddress_getAccount haccount]
      by_cases heq : addr = tx.sender
      · rw [if_pos heq, if_pos (congrArg FixedBytes.bytes heq), Option.map_some, hupdated]
        rfl
      · rw [if_neg heq, if_neg fun hbytes => heq (FixedBytes.bytes_injective hbytes)]

theorem execution_program (interp : Interpreter (MultiStore S))
    {result : ExecutionResult (MultiStore S)}
    (hexec : execution interp.env delivery.cfg (delivery.program.evm interp) (cacheContext ctx)
      delivery.msg delivery.txConfig = .ok result) :
    ∃ s succeeded ran made, (new (cacheContext ctx) delivery.txConfig).prepare
        delivery.cfg.rules.toRules delivery.msg.sender (FixedBytes.zero 20) delivery.msg.recipient
        interp.activePrecompiles delivery.msg.accessList = some s ∧
      delivery.program.run interp (startState interp.env delivery.cfg s delivery.msg) delivery.msg =
        some (succeeded, ran, made) ∧
      result.stateDB = match delivery.tx.recipient with
        | none => ran.setNonce interp.env delivery.tx.sender (delivery.tx.nonce + 1)
        | some _ => ran := by
  obtain ⟨gas, -, hexec⟩ := bind_eq_ok_iff.mp hexec
  split at hexec
  · cases hexec
  rename_i s hprepare
  obtain ⟨value, -, hexec⟩ := bind_eq_ok_iff.mp hexec
  unfold execute at hexec
  cases hrecipient : delivery.tx.recipient with
  | none =>
    have hmsg : delivery.msg.recipient = none := hrecipient
    rw [hmsg] at hexec
    obtain ⟨created, hcreated, hexec⟩ := bind_eq_ok_iff.mp hexec
    cases hexec
    change delivery.program.result (delivery.program.runCreate interp _ _) = .ok created at hcreated
    cases hrun : delivery.program.runCreate interp
        (startState interp.env delivery.cfg s delivery.msg) delivery.msg.sender with
    | none =>
      rw [hrun] at hcreated
      cases hcreated
    | some ran =>
      rw [hrun] at hcreated
      cases hcreated
      refine ⟨s, ran.1, ran.2.1, ran.2.2, hprepare, ?_, rfl⟩
      unfold Program.run
      rw [hmsg]
      exact hrun
  | some recipient =>
    have hmsg : delivery.msg.recipient = some recipient := hrecipient
    rw [hmsg] at hexec
    change delivery.program.result (delivery.program.runCall interp _ _) = .ok result at hexec
    cases hrun : delivery.program.runCall interp
        (startState interp.env delivery.cfg s delivery.msg) recipient with
    | none =>
      rw [hrun] at hexec
      cases hexec
    | some ran =>
      rw [hrun] at hexec
      cases hexec
      refine ⟨s, ran.1, ran.2.1, ran.2.2, hprepare, ?_, rfl⟩
      unfold Program.run
      rw [hmsg]
      exact hrun

structure Executed (k : Keeper S Acc) (addressString : Address → String) (start : Address → UInt64)
    (s : StateDB (MultiStore S)) (made : List Creation) : Prop where
  tracked : Tracked (k.env addressString) k.Sound start s
  used : ∀ {creator nonce}, (creator, nonce) ∈ made →
    start creator ≤ nonce ∧ nonce < (s.view (k.env addressString)).nonce creator
  nodup : made.Nodup

variable {start : Address → UInt64} {s ran : StateDB (MultiStore S)} {made : List Creation}
  {succeeded : Bool}

theorem executed_call (hwired : k.Wired) (hcalm : delivery.program.frame.Calm (k.env addressString) k.Sound)
    (htracked : Tracked (k.env addressString) k.Sound start s) (recipient : Address)
    (hrun : delivery.program.runCall (k.interpreter addressString activePrecompiles createAddress)
      (callState (k.env addressString) delivery.cfg s delivery.msg recipient) recipient =
        some (succeeded, ran, made)) :
    k.Executed addressString start ran made := by
  have hcommits := commitsNonces hwired addressString
  let interp := k.interpreter addressString activePrecompiles createAddress
  have hstarted : Evolves interp.env k.Sound start s
      (callState interp.env delivery.cfg s delivery.msg recipient) [] :=
    callState_evolves htracked delivery.msg recipient
  obtain ⟨⟨_, inner⟩, hcall, heq⟩ := Option.map_eq_some_iff.mp hrun
  cases heq
  have hran := hstarted.trans (call_evolves (run_evolves hcommits hcalm) hstarted.tracked hcall)
  refine ⟨hran.tracked, fun hmem => ?_, hran.advances.nodup⟩
  obtain ⟨hle, hlt⟩ := hran.advances.used hmem
  exact ⟨UInt64.le_trans (htracked.tracks.start_le _) hle, hlt⟩

/-- The creation sets the sender's nonce back and raises it again; nothing else of the sender's is made within. -/
theorem executed_create (hwired : k.Wired)
    (hcalm : delivery.program.frame.Calm (k.env addressString) k.Sound)
    (hcreates : delivery.program.deployed.isSome = true →
      delivery.program.frame.creates delivery.tx.sender false = false)
    (htracked : Tracked (k.env addressString) k.Sound start s)
    (hsender : start delivery.tx.sender = delivery.tx.nonce)
    (hlt : delivery.tx.nonce < delivery.tx.nonce + 1)
    (hrun : delivery.program.runCreate (k.interpreter addressString activePrecompiles createAddress)
      (s.setNonce (k.env addressString) delivery.tx.sender delivery.tx.nonce) delivery.tx.sender =
        some (succeeded, ran, made)) :
    k.Executed addressString start
      (ran.setNonce (k.env addressString) delivery.tx.sender (delivery.tx.nonce + 1)) made := by
  have hcommits := commitsNonces hwired addressString
  let interp := k.interpreter addressString activePrecompiles createAddress
  -- the nonce of the sender goes back, but not below that before the transaction
  have hreset : Tracked interp.env k.Sound start
      (s.setNonce interp.env delivery.tx.sender delivery.tx.nonce) :=
    htracked.resetNonce (hsender ▸ UInt64.le_refl _)
  have hran := create_evolves (run_evolves hcommits hcalm) hreset hrun
  have hle : start delivery.tx.sender ≤ delivery.tx.nonce + 1 := by
    rw [hsender]
    exact UInt64.le_of_lt hlt
  refine ⟨hran.tracked.resetNonce hle, fun {creator nonce} hmem => ?_, hran.advances.nodup⟩
  obtain ⟨hle, hused⟩ := hran.advances.used hmem
  refine ⟨UInt64.le_trans (hreset.tracks.start_le creator) hle, ?_⟩
  rw [nonce_setNonce]
  by_cases heq : creator = delivery.tx.sender
  · subst heq
    have hnonce := nonce_of_mem_create hcommits hcalm hcreates hreset hrun hmem
    rw [nonce_setNonce, Function.update_self] at hnonce
    rw [Function.update_self, hnonce]
    exact hlt
  · rw [Function.update_of_ne heq]
    exact hused

structure Delivered (k : Keeper S Acc) (ctx ctx' : Ctx S) (made : List Creation) :
    Prop where
  backed : Backed k.bank ctx'
  nonce_le : ∀ addr, k.storedNonce ctx addr ≤ k.storedNonce ctx' addr
  used : ∀ {creator nonce}, (creator, nonce) ∈ made → k.storedNonce ctx creator ≤ nonce ∧
    (k.storedNonce ctx' creator ≠ 0 → nonce < k.storedNonce ctx' creator)
  nodup : made.Nodup

theorem Executed.delivered (hwired : k.Wired)
    (hexecuted : k.Executed addressString (k.storedNonce ctx) s made)
    (hcommit : s.commit (k.env addressString) = .ok ctx') : k.Delivered ctx ctx' made := by
  obtain ⟨hbacked, hstored⟩ := storedNonce_commit hwired hexecuted.tracked hcommit
  refine ⟨hbacked, fun addr => ?_, fun {creator nonce} hmem => ?_, hexecuted.nodup⟩
  · rcases hstored addr with hshown | ⟨-, hzero⟩
    · rw [hshown]
      exact hexecuted.tracked.tracks.start_le addr
    · rw [hzero]
      exact UInt64.zero_le
  · obtain ⟨hle, hlt⟩ := hexecuted.used hmem
    refine ⟨hle, fun hnonzero => ?_⟩
    rcases hstored creator with hshown | ⟨hnone, -⟩
    · rw [hshown]
      exact hlt
    · exact absurd hnone hnonzero

theorem Delivered.of_nonce_eq {after : Ctx S} (hdelivered : k.Delivered ctx ctx' made)
    (hbacked : Backed k.bank after) (hnonce : ∀ addr, k.storedNonce after addr = k.storedNonce ctx' addr) :
    k.Delivered ctx after made where
  backed := hbacked
  nonce_le addr := by
    rw [hnonce]
    exact hdelivered.nonce_le addr
  used hmem := by
    rw [hnonce]
    exact hdelivered.used hmem
  nodup := hdelivered.nodup

theorem Delivered.of_nonce_le (hbacked : Backed k.bank ctx')
    (hle : ∀ addr, k.storedNonce ctx addr ≤ k.storedNonce ctx' addr) : k.Delivered ctx ctx' [] :=
  ⟨hbacked, hle, by simp, List.nodup_nil⟩

/-- What the commit stores are the nonces that the program leaves, and none is below the start. -/
theorem delivered_of_settled (hwired : k.Wired) {ctx₁ branch : Ctx S}
    (hbacked : Backed k.bank ctx₁) (horderly : k.Orderly addressString delivery)
    (hincrement : Ante.incrementSequence k ctx delivery.tx = .ok ctx₁)
    {result : ExecutionResult (MultiStore S)}
    (hexec : execution (k.env addressString) delivery.cfg
      (delivery.program.evm (k.interpreter addressString activePrecompiles createAddress))
      (cacheContext ctx₁) delivery.msg delivery.txConfig = .ok result)
    (hcommit : result.stateDB.commit (k.env addressString) = .ok branch) :
    k.Delivered ctx branch
      (delivery.creations (k.interpreter addressString activePrecompiles createAddress) ctx₁) := by
  let interp := k.interpreter addressString activePrecompiles createAddress
  obtain ⟨hsender, hlt, hnonces⟩ := incrementSequence_nonce hwired hincrement
  obtain ⟨s, succeeded, ran, made, hprepare, hrun, hresult⟩ := execution_program interp hexec
  have hmade : delivery.creations interp ctx₁ = made := by
    unfold Delivery.creations Delivery.started Program.creations
    rw [hprepare, Option.map_some, Option.map_some, Option.getD_some, hrun]
    rfl
  have hle : ∀ addr, k.storedNonce ctx addr ≤ k.storedNonce (cacheContext ctx₁) addr := by
    intro addr
    change _ ≤ k.storedNonce ctx₁ addr
    rw [hnonces]
    split
    · rename_i heq
      rw [heq, hsender]
      exact UInt64.le_of_lt hlt
    · exact UInt64.le_refl _
  have hbranch : Backed k.bank (cacheContext ctx₁) := hbacked.of_store_eq rfl
  have htracked : Tracked interp.env k.Sound (k.storedNonce ctx) s :=
    tracked_of_start hbranch hle (.prepare hprepare)
  change k.Delivered ctx branch (delivery.creations interp ctx₁)
  rw [hmade]
  cases hrecipient : delivery.tx.recipient with
  | none =>
    have hmsg : delivery.msg.recipient = none := hrecipient
    rw [hrecipient] at hresult
    unfold Program.run startState at hrun
    rw [hmsg] at hrun
    rw [hresult] at hcommit
    exact (executed_create hwired horderly.calm (horderly.creates hrecipient) htracked hsender hlt
      hrun).delivered hwired hcommit
  | some recipient =>
    have hmsg : delivery.msg.recipient = some recipient := hrecipient
    rw [hrecipient] at hresult
    unfold Program.run startState at hrun
    rw [hmsg] at hrun
    rw [hresult] at hcommit
    exact (executed_call hwired horderly.calm htracked recipient hrun).delivered hwired hcommit

/-- Whether its execution is kept or not, a transaction takes no nonce back. -/
theorem deliver_spec (hwired : k.Wired) {collector : ModuleAccount}
    (hcollector : k.bank.modules.getModuleAccount feeCollectorName = some collector)
    (hbacked : Backed k.bank ctx) (horderly : k.Orderly addressString delivery) :
    k.Delivered ctx (k.deliver addressString activePrecompiles createAddress ctx delivery).1
      (k.deliver addressString activePrecompiles createAddress ctx delivery).2 := by
  unfold deliver
  cases hincrement : Ante.incrementSequence k ctx delivery.tx with
  | error err => exact .of_nonce_le hbacked fun _ => UInt64.le_refl _
  | ok ctx₁ =>
    obtain ⟨hsender, hlt, hnonces⟩ := incrementSequence_nonce hwired hincrement
    have hbacked₁ := (Ante.incrementSequence_spec hwired hincrement).1.backed hbacked
    have hante : k.Delivered ctx ctx₁ [] := by
      refine .of_nonce_le hbacked₁ fun addr => ?_
      rw [hnonces]
      split
      · rename_i heq
        rw [heq, hsender]
        exact UInt64.le_of_lt hlt
      · exact UInt64.le_refl _
    simp only
    split
    · exact hante
    rename_i res ctx' hok
    obtain ⟨⟨executed, branch⟩, happly, hok⟩ := bind_eq_ok_iff.mp hok
    obtain ⟨refunded, hrefund, hok⟩ := bind_eq_ok_iff.mp hok
    cases hok
    obtain ⟨result, hexec, hsettled⟩ := applyMessageWithConfig_spec (mapError_eq_ok_iff.mp happly)
    have hrefund := mapError_eq_ok_iff.mp hrefund
    -- the refund leaves nonces alone, so that the context before it decides
    have hafter : ∀ {made : List Creation}, k.Delivered ctx
        (afterExecution none ctx₁ delivery.msg executed branch).2 made → k.Delivered ctx ctx' made := by
      intro made hdelivered
      have hflow := (valueFlow_refundGas hwired hdelivered.backed hcollector hrefund).2
      exact hdelivered.of_nonce_eq hflow.backed (storedNonce_of_valueFlow hwired hflow)
    unfold afterExecution at hafter
    cases hfailed : executed.failed with
    | true =>
      simp only [afterExecution, hfailed, if_true] at hafter ⊢
      exact hafter hante
    | false =>
      have hcommit : result.stateDB.commit (k.env addressString) = .ok branch := by
        have hcommitted := hsettled.ctx_eq
        unfold committed at hcommitted
        rw [if_pos rfl] at hcommitted
        exact mapError_eq_ok_iff.mp hcommitted
      have hdelivered := delivered_of_settled hwired hbacked₁ horderly hincrement hexec hcommit
      simp only [afterExecution, hfailed, Bool.false_eq_true, if_false] at hafter ⊢
      exact hafter (hdelivered.of_nonce_eq (hdelivered.backed.of_store_eq rfl) fun _ => rfl)

/-- Over every sequence of transactions in which precompiles leave nonces alone and the sender of a creation
creates nothing else from within it, no stored nonce goes back and no creation nonce is used twice. -/
theorem noncesSound_history (hwired : k.Wired) {collector : ModuleAccount}
    (hcollector : k.bank.modules.getModuleAccount feeCollectorName = some collector)
    (hbacked : Backed k.bank ctx) {deliveries : List (Delivery S)}
    (horderly : ∀ delivery ∈ deliveries, k.Orderly addressString delivery) :
    k.NoncesSound (k.history addressString activePrecompiles createAddress ctx deliveries) := by
  -- a later creation uses a nonce that is not below the nonces of the run so far
  suffices hruns : k.NoncesSound (k.history addressString activePrecompiles createAddress ctx deliveries) ∧
      ∀ outcome ∈ k.history addressString activePrecompiles createAddress ctx deliveries,
        ∀ creator nonce, (creator, nonce) ∈ outcome.made → k.storedNonce ctx creator ≤ nonce by
    exact hruns.1
  induction deliveries generalizing ctx with
  | nil => exact ⟨⟨by simp [history], by simp [history], List.Pairwise.nil⟩, by simp [history]⟩
  | cons delivery deliveries ih =>
    have hfirst : k.Delivered ctx (k.deliver addressString activePrecompiles createAddress ctx delivery).1 _ :=
      deliver_spec hwired hcollector hbacked (horderly delivery List.mem_cons_self)
    obtain ⟨hsound, hlater⟩ := ih hfirst.backed fun other hother =>
      horderly other (List.mem_cons_of_mem delivery hother)
    refine ⟨⟨?_, ?_, List.pairwise_cons.mpr ⟨?_, hsound.unused⟩⟩, ?_⟩
    · exact List.forall_mem_cons.mpr ⟨hfirst.nonce_le, hsound.nonce_le⟩
    · exact List.forall_mem_cons.mpr ⟨hfirst.nodup, hsound.nodup⟩
    · intro outcome houtcome creator nonce hmem hnonzero hagain
      have hlt := (hfirst.used hmem).2 hnonzero
      exact UInt64.lt_irrefl _ (UInt64.lt_of_lt_of_le hlt (hlater outcome houtcome creator nonce hagain))
    · refine List.forall_mem_cons.mpr ⟨fun creator nonce hmem => (hfirst.used hmem).1, ?_⟩
      intro outcome houtcome creator nonce hmem
      exact UInt64.le_trans (hfirst.nonce_le creator) (hlater outcome houtcome creator nonce hmem)

theorem deliver_of_commit {ctx₁ branch : Ctx S}
    {result : ExecutionResult (MultiStore S)}
    (hincrement : Ante.incrementSequence k ctx delivery.tx = .ok ctx₁)
    (hexec : execution (k.env addressString) delivery.cfg
      (delivery.program.evm (k.interpreter addressString activePrecompiles createAddress))
      (cacheContext ctx₁) delivery.msg delivery.txConfig = .ok result)
    (hsucceeded : result.vmErr = none) (hlimit : delivery.msg.gasLimit.toNat < 2 ^ 63)
    (hnonneg : 0 ≤ delivery.cfg.minGasMultiplier.raw)
    (hle : delivery.cfg.minGasMultiplier.raw ≤ Dec.precision)
    (hleftover : result.leftoverGas.toNat ≤ delivery.msg.gasLimit.toNat)
    (hprice : delivery.msg.gasPrice = 0)
    (hcommit : result.stateDB.commit (k.env addressString) = .ok branch) :
    k.deliver addressString activePrecompiles createAddress ctx delivery =
      (writeBranch ctx₁ branch,
        delivery.creations (k.interpreter addressString activePrecompiles createAddress) ctx₁) := by
  obtain ⟨res, hsettle, -⟩ := exists_settle (cacheContext ctx₁) delivery.msg hlimit hnonneg hle hleftover hcommit
  have hfailed : res.failed = false := by
    unfold MsgEthereumTxResponse.failed
    rw [(settle_spec hsettle).vmError_eq, hsucceeded]
    rfl
  have happly : applyMessageWithConfig (k.env addressString) delivery.cfg
      (delivery.program.evm (k.interpreter addressString activePrecompiles createAddress))
      (cacheContext ctx₁) delivery.msg true false delivery.txConfig = .ok (res, branch) := by
    unfold applyMessageWithConfig
    rw [bind_eq_ok_iff]
    exact ⟨result, hexec, hsettle⟩
  have hrefund : ∀ leftoverGas, k.refundGas (writeBranch ctx₁ branch) delivery.msg leftoverGas =
      .ok (writeBranch ctx₁ branch) := by
    intro leftoverGas
    unfold refundGas
    simp [hprice]
  have htransaction : k.applyTransaction addressString delivery.cfg
      (delivery.program.evm (k.interpreter addressString activePrecompiles createAddress)) none
      delivery.baseFee ctx₁ delivery.tx delivery.txConfig = .ok (res, writeBranch ctx₁ branch) := by
    unfold applyTransaction
    refine bind_eq_ok_iff.mpr ⟨(res, branch), mapError_eq_ok_iff.mpr happly, ?_⟩
    refine bind_eq_ok_iff.mpr ⟨writeBranch ctx₁ branch, mapError_eq_ok_iff.mpr ?_, ?_⟩
    · simp only [afterExecution, hfailed, Bool.false_eq_true, if_false]
      exact hrefund _
    · simp only [afterExecution, hfailed, Bool.false_eq_true, if_false]
      rfl
  unfold deliver
  simp only [hincrement, htransaction, hfailed, Bool.false_eq_true, if_false]

def sampleAddress (creator : Address) (nonce : UInt64) : Address :=
  bytesToAddress (0xcc :: creator.bytes.drop 18 ++ [lowByte nonce.toNat])

def sampleTransaction (type : TxType) (caps : type.hasGasPrice = false) (nonce : UInt64)
    (recipient : Option Address) (data : Bytes) (auths : List SetCodeAuthorization) : Transaction where
  type := type
  sender := bytesToAddress [0xa1]
  recipient := recipient
  nonce := nonce
  gas := 100000
  gasFeeCap := 0
  gasTipCap := 0
  value := 0
  data := data
  accessList := []
  setCodeAuthorizations := auths
  caps_eq := by rw [caps]; intro habs; cases habs

def sampleDelivery (tx : Transaction) (frame : Frame (MultiStore S)) (deployed : Bytes) : Delivery S where
  cfg := pragueConfig
  baseFee := some 0
  txConfig := ⟨zeroHash, zeroHash, 0, 0⟩
  tx := tx
  program := ⟨frame, some deployed, 30000⟩

def creationDelivery (nonce : UInt64) (init : Bytes) (frame : Frame (MultiStore S)) (deployed : Bytes) :
    Delivery S :=
  sampleDelivery (sampleTransaction .dynamicFee rfl nonce none init []) frame deployed

def delegationDelivery (nonce : UInt64) (target : Address) : Delivery S :=
  sampleDelivery (sampleTransaction .setCode rfl nonce (some (bytesToAddress [0xb0])) []
    [⟨9001, target, nonce + 1, [0xa1]⟩]) .stop []

/-- The init code makes creations of its own, of which one is destructed and one fails. -/
theorem noncesSound_nested :
    let k := Evmd.vmKeeper Evmd.sixDecimalsCoin
    let nested : Delivery (AuthLedger Evmd.moduleAccounts) := creationDelivery 0 []
      (.create none .selfDestruct (some []) (.create none .stop none .stop)) [0x00]
    (Ante.incrementSequence k Ante.fundedChain nested.tx).toOption.map
        (fun ctx => nested.creations (k.interpreter (fun _ => "") [] sampleAddress) ctx) =
      some [(bytesToAddress [0xa1], 0), (sampleAddress (bytesToAddress [0xa1]) 0, 1)] ∧
    k.NoncesSound (k.history (fun _ => "") [] sampleAddress Ante.fundedChain
      [nested, delegationDelivery 1 (bytesToAddress [0xb0]), creationDelivery 3 [] .stop [0x00]]) := by
  intro k nested
  refine ⟨by decide +kernel, noncesSound_history (Evmd.vmKeeper_wired _)
    (show _ = some (Evmd.moduleAccount "fee_collector" []) from rfl) Ante.backed_fundedChain ?_⟩
  intro delivery hmem
  simp only [List.mem_cons, List.not_mem_nil, or_false] at hmem
  rcases hmem with rfl | rfl | rfl
  · exact ⟨⟨trivial, trivial, trivial⟩, fun _ _ => rfl⟩
  · exact ⟨trivial, fun habs => by cases habs⟩
  · exact ⟨trivial, fun _ _ => rfl⟩

def trial (k : Keeper S Acc) (interp : Interpreter (MultiStore S)) (ctx : Ctx S)
    (delivery : Delivery S) (dirty : List Address) : Option (Ctx S × List Creation) := do
  let ctx₁ ← (Ante.incrementSequence k ctx delivery.tx).toOption
  let result ← (execution interp.env delivery.cfg (delivery.program.evm interp) (cacheContext ctx₁)
    delivery.msg delivery.txConfig).toOption
  let branch ← (Result.run (result.stateDB.commitAddress interp.env) result.stateDB.writeCache
    dirty).toOption
  if dirty.Pairwise (· ≤ ·) ∧ dirty.Nodup ∧ result.stateDB.journal.dirties.keys = dirty.toFinset ∧
      result.vmErr = none ∧ delivery.msg.gasLimit.toNat < 2 ^ 63 ∧
      0 ≤ delivery.cfg.minGasMultiplier.raw ∧ delivery.cfg.minGasMultiplier.raw ≤ Dec.precision ∧
      result.leftoverGas.toNat ≤ delivery.msg.gasLimit.toNat ∧ delivery.msg.gasPrice = 0 then
    some (writeBranch ctx₁ branch, delivery.creations interp ctx₁)
  else none

theorem deliver_eq_of_trial {delivered : Ctx S × List Creation} {dirty : List Address}
    (htrial : k.trial (k.interpreter addressString activePrecompiles createAddress) ctx delivery dirty =
      some delivered) :
    k.deliver addressString activePrecompiles createAddress ctx delivery = delivered := by
  obtain ⟨ctx₁, hincrement, htrial⟩ := Option.bind_eq_some_iff.mp htrial
  obtain ⟨result, hexec, htrial⟩ := Option.bind_eq_some_iff.mp htrial
  obtain ⟨branch, hloop, htrial⟩ := Option.bind_eq_some_iff.mp htrial
  split at htrial
  swap
  · cases htrial
  rename_i hchecks
  obtain ⟨hsorted, hnodup, hkeys, hsucceeded, hlimit, hnonneg, hle, hleftover, hprice⟩ := hchecks
  cases htrial
  refine deliver_of_commit (toOption_eq_some_iff.mp hincrement) (toOption_eq_some_iff.mp hexec) hsucceeded
    hlimit hnonneg hle hleftover hprice ?_
  unfold StateDB.commit StateDB.commitWithCtx
  rw [sortedDirties_eq hsorted hnodup hkeys]
  exact toOption_eq_some_iff.mp hloop

def trials (k : Keeper S Acc) (interp : Interpreter (MultiStore S)) (ctx : Ctx S) :
    List (Delivery S × List Address) → Option (List (Outcome S))
  | [] => some []
  | (delivery, dirty) :: rest =>
    (k.trial interp ctx delivery dirty).bind fun delivered =>
      (trials k interp delivered.1 rest).map (⟨ctx, delivered.1, delivered.2⟩ :: ·)

theorem history_eq_of_trials {entries : List (Delivery S × List Address)} {outcomes : List (Outcome S)}
    (htrials : k.trials (k.interpreter addressString activePrecompiles createAddress) ctx entries =
      some outcomes) :
    k.history addressString activePrecompiles createAddress ctx (entries.map Prod.fst) = outcomes := by
  induction entries generalizing ctx outcomes with
  | nil => exact Option.some.inj htrials
  | cons entry entries ih =>
    obtain ⟨delivered, htrial, htrials⟩ := Option.bind_eq_some_iff.mp htrials
    obtain ⟨later, hlater, rfl⟩ := Option.map_eq_some_iff.mp htrials
    simp only [List.map_cons, history, deliver_eq_of_trial htrial, ih hlater]

def creatorCode : Bytes := [0x61, 0x5f, 0xff, 0x5f, 0x52, 0x60, 0x02, 0x60, 0x1e, 0x5f, 0xf0, 0x00]

def callbackCode : Bytes := [0x5f, 0x5f, 0x5f, 0x5f, 0x5f, 0x33, 0x5a, 0xf1, 0x00]

/-- The sender deploys code that executes `CREATE`, delegates to it, and makes a creation whose init code
calls back into the sender. The next creation has the nonce that the sender has used from within. With each
transaction stand the accounts that it makes dirty. -/
def reentrantDeliveries : List (Delivery (AuthLedger Evmd.moduleAccounts) × List Address) :=
  let sender := bytesToAddress [0xa1]
  let created := sampleAddress sender
  [(creationDelivery 0 [] .stop creatorCode, [sender, created 0]),
    (delegationDelivery 1 (created 0), [sender, bytesToAddress [0xb0]]),
    (creationDelivery 3 callbackCode
      (.call sender (.create none .selfDestruct (some []) .stop) false .stop) [],
      [sender, created 3, created 4]),
    (creationDelivery 4 [] .stop [], [sender, created 4])]

theorem creation_nonce_reused :
    let k := Evmd.vmKeeper Evmd.sixDecimalsCoin
    let sender := bytesToAddress [0xa1]
    let outcomes := k.history (fun _ => "") [] sampleAddress Ante.fundedChain
      (reentrantDeliveries.map Prod.fst)
    outcomes.map (fun outcome => (outcome.made, k.storedNonce outcome.after sender)) =
        [([(sender, 0)], 1), ([], 3), ([(sender, 3), (sender, 4)], 4), ([(sender, 4)], 5)] ∧
      ¬ k.NoncesSound outcomes := by
  intro k sender outcomes
  have hvalues : (k.trials (k.interpreter (fun _ => "") [] sampleAddress) Ante.fundedChain
      reentrantDeliveries).map (List.map fun outcome =>
        (outcome.made, k.storedNonce outcome.after sender)) =
      some [([(sender, 0)], 1), ([], 3), ([(sender, 3), (sender, 4)], 4), ([(sender, 4)], 5)] := by
    decide +kernel
  obtain ⟨ran, hran, hvalues⟩ := Option.map_eq_some_iff.mp hvalues
  have houtcomes : outcomes = ran := history_eq_of_trials hran
  rw [houtcomes]
  refine ⟨hvalues, fun hsound => ?_⟩
  obtain ⟨first, _, rfl, -, hvalues⟩ := List.map_eq_cons_iff.mp hvalues
  obtain ⟨second, _, rfl, -, hvalues⟩ := List.map_eq_cons_iff.mp hvalues
  obtain ⟨third, _, rfl, hthird, hvalues⟩ := List.map_eq_cons_iff.mp hvalues
  obtain ⟨fourth, _, rfl, hfourth, -⟩ := List.map_eq_cons_iff.mp hvalues
  obtain ⟨hthird, hnonce⟩ := Prod.mk.inj hthird
  have hunused := hsound.unused.of_cons.of_cons
  have hlast := List.rel_of_pairwise_cons hunused List.mem_cons_self sender 4
  rw [hthird, hnonce, (Prod.mk.inj hfourth).1] at hlast
  exact hlast (by simp) (by decide) (by simp)

end Keeper

end CosmosEvm.Vm
