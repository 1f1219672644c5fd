import CosmosEvm.Vm.Bloom
import CosmosEvm.Vm.Start

namespace CosmosEvm.Vm

open Result Statedb

structure TransientStore where
  bloom : ℕ
  logSize : ℕ
  txIndex : ℕ
  gasUsed : ℕ

variable (store : TransientStore)

def TransientStore.txConfig (headerHash txHash : Hash) : TxConfig :=
  ⟨headerHash, txHash, store.txIndex, store.logSize⟩

def TransientStore.initializeBloomFromLogs (keccak256 : Bytes → Hash)
    (logs : List Log) : Option ℕ :=
  if 0 < logs.length then some (store.bloom ||| createBloom keccak256 logs) else none

def TransientStore.addTransientGasUsed (gasUsed : ℕ) : Except Err TransientStore :=
  let result := (store.gasUsed + gasUsed) % 2 ^ 64
  if result < gasUsed then .error (.wrapped .other "transient gas used: gas computation overflow/underflow")
  else .ok { store with gasUsed := result }

def TransientStore.addLogs (keccak256 : Bytes → Hash) (config : TxConfig)
    (logs : List Log) : TransientStore :=
  match store.initializeBloomFromLogs keccak256 logs with
  | none => store
  | some bloom => { store with bloom, logSize := config.logIndex + logs.length }

namespace Keeper

variable {S Acc : Type} (k : Keeper S Acc) (addressString : Address → String) (cfg : EvmConfig)
  (evm : Evm (MultiStore S)) (hooks : Option (Hooks S)) (baseFee : Option ℤ) (headerHash : Hash)
  (txHash : Transaction → Hash)

/-- `ApplyTransaction` with what it does to the transient store. -/
def applyTransactionInBlock (store : TransientStore) (ctx : Ctx S) (tx : Transaction) :
    Except Err (MsgEthereumTxResponse × TransientStore × Ctx S) := do
  let config := store.txConfig headerHash (txHash tx)
  let applied ← k.applyTransaction addressString cfg evm hooks baseFee ctx tx config
  let store := store.addLogs k.keccak256 config applied.1.logs
  let store := { store with txIndex := config.txIndex + 1 }
  let store ← (store.addTransientGasUsed applied.1.gasUsed).mapError
    (Err.wrap "failed to add transient gas used")
  return (applied.1, store, applied.2)

/-- An Ethereum transaction in a block: what the ante handler and the transactions since the last one make
of the state, and whether it fails after its message, as where the block is out of gas. -/
structure BlockTx (S : Type) where
  ante : Ctx S → Ctx S
  tx : Transaction
  fails : Bool

structure BlockState (S : Type) where
  store : TransientStore
  ctx : Ctx S
  responses : List (Transaction × MsgEthereumTxResponse)

/-- One transaction. The ante handler resets the gas of the transient store, and stays when the transaction
fails. -/
def deliverInBlock (state : BlockState S) (next : BlockTx S) : BlockState S :=
  let store := { state.store with gasUsed := 0 }
  let ctx := next.ante state.ctx
  match k.applyTransactionInBlock addressString cfg evm hooks baseFee headerHash txHash store ctx next.tx with
  | .error _ => { state with store, ctx }
  | .ok (res, store', ctx') =>
    if next.fails then { state with store, ctx }
    else ⟨store', ctx', state.responses ++ [(next.tx, res)]⟩

def deliverBlock (ctx : Ctx S) (txs : List (BlockTx S)) : BlockState S :=
  txs.foldl (k.deliverInBlock addressString cfg evm hooks baseFee headerHash txHash) ⟨⟨0, 0, 0, 0⟩, ctx, []⟩

end Keeper

def endBlock (store : TransientStore) : Option ℕ := bytesToBloom store.bloom

def returnedLogs (responses : List (Transaction × MsgEthereumTxResponse)) : List Log :=
  responses.flatMap fun response => response.2.logs

structure Evm.Executes {σ : Type} (env : Env σ) (evm : Evm σ) : Prop where
  create : ∀ {s caller code gas value res}, evm.create s caller code gas value = .ok res →
    StateDB.Runs env (fun _ => True) s res.stateDB ∧ (res.vmErr.isSome = true → Fails env s res.stateDB)
  call : ∀ {s caller addr input gas value res}, evm.call s caller addr input gas value = .ok res →
    StateDB.Runs env (fun _ => True) s res.stateDB ∧ (res.vmErr.isSome = true → Fails env s res.stateDB)

def Hooks.KeepsLogs {S : Type} (postTxProcessing : Hooks S) : Prop :=
  ∀ ctx msg res ctx' logs, postTxProcessing ctx msg res = .ok (ctx', logs) → logs = res.logs

section Execution

variable {σ : Type} {env : Env σ} {cfg : EvmConfig} {evm : Evm σ} {ctx : Context σ} {msg : Message}
  {config : TxConfig} {result : ExecutionResult σ}

theorem numbered_start {start : StateDB σ} {rules : StateDB.Rules} {sender coinbase : Address}
    {dst : Option Address} {precompiles : List Address} {list : List (Address × List Hash)}
    (hprepare : (new ctx config).prepare rules sender coinbase dst precompiles list = some start) :
    Numbered config start ∧ start.logs = [] := by
  unfold StateDB.prepare at hprepare
  split at hprepare
  · simp at hprepare
  · cases hprepare
    exact ⟨⟨rfl, fun i log hget => by simp [new] at hget⟩, rfl⟩

theorem execution_logs (hevm : evm.Executes env) (hexec : execution env cfg evm ctx msg config = .ok result) :
    Numbered config result.stateDB ∧ (result.vmErr.isSome = true → result.stateDB.logs = []) := by
  obtain ⟨gas, -, hexec⟩ := bind_eq_ok_iff.mp hexec
  split at hexec
  · cases hexec
  rename_i start hprepare
  obtain ⟨value, -, hexec⟩ := bind_eq_ok_iff.mp hexec
  obtain ⟨hnumbered, hnone⟩ := numbered_start hprepare
  have hstarts := runs_startState env cfg start msg
  obtain ⟨ops, -, hstarted⟩ := runs_startState env cfg start msg
  have hlogs : (startState env cfg start msg).logs = [] := (logs_of_runs_starts hstarts).trans hnone
  -- what the interpreter makes of the state it starts with
  have hrun : ∀ {s' : StateDB σ} {failed : Bool},
      StateDB.Runs env (fun _ => True) (startState env cfg start msg) s' ∧
        (failed = true → Fails env (startState env cfg start msg) s') →
      Numbered config s' ∧ (failed = true → s'.logs = []) := by
    rintro s' failed ⟨⟨more, -, hmore⟩, hfails⟩
    refine ⟨(hnumbered.run hstarted).run hmore, fun hfailed => ?_⟩
    exact ((hfails hfailed).logs_eq (.prepare hprepare) hstarts).trans hlogs
  unfold execute at hexec
  cases hrecipient : msg.recipient with
  | none =>
    rw [hrecipient] at hexec
    obtain ⟨res, hcreate, hexec⟩ := bind_eq_ok_iff.mp hexec
    cases hexec
    obtain ⟨hnumbered', hfailed⟩ := hrun (hevm.create hcreate)
    let setNonce : Op σ := .setNonce msg.sender (msg.nonce + 1)
    have hnonce : res.stateDB.exec env setNonce = some _ := rfl
    have hstarts : setNonce.Starts := trivial
    exact ⟨hnumbered'.exec hnonce, fun hsome => (logs_of_starts hstarts hnonce).trans (hfailed hsome)⟩
  | some recipient =>
    rw [hrecipient] at hexec
    exact hrun (hevm.call hexec)

theorem settle_logs {ctx' : Context σ} {commit internal : Bool} {res : MsgEthereumTxResponse}
    (hok : settle env cfg ctx msg commit internal result = .ok (res, ctx')) :
    res.logs = result.stateDB.logs := by
  unfold settle at hok
  obtain ⟨-, hok⟩ := ite_error_eq_ok_iff.mp hok
  obtain ⟨committed, -, hok⟩ := bind_eq_ok_iff.mp hok
  obtain ⟨-, hok⟩ := ite_error_eq_ok_iff.mp hok
  obtain ⟨-, hok⟩ := ite_error_eq_ok_iff.mp hok
  obtain ⟨-, hok⟩ := ite_error_eq_ok_iff.mp hok
  cases hok
  rfl

end Execution

namespace Keeper

variable {S Acc : Type} {k : Keeper S Acc} {addressString : Address → String} {cfg : EvmConfig}
  {evm : Evm (MultiStore S)} {hooks : Option (Hooks S)} {baseFee : Option ℤ} {headerHash : Hash}
  {txHash : Transaction → Hash} {ctx ctx' : Ctx S} {tx : Transaction} {config : TxConfig}
  {res : MsgEthereumTxResponse}

structure Placed (config : TxConfig) (res : MsgEthereumTxResponse) : Prop where
  owned : ∀ log ∈ res.logs, log.txHash = config.txHash ∧ log.txIndex = config.txIndex
  numbers : res.logs.map (·.index) = (List.range res.logs.length).map (config.logIndex + ·)
  failed : res.failed = true → res.logs = []

theorem placed_of_nil (hnone : res.logs = []) : Placed config res where
  owned log hmem := absurd (hnone ▸ hmem) List.not_mem_nil
  numbers := by rw [hnone]; rfl
  failed _ := hnone

theorem placed_of_numbered {s : StateDB (MultiStore S)} (hnumbered : Numbered config s)
    (hlogs : res.logs = s.logs) (hfailed : res.failed = true → s.logs = []) : Placed config res where
  owned log hmem := by
    rw [hlogs] at hmem
    obtain ⟨i, hget⟩ := List.mem_iff_getElem?.mp hmem
    obtain ⟨hhash, hindex, -⟩ := hnumbered.log i log hget
    exact ⟨hhash, hindex⟩
  numbers := by
    rw [hlogs]
    apply List.ext_getElem
    · rw [List.length_map, List.length_map, List.length_range]
    · intro i hi _
      rw [List.length_map] at hi
      rw [List.getElem_map, List.getElem_map, List.getElem_range]
      exact (hnumbered.log i _ (List.getElem?_eq_getElem hi)).2.2
  failed h := hlogs.trans (hfailed h)

theorem placed_afterExecution {msg : Message} {branch : Ctx S} (hplaced : Placed config res)
    (hhooks : ∀ postTxProcessing, hooks = some postTxProcessing → postTxProcessing.KeepsLogs) :
    Placed config (afterExecution hooks ctx msg res branch).1 := by
  cases hset : hooks with
  | none => exact hplaced
  | some postTxProcessing =>
    simp only [afterExecution]
    split
    · exact placed_of_nil rfl
    · rename_i branch' logs hhook
      obtain rfl := hhooks postTxProcessing hset _ _ _ _ _ hhook
      by_cases hfailed : res.failed = true
      · exact placed_of_nil (if_pos hfailed)
      · rw [if_neg hfailed]
        exact hplaced

theorem placed_applyTransaction (hevm : evm.Executes (k.env addressString))
    (hhooks : ∀ postTxProcessing, hooks = some postTxProcessing → postTxProcessing.KeepsLogs)
    (hok : k.applyTransaction addressString cfg evm hooks baseFee ctx tx config = .ok (res, ctx')) :
    Placed config res := by
  obtain ⟨executed, hexecuted, hok⟩ := bind_eq_ok_iff.mp hok
  obtain ⟨refunded, -, hok⟩ := bind_eq_ok_iff.mp hok
  cases hok
  obtain ⟨result, hexec, hsettle⟩ := bind_eq_ok_iff.mp (mapError_eq_ok_iff.mp hexecuted)
  obtain ⟨hnumbered, hfailed⟩ := execution_logs hevm hexec
  refine placed_afterExecution (placed_of_numbered hnumbered (settle_logs hsettle) fun hres => ?_) hhooks
  apply hfailed
  rw [← (settle_spec hsettle).vmError_eq]
  exact hres

structure InStep (txHash : Transaction → Hash) (keccak256 : Bytes → Hash) (state : BlockState S) : Prop where
  txIndex_eq : state.store.txIndex = state.responses.length
  logSize_eq : state.store.logSize = (returnedLogs state.responses).length
  bloom_eq : state.store.bloom = createBloom keccak256 (returnedLogs state.responses)
  numbers : (returnedLogs state.responses).map (·.index) =
    List.range (returnedLogs state.responses).length
  owned : ∀ (i : ℕ) tx (res : MsgEthereumTxResponse), state.responses[i]? = some (tx, res) → ∀ log ∈ res.logs,
    log.txHash = txHash tx ∧ log.txIndex = i
  failed : ∀ response ∈ state.responses, response.2.failed = true → response.2.logs = []

theorem addLogs_eq {store : TransientStore} {keccak256 : Bytes → Hash} {logs : List Log}
    (hconfig : config.logIndex = store.logSize) :
    store.addLogs keccak256 config logs = { store with
      bloom := store.bloom ||| createBloom keccak256 logs
      logSize := store.logSize + logs.length } := by
  unfold TransientStore.addLogs TransientStore.initializeBloomFromLogs
  cases logs with
  | nil => simp [createBloom, Bloom.ofItems]
  | cons log logs => simp [hconfig]

/-- The transient store counts the logs that are returned, and a failed transaction returns none. -/
theorem InStep.deliver (hevm : evm.Executes (k.env addressString))
    (hhooks : ∀ postTxProcessing, hooks = some postTxProcessing → postTxProcessing.KeepsLogs)
    {state : BlockState S} (hstep : InStep txHash k.keccak256 state) (next : BlockTx S) :
    InStep txHash k.keccak256
      (k.deliverInBlock addressString cfg evm hooks baseFee headerHash txHash state next) := by
  have hreset : InStep txHash k.keccak256
      { state with store := { state.store with gasUsed := 0 }, ctx := next.ante state.ctx } :=
    ⟨hstep.txIndex_eq, hstep.logSize_eq, hstep.bloom_eq, hstep.numbers, hstep.owned, hstep.failed⟩
  unfold deliverInBlock
  dsimp only
  split
  · exact hreset
  rename_i res store' ctx' happlied
  split
  · exact hreset
  -- the response is added, and the transient store moves on
  obtain ⟨applied, hok, happlied⟩ := bind_eq_ok_iff.mp happlied
  obtain ⟨charged, hcharged, happlied⟩ := bind_eq_ok_iff.mp happlied
  cases happlied
  have hplaced := placed_applyTransaction hevm hhooks hok
  rw [addLogs_eq rfl] at hcharged
  obtain ⟨-, hcharged⟩ := ite_error_eq_ok_iff.mp (mapError_eq_ok_iff.mp hcharged)
  cases hcharged
  have hlogs : returnedLogs (state.responses ++ [(next.tx, applied.1)]) =
      returnedLogs state.responses ++ applied.1.logs := by
    rw [returnedLogs, List.flatMap_append, List.flatMap_singleton]
    rfl
  refine ⟨?_, ?_, ?_, ?_, ?_, ?_⟩
  · simp only [List.length_append, List.length_singleton]
    exact congrArg (· + 1) hstep.txIndex_eq
  · rw [hlogs, List.length_append, ← hstep.logSize_eq]
  · rw [hlogs, createBloom_append, ← hstep.bloom_eq]
  · rw [hlogs, List.map_append, List.length_append, List.range_add, hstep.numbers, hplaced.numbers]
    simp only [TransientStore.txConfig, hstep.logSize_eq]
  · intro i tx res hget log hmem
    rcases lt_or_ge i state.responses.length with hlt | hge
    · rw [List.getElem?_append_left hlt] at hget
      exact hstep.owned i tx res hget log hmem
    · obtain ⟨hi, hlast⟩ := List.getElem?_eq_some_iff.mp hget
      have hi' : i = state.responses.length := by
        rw [List.length_append, List.length_singleton] at hi
        omega
      subst hi'
      rw [List.getElem_concat_length rfl] at hlast
      cases hlast
      obtain ⟨hhash, hindex⟩ := hplaced.owned log hmem
      exact ⟨hhash, hindex.trans hstep.txIndex_eq⟩
  · intro response hmem
    rcases List.mem_append.mp hmem with hold | hnew
    · exact hstep.failed response hold
    · rw [List.mem_singleton.mp hnew]
      exact hplaced.failed

theorem inStep_deliverBlock (hevm : evm.Executes (k.env addressString))
    (hhooks : ∀ postTxProcessing, hooks = some postTxProcessing → postTxProcessing.KeepsLogs)
    (ctx : Ctx S) (txs : List (BlockTx S)) :
    InStep txHash k.keccak256
      (k.deliverBlock addressString cfg evm hooks baseFee headerHash txHash ctx txs) := by
  unfold deliverBlock
  induction txs using List.reverseRecOn with
  | nil =>
    exact ⟨rfl, rfl, rfl, rfl, fun i tx res hget => by simp at hget, fun _ hmem => by simp at hmem⟩
  | append_singleton txs next ih =>
    rw [List.foldl_append]
    exact ih.deliver hevm hhooks next

/-- In every block the logs of the responses are numbered in order without a gap, each with the hash and the
place of its transaction. Failed transactions have none, and `EndBlock` emits the disjunction of the blooms
of the logs. -/
theorem blockLogs_numbered (hevm : evm.Executes (k.env addressString))
    (hhooks : ∀ postTxProcessing, hooks = some postTxProcessing → postTxProcessing.KeepsLogs)
    (ctx : Ctx S) (txs : List (BlockTx S)) :
    let state := k.deliverBlock addressString cfg evm hooks baseFee headerHash txHash ctx txs
    let logs := returnedLogs state.responses
    logs.map (·.index) = List.range logs.length ∧
      (∀ (i : ℕ) tx (res : MsgEthereumTxResponse), state.responses[i]? = some (tx, res) →
        ∀ log ∈ res.logs, log.txHash = txHash tx ∧ log.txIndex = i) ∧
      (∀ response ∈ state.responses, response.2.failed = true → response.2.logs = []) ∧
      endBlock state.store =
        some (logs.foldl (fun bloom log => bloom ||| createBloom k.keccak256 [log]) 0) := by
  intro state logs
  have hstep : InStep txHash k.keccak256 state := inStep_deliverBlock hevm hhooks ctx txs
  refine ⟨hstep.numbers, hstep.owned, hstep.failed, ?_⟩
  rw [endBlock, bytesToBloom, hstep.bloom_eq, if_pos (createBloom_lt _ _), createBloom, Bloom.ofItems_flatMap]
  simp only [createBloom, List.flatMap_singleton]
  rfl

end Keeper

def contractLog (addr : Address) (data : Bytes) : Log := ⟨addr, [zeroHash], data, zeroHash, zeroHash, 0, 0⟩

def loggingEvm {σ : Type} (env : Env σ) : Evm σ where
  create s _ _ gas _ := .ok ⟨[], gas, none, s⟩
  call s _ addr input gas _ :=
    if input = [] then
      .ok ⟨[], gas, none, (s.addLog (contractLog addr input)).addLog (contractLog addr input)⟩
    else
      match (s.snapshot.1.addLog (contractLog addr input)).revertToSnapshot env s.snapshot.2 with
      | none => .error (.panicked "revision id 0 cannot be reverted")
      | some s => .ok ⟨[], gas, some "execution reverted", s⟩
  activePrecompiles := []

theorem loggingEvm_executes {σ : Type} (env : Env σ) : (loggingEvm env).Executes env where
  create {s caller code gas value res} hok := by
    cases hok
    exact ⟨.refl env _ s, fun habs => by cases habs⟩
  call {s caller addr input gas value res} hok := by
    simp only [loggingEvm] at hok
    let addLog : Op σ := .addLog (contractLog addr input)
    split at hok
    · cases hok
      exact ⟨⟨[addLog, addLog], fun _ _ => trivial, rfl⟩, fun habs => by cases habs⟩
    · split at hok
      · cases hok
      · rename_i reverted hrevert
        cases hok
        refine ⟨⟨[.snapshot, addLog, .revertToSnapshot s.snapshot.2], fun _ _ => trivial, ?_⟩, fun _ => ?_⟩
        · change (StateDB.revertToSnapshot env _ _).bind some = _
          rw [hrevert]
          rfl
        · refine ⟨s, .refl env _ s, .inr ⟨[addLog], _, ?_, rfl, hrevert⟩⟩
          intro op hmem
          rw [List.mem_singleton.mp hmem]
          trivial

def loggedTransaction (input : Bytes) (gas : UInt64) : Transaction where
  type := .legacy
  sender := bytesToAddress [0xa1]
  recipient := some (bytesToAddress [0xb0])
  nonce := 0
  gas := gas
  gasFeeCap := 0
  gasTipCap := 0
  value := 0
  data := input
  accessList := []
  setCodeAuthorizations := []
  caps_eq := fun _ => rfl

def loggedBlock : List (Keeper.BlockTx (AuthLedger Evmd.moduleAccounts)) :=
  [⟨id, loggedTransaction [] 100000, false⟩, ⟨id, loggedTransaction [1] 100000, false⟩,
    ⟨id, loggedTransaction [] 0, false⟩, ⟨id, loggedTransaction [] 100000, true⟩,
    ⟨id, loggedTransaction [] 100000, false⟩]

theorem blockLogs_sample :
    let k := Evmd.vmKeeper Evmd.sixDecimalsCoin
    let keepLogs : Hooks (AuthLedger Evmd.moduleAccounts) := fun ctx _ res => .ok (ctx, res.logs)
    let responses := (k.deliverBlock (fun _ => "") pragueConfig (loggingEvm (k.env fun _ => ""))
      (some keepLogs) (some 0) zeroHash (fun tx => bytesToHash tx.data) (Evmd.genesisChain [])
      loggedBlock).responses
    responses.map (fun response => response.2.logs.length) = [2, 0, 2] ∧
      (returnedLogs responses).map (·.index) = List.range 4 := by
  intro k keepLogs responses
  have hkeeps : ∀ postTxProcessing, some keepLogs = some postTxProcessing → postTxProcessing.KeepsLogs := by
    rintro _ ⟨⟩ ctx msg res ctx' logs hok
    cases hok
    rfl
  have hlengths : responses.map (fun response => response.2.logs.length) = [2, 0, 2] := by
    decide +kernel
  have hlength : (returnedLogs responses).length = 4 := by
    unfold returnedLogs
    rw [List.length_flatMap, hlengths]
    rfl
  have hnumbers : (returnedLogs responses).map (·.index) = List.range (returnedLogs responses).length :=
    (Keeper.blockLogs_numbered (loggingEvm_executes (k.env fun _ => "")) hkeeps _ _).1
  rw [hlength] at hnumbers
  exact ⟨hlengths, hnumbers⟩

end CosmosEvm.Vm
