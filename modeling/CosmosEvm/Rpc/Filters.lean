import CosmosEvm.Lib.Result
import CosmosEvm.Sdk.Hex
import CosmosEvm.Vm.Bloom

namespace CosmosEvm.Rpc.Filters

open Result

structure BlockLog extends Statedb.Log where
  blockNumber : ℕ
deriving DecidableEq

structure TxResponse where
  hash : Hash
  logs : List Statedb.Log

structure TxResult where
  responses : Except Err (List TxResponse)
  events : List Event

structure BlockResults where
  height : ℤ
  txsResults : List TxResult
  finalizeBlockEvents : List Event

/-- The node behind the backend, with the decoding of a log from its JSON and of a bloom from its bytes.
`block_results` are those of the latest block where no height is given. -/
structure Backend where
  cometBlockByHash : Hash → Except Err ℤ
  blockResults : Option ℤ → Except Err BlockResults
  latestHeader : Except Err (Option ℕ)
  unmarshalLog : String → Except Err BlockLog
  bytesToBloom : String → Except Err ℕ
  keccak256 : Bytes → Hash

structure FilterCriteria where
  blockHash : Option Hash
  fromBlock : ℤ
  toBlock : ℤ
  addresses : List Address
  topics : List (List Hash)

def eventTypeTxLog : String := "tx_log"

def attributeKeyTxLog : String := "txLog"

def eventTypeBlockBloom : String := "block_bloom"

def attributeKeyEthereumBloom : String := "bloom"

def logsFromTxResponse (response : TxResponse) (blockNumber : ℕ) : List BlockLog :=
  response.logs.map fun log => { log with txHash := response.hash, blockNumber }

namespace Backend

variable (b : Backend)

def parseTxLogsFromEvent (event : Event) : Except Err (List BlockLog) :=
  (event.attributes.filter fun attr => attr.1 = attributeKeyTxLog).mapM fun attr =>
    b.unmarshalLog attr.2

/-- `DecodeTxLogsFromEvents`. The events count where the responses hold no log. -/
def decodeTxLogsFromEvents (result : TxResult) (blockNumber : ℕ) : Except Err (List BlockLog) := do
  let responses ← result.responses
  let logs := responses.flatMap fun response => logsFromTxResponse response blockNumber
  if logs = [] then
    let decoded ← (result.events.filter fun event => event.type = eventTypeTxLog).mapM b.parseTxLogsFromEvent
    return decoded.flatten
  else return logs

def getLogsFromBlockResults (res : BlockResults) : Except Err (List (List BlockLog)) :=
  if res.height < 0 then .error (.wrapped .other s!"invalid value: {res.height}")
  else res.txsResults.mapM fun result => b.decodeTxLogsFromEvents result res.height.toNat

def blockBloomFrom : List Event → Except Err ℕ
  | [] => .error (.wrapped .other "block bloom event is not found")
  | event :: events =>
    if event.type ≠ eventTypeBlockBloom then blockBloomFrom events
    else
      match event.getAttribute attributeKeyEthereumBloom with
      | some value => b.bytesToBloom value
      | none => blockBloomFrom events

def blockBloom (res : BlockResults) : Except Err ℕ := b.blockBloomFrom res.finalizeBlockEvents

/-- `CometBlockResultByNumber`. The error of the latest block is reported with a height that is nil. -/
def cometBlockResultByNumber (height : Option ℤ) : Except Err BlockResults :=
  let height := if height = some 0 then none else height
  (b.blockResults height).mapError fun err =>
    match height with
    | none => .panicked "invalid memory address or nil pointer dereference"
    | some height => err.wrap s!"failed to fetch block result from CometBFT {height}"

end Backend

def matchesRule (rule : List Hash) (topic : Option Hash) : Bool :=
  rule.isEmpty || rule.any fun wanted => topic = some wanted

def filterLogs (logs : List BlockLog) (fromBlock toBlock : Option ℤ) (addresses : List Address)
    (topics : List (List Hash)) : List BlockLog :=
  logs.filter fun log =>
    !(fromBlock.any fun number => decide (0 ≤ number ∧ (log.blockNumber : ℤ) < number)) &&
      !(toBlock.any fun number => decide (0 ≤ number ∧ number < (log.blockNumber : ℤ))) &&
      (addresses.isEmpty || addresses.contains log.address) &&
      decide (topics.length ≤ log.topics.length) &&
      topics.zipIdx.all fun (rule, i) => matchesRule rule log.topics[i]?

/-- `bloomFilter`, where `BloomLookup` tests the bits of an item. -/
def bloomFilter (keccak256 : Bytes → Hash) (bloom : ℕ) (addresses : List Address)
    (topics : List (List Hash)) : Bool :=
  let lookup := Bloom.test (Vm.bloomBits keccak256) bloom
  (addresses.isEmpty || addresses.any fun addr => lookup addr.bytes) &&
    topics.all fun rule => rule.isEmpty || rule.any fun topic => lookup topic.bytes

inductive Special where
  | pending
  | latest
  | finalized
  | safe
  | earliest

def Special.number : Special → ℤ
  | .pending => -1
  | .latest => -2
  | .finalized => -3
  | .safe => -4
  | .earliest => -5

def resolveSpecial (head : ℕ) (number : ℤ) : Except Err ℕ :=
  if number = Special.latest.number ∨ number = Special.finalized.number ∨ number = Special.safe.number then
    .ok head
  else if number = Special.earliest.number then .ok 1
  else if number < 0 then .error (.wrapped .other "negative block number")
  else .ok number.toNat

namespace Backend

variable (b : Backend) (criteria : FilterCriteria)

def blockLogs (res : BlockResults) (bloom : ℕ) : Except Err (List BlockLog) :=
  if ¬ bloomFilter b.keccak256 bloom criteria.addresses criteria.topics then .ok []
  else do
    let logsList ← (b.getLogsFromBlockResults res).mapError
      (Err.wrap s!"failed to fetch logs block number {res.height}")
    return filterLogs logsList.flatten none none criteria.addresses criteria.topics

def collect (logLimit : ℤ) (logs : List BlockLog) (height : ℕ) : Except Err (List BlockLog) := do
  let res ← (b.cometBlockResultByNumber (some height)).mapError
    (Err.wrap "failed to fetch block result from CometBFT")
  let bloom ← (b.blockBloom res).mapError
    (Err.wrap "failed to query block bloom filter from block results")
  let filtered ← (b.blockLogs criteria res bloom).mapError
    (Err.wrap s!"failed to fetch block by number {height}")
  if logLimit < logs.length + filtered.length then
    .error (.wrapped .other s!"query returned more than {logLimit} results")
  else .ok (logs ++ filtered)

def logsByHash (hash : Hash) : Except Err (List BlockLog) := do
  let text := String.ofList (['0', 'x'] ++ Hex.encodeToString hash.bytes)
  let height ← (b.cometBlockByHash hash).mapError (Err.wrap s!"failed to fetch header by hash {text}")
  let res ← b.cometBlockResultByNumber (some height)
  let bloom ← b.blockBloom res
  b.blockLogs criteria res bloom

def logsInRange (logLimit blockLimit : ℤ) (head : ℕ) : Except Err (List BlockLog) := do
  let first ← resolveSpecial head criteria.fromBlock
  let last ← resolveSpecial head criteria.toBlock
  if head < first ∨ last < first then .error (.wrapped .other "invalid block range params")
  else if head < last then .error (.wrapped .other "invalid block range params")
  else if 0 < blockLimit ∧ blockLimit < ((last - first : ℕ) : ℤ) then
    .error (.wrapped .other s!"maximum [from, to] blocks distance: {blockLimit}")
  else Result.run (b.collect criteria logLimit) [] (List.range' first (last + 1 - first))

def logs (logLimit blockLimit : ℤ) : Except Err (List BlockLog) :=
  if blockLimit = 0 then .ok []
  else
    match criteria.blockHash.filter (· ≠ Statedb.zeroHash) with
    | some hash => b.logsByHash criteria hash
    | none =>
      if criteria.fromBlock = Special.pending.number ∨ criteria.toBlock = Special.pending.number then
        .error (.wrapped .other "pending logs are not supported")
      else do
        let header ← b.latestHeader.mapError (Err.wrap "failed to fetch header by number (latest)")
        match header with
        | none => return []
        | some head => b.logsInRange criteria logLimit blockLimit head

end Backend

/-- The log satisfies the criteria: its address is one of those asked for, and each rule has a topic at its
place, where no address and an empty rule ask for nothing. -/
def FilterCriteria.Matches (criteria : FilterCriteria) (log : BlockLog) : Prop :=
  (criteria.addresses = [] ∨ log.address ∈ criteria.addresses) ∧
    criteria.topics.length ≤ log.topics.length ∧
    ∀ (i : ℕ) rule, criteria.topics[i]? = some rule → rule = [] ∨ ∃ topic ∈ rule, log.topics[i]? = some topic

theorem matchesRule_iff {rule : List Hash} {topic : Option Hash} :
    matchesRule rule topic = true ↔ rule = [] ∨ ∃ wanted ∈ rule, topic = some wanted := by
  simp [matchesRule, List.isEmpty_iff]

theorem all_zipIdx_iff {rules : List (List Hash)} {topics : List Hash} :
    (rules.zipIdx.all fun (rule, i) => matchesRule rule topics[i]?) = true ↔
      ∀ (i : ℕ) rule, rules[i]? = some rule → rule = [] ∨ ∃ topic ∈ rule, topics[i]? = some topic := by
  rw [List.all_eq_true]
  constructor
  · intro hall i rule hget
    exact matchesRule_iff.mp (hall (rule, i) (List.mk_mem_zipIdx_iff_getElem?.mpr hget))
  · rintro hall ⟨rule, i⟩ hmem
    exact matchesRule_iff.mpr (hall i rule (List.mk_mem_zipIdx_iff_getElem?.mp hmem))

instance (criteria : FilterCriteria) (log : BlockLog) : Decidable (criteria.Matches log) :=
  decidable_of_iff ((criteria.addresses = [] ∨ log.address ∈ criteria.addresses) ∧
    criteria.topics.length ≤ log.topics.length ∧
    (criteria.topics.zipIdx.all fun (rule, i) => matchesRule rule log.topics[i]?) = true)
    (and_congr_right fun _ => and_congr_right fun _ => all_zipIdx_iff)

theorem filterLogs_eq (criteria : FilterCriteria) (logs : List BlockLog) :
    filterLogs logs none none criteria.addresses criteria.topics = logs.filter (criteria.Matches ·) := by
  refine List.filter_congr fun log _ => ?_
  rw [Bool.eq_iff_iff, decide_eq_true_iff, FilterCriteria.Matches]
  simp only [Bool.and_eq_true, all_zipIdx_iff]
  simp [List.isEmpty_iff, and_assoc]

def BloomHolds (keccak256 : Bytes → Hash) (bloom : ℕ) (logs : List BlockLog) : Prop :=
  ∀ i, (Vm.createBloom keccak256 (logs.map (·.toLog))).testBit i = true → bloom.testBit i = true

theorem bloomFilter_of_matches {keccak256 : Bytes → Hash} {bloom : ℕ} {logs : List BlockLog}
    {criteria : FilterCriteria} {log : BlockLog} (hholds : BloomHolds keccak256 bloom logs) (hmem : log ∈ logs)
    (hmatches : criteria.Matches log) :
    bloomFilter keccak256 bloom criteria.addresses criteria.topics = true := by
  obtain ⟨haddress, -, htopics⟩ := hmatches
  -- an item of the log is found
  have hfound : ∀ item ∈ Vm.bloomItems log.toLog, Bloom.test (Vm.bloomBits keccak256) bloom item = true := by
    intro item hitem
    refine Bloom.test_of_mem (List.mem_flatMap.mpr ⟨log.toLog, ?_, hitem⟩) hholds
    exact List.mem_map.mpr ⟨log, hmem, rfl⟩
  rw [bloomFilter, Bool.and_eq_true, List.all_eq_true]
  refine ⟨?_, fun rule hrule => ?_⟩
  · rcases haddress with hnone | haddr
    · rw [hnone]
      rfl
    · rw [Bool.or_eq_true, List.any_eq_true]
      exact .inr ⟨log.address, haddr, hfound _ List.mem_cons_self⟩
  · obtain ⟨i, hget⟩ := List.mem_iff_getElem?.mp hrule
    rcases htopics i rule hget with rfl | ⟨topic, htopic, hat⟩
    · rfl
    · rw [Bool.or_eq_true, List.any_eq_true]
      refine .inr ⟨topic, htopic, hfound _ (List.mem_cons_of_mem _ ?_)⟩
      exact List.mem_map.mpr ⟨topic, List.mem_of_getElem? hat, rfl⟩

namespace Backend

variable {b : Backend} {criteria : FilterCriteria}

def resultLogs (b : Backend) (height : Option ℤ) : List BlockLog :=
  match b.blockResults height with
  | .error _ => []
  | .ok res => ((b.getLogsFromBlockResults res).toOption.getD []).flatten

def logsAt (b : Backend) (height : ℕ) : List BlockLog := if height = 0 then [] else b.resultLogs (some height)

def matching (b : Backend) (criteria : FilterCriteria) (first last : ℕ) : List BlockLog :=
  (List.range' first (last + 1 - first)).flatMap fun height => (b.logsAt height).filter (criteria.Matches ·)

def BloomsHold (b : Backend) : Prop :=
  ∀ height res bloom logs, b.blockResults height = .ok res → b.blockBloom res = .ok bloom →
    b.getLogsFromBlockResults res = .ok logs → BloomHolds b.keccak256 bloom logs.flatten

theorem blockLogs_eq {res : BlockResults} {bloom : ℕ} {height : Option ℤ} {logs : List BlockLog}
    (hblooms : b.BloomsHold) (hres : b.blockResults height = .ok res) (hbloom : b.blockBloom res = .ok bloom)
    (hok : b.blockLogs criteria res bloom = .ok logs) :
    logs = (b.resultLogs height).filter (criteria.Matches ·) := by
  unfold blockLogs at hok
  unfold resultLogs
  simp only [hres]
  cases hdecoded : b.getLogsFromBlockResults res with
  | error err =>
    -- nothing is decoded where the bloom skips the block
    rw [hdecoded] at hok
    split at hok <;> cases hok
    rfl
  | ok decoded =>
    change logs = decoded.flatten.filter _
    split at hok
    · rename_i hskip
      cases hok
      symm
      rw [List.filter_eq_nil_iff]
      intro log hmem hmatches
      exact hskip (bloomFilter_of_matches (hblooms height res bloom decoded hres hbloom hdecoded) hmem
        (of_decide_eq_true hmatches))
    · rw [hdecoded] at hok
      cases hok
      exact filterLogs_eq criteria _

/-- The logs that the loop finds at a height: at 0 it reads the latest block. -/
def found (b : Backend) (criteria : FilterCriteria) (height : ℕ) : List BlockLog :=
  (b.resultLogs (if height = 0 then none else some height)).filter (criteria.Matches ·)

theorem collect_eq {logLimit : ℤ} {logs logs' : List BlockLog} {height : ℕ} (hblooms : b.BloomsHold)
    (hok : b.collect criteria logLimit logs height = .ok logs') :
    logs' = logs ++ b.found criteria height ∧ (logs'.length : ℤ) ≤ logLimit := by
  obtain ⟨res, hres, hok⟩ := bind_eq_ok_iff.mp hok
  obtain ⟨bloom, hbloom, hok⟩ := bind_eq_ok_iff.mp hok
  obtain ⟨filtered, hfiltered, hok⟩ := bind_eq_ok_iff.mp hok
  obtain ⟨hlimit, hok⟩ := ite_error_eq_ok_iff.mp hok
  cases hok
  have hresults := mapError_eq_ok_iff.mp (mapError_eq_ok_iff.mp hres)
  have hheight : (if (some (height : ℤ)) = some 0 then none else some (height : ℤ)) =
      if height = 0 then none else some (height : ℤ) := by
    simp
  rw [hheight] at hresults
  refine ⟨?_, ?_⟩
  · rw [found, blockLogs_eq hblooms hresults (mapError_eq_ok_iff.mp hbloom)
      (mapError_eq_ok_iff.mp hfiltered)]
  · rw [List.length_append]
    push_cast
    exact not_lt.mp hlimit

theorem run_collect_eq {logLimit : ℤ} {logs logs' : List BlockLog} {heights : List ℕ} (hblooms : b.BloomsHold)
    (hok : Result.run (b.collect criteria logLimit) logs heights = .ok logs') :
    logs' = logs ++ heights.flatMap (b.found criteria) ∧
      (heights ≠ [] ∨ (logs.length : ℤ) ≤ logLimit → (logs'.length : ℤ) ≤ logLimit) := by
  induction heights generalizing logs with
  | nil =>
    cases hok
    simp
  | cons height heights ih =>
    obtain ⟨middle, hcollect, hrest⟩ := bind_eq_ok_iff.mp hok
    obtain ⟨rfl, hlimit⟩ := collect_eq hblooms hcollect
    obtain ⟨hlogs, hle⟩ := ih hrest
    refine ⟨?_, fun _ => hle (.inr hlimit)⟩
    rw [hlogs, List.flatMap_cons, List.append_assoc]

theorem found_of_pos (b : Backend) (criteria : FilterCriteria) {height : ℕ} (hpos : 0 < height) :
    b.found criteria height = (b.logsAt height).filter (criteria.Matches ·) := by
  rw [found, logsAt, if_neg hpos.ne', if_neg hpos.ne']

theorem resolveSpecial_natCast (head number : ℕ) : resolveSpecial head number = .ok number := by
  have hnonneg : (0 : ℤ) ≤ number := Int.natCast_nonneg number
  have hspecial : ∀ special : Special, (number : ℤ) ≠ special.number := by
    intro special
    cases special <;> simp only [Special.number] <;> omega
  unfold resolveSpecial
  rw [if_neg, if_neg (hspecial .earliest), if_neg (not_lt.mpr hnonneg), Int.toNat_natCast]
  rintro (heq | heq | heq)
  · exact hspecial _ heq
  · exact hspecial _ heq
  · exact hspecial _ heq

theorem run_of_logs {logLimit blockLimit : ℤ} {first last head : ℕ} {logs : List BlockLog}
    (hhash : criteria.blockHash = none ∨ criteria.blockHash = some Statedb.zeroHash)
    (hfirst : criteria.fromBlock = first) (hlast : criteria.toBlock = last)
    (hheader : b.latestHeader = .ok (some head)) (hlimit : blockLimit ≠ 0)
    (hok : b.logs criteria logLimit blockLimit = .ok logs) :
    Result.run (b.collect criteria logLimit) [] (List.range' first (last + 1 - first)) = .ok logs := by
  have hnone : criteria.blockHash.filter (· ≠ Statedb.zeroHash) = none := by
    rcases hhash with hnone | hzero
    · rw [hnone]
      rfl
    · simp [hzero]
  unfold Backend.logs at hok
  rw [if_neg hlimit, hnone] at hok
  obtain ⟨-, hok⟩ := ite_error_eq_ok_iff.mp hok
  obtain ⟨header, hheader', hok⟩ := bind_eq_ok_iff.mp hok
  rw [mapError_eq_ok_iff, hheader] at hheader'
  cases hheader'
  unfold logsInRange at hok
  obtain ⟨first', hfirst', hok⟩ := bind_eq_ok_iff.mp hok
  obtain ⟨last', hlast', hok⟩ := bind_eq_ok_iff.mp hok
  rw [hfirst, resolveSpecial_natCast] at hfirst'
  rw [hlast, resolveSpecial_natCast] at hlast'
  cases hfirst'
  cases hlast'
  obtain ⟨-, hok⟩ := ite_error_eq_ok_iff.mp hok
  obtain ⟨-, hok⟩ := ite_error_eq_ok_iff.mp hok
  obtain ⟨-, hok⟩ := ite_error_eq_ok_iff.mp hok
  exact hok

theorem flatMap_found_eq (b : Backend) (criteria : FilterCriteria) (first last : ℕ) :
    (List.range' first (last + 1 - first)).flatMap (b.found criteria) =
      (if first = 0 then (b.resultLogs none).filter (criteria.Matches ·) else []) ++
        b.matching criteria first last := by
  unfold matching
  have hpositive : ∀ start count, 0 < start → (List.range' start count).flatMap (b.found criteria) =
      (List.range' start count).flatMap fun height => (b.logsAt height).filter (criteria.Matches ·) := by
    intro start count hstart
    refine List.flatMap_congr fun height hmem => ?_
    rw [List.mem_range'_1] at hmem
    exact b.found_of_pos criteria (by omega)
  by_cases hzero : first = 0
  · subst hzero
    have hrange : List.range' 0 (last + 1 - 0) = 0 :: List.range' 1 last := rfl
    rw [if_pos rfl, hrange, List.flatMap_cons, List.flatMap_cons, hpositive 1 last Nat.one_pos]
    rfl
  · rw [if_neg hzero, hpositive first _ (Nat.pos_of_ne_zero hzero), List.nil_append]

/-- `Logs` over a range of blocks up to the head returns exactly the logs that satisfy the criteria, in order
and within the limit, when it does not start at block 0 or the latest block has none of them. -/
theorem logs_exact_iff {logLimit blockLimit : ℤ} {first last head : ℕ} {logs : List BlockLog}
    (hblooms : b.BloomsHold) (hhash : criteria.blockHash = none ∨ criteria.blockHash = some Statedb.zeroHash)
    (hfirst : criteria.fromBlock = first) (hlast : criteria.toBlock = last) (hle : first ≤ last)
    (hheader : b.latestHeader = .ok (some head)) (hlimit : blockLimit ≠ 0)
    (hok : b.logs criteria logLimit blockLimit = .ok logs) :
    logs = b.matching criteria first last ∧ (logs.length : ℤ) ≤ logLimit ↔
      0 < first ∨ (b.resultLogs none).filter (criteria.Matches ·) = [] := by
  have hrun := run_of_logs hhash hfirst hlast hheader hlimit hok
  obtain ⟨hlogs, hwithin⟩ := run_collect_eq hblooms hrun
  have hheights : List.range' first (last + 1 - first) ≠ [] := by
    rw [ne_eq, List.range'_eq_nil_iff]
    omega
  rw [List.nil_append, flatMap_found_eq] at hlogs
  rw [and_iff_left (hwithin (.inl hheights)), hlogs, List.append_left_eq_self]
  by_cases hzero : first = 0
  · simp [hzero]
  · simp [hzero, Nat.pos_of_ne_zero hzero]

end Backend

def tokenLog (data : Bytes) : Statedb.Log :=
  ⟨bytesToAddress [0xb0], [bytesToHash [0xdd]], data, Statedb.zeroHash, Statedb.zeroHash, 0, 0⟩

def tokenKeccak (data : Bytes) : Hash :=
  if data = (bytesToAddress [0xb0]).bytes then
    bytesToHash [41, 27, 107, 188, 168, 121, 214, 132, 51, 126, 229, 226, 188, 165, 209, 140,
      251, 45, 59, 122, 151, 200, 24, 126, 112, 51, 9, 86, 66, 128, 41, 94]
  else if data = (bytesToHash [0xdd]).bytes then
    bytesToHash [172, 80, 123, 159, 139, 248, 106, 216, 187, 119, 15, 113, 205, 43, 25, 146,
      144, 42, 224, 49, 77, 147, 252, 15, 43, 176, 17, 215, 14, 121, 98, 38]
  else Statedb.zeroHash

def oneLogBlock (height : ℕ) : BlockResults where
  height := height
  txsResults := [⟨.ok [⟨Statedb.zeroHash, [tokenLog [lowByte height]]⟩], []⟩]
  finalizeBlockEvents := [⟨eventTypeBlockBloom, [(attributeKeyEthereumBloom, "")]⟩]

def twoBlocks : Backend where
  cometBlockByHash _ := .error (.wrapped .other "block not found")
  blockResults
    | none => .ok (oneLogBlock 2)
    | some height =>
      if 0 < height ∧ height ≤ 2 then .ok (oneLogBlock height.toNat)
      else .error (.wrapped .other "height must be greater than 0 and at most the head")
  latestHeader := .ok (some 2)
  unmarshalLog _ := .error (.wrapped .other "unexpected end of JSON input")
  bytesToBloom _ := .ok (Vm.createBloom tokenKeccak [tokenLog []])
  keccak256 := tokenKeccak

theorem twoBlocks_bloomsHold : twoBlocks.BloomsHold := by
  have hblock : ∀ {height : ℕ} {bloom : ℕ} {logs : List (List BlockLog)},
      twoBlocks.blockBloom (oneLogBlock height) = .ok bloom →
        twoBlocks.getLogsFromBlockResults (oneLogBlock height) = .ok logs →
          BloomHolds tokenKeccak bloom logs.flatten := by
    intro height bloom logs hbloom hlogs
    cases hbloom
    have hdecoded : twoBlocks.getLogsFromBlockResults (oneLogBlock height) =
        .ok [[⟨tokenLog [lowByte height], height⟩]] := by
      simp [Backend.getLogsFromBlockResults, oneLogBlock, Backend.decodeTxLogsFromEvents,
        logsFromTxResponse, tokenLog, bind, Except.bind, pure, Except.pure]
    rw [hdecoded] at hlogs
    cases hlogs
    -- the data of a log is not in the bloom
    exact fun i hbit => hbit
  intro height res bloom logs hres hbloom hlogs
  cases height with
  | none =>
    cases hres
    exact hblock hbloom hlogs
  | some height =>
    simp only [twoBlocks] at hres
    split at hres
    · cases hres
      exact hblock hbloom hlogs
    · cases hres

def tokenCriteria (first last : ℤ) : FilterCriteria :=
  ⟨none, first, last, [bytesToAddress [0xb0]], [[bytesToHash [0xdd]]]⟩

theorem logs_exact_sample : ∃ logs, twoBlocks.logs (tokenCriteria 1 2) 10 5 = .ok logs ∧
    logs = twoBlocks.matching (tokenCriteria 1 2) 1 2 ∧ logs.length = 2 := by
  have hsome : (twoBlocks.logs (tokenCriteria 1 2) 10 5).toOption.isSome = true := by decide +kernel
  obtain ⟨logs, hok⟩ := exists_eq_ok_of_isSome hsome
  have hfirst : (tokenCriteria 1 2).fromBlock = (1 : ℕ) := rfl
  have hlast : (tokenCriteria 1 2).toBlock = (2 : ℕ) := rfl
  have hexact := (Backend.logs_exact_iff twoBlocks_bloomsHold (.inl rfl) hfirst hlast (by decide) rfl
    (by decide) hok).mpr (.inl Nat.one_pos)
  refine ⟨logs, hok, hexact.1, ?_⟩
  rw [hexact.1]
  decide +kernel

/-- Block 0 is read as the latest block: its log is returned for a range that it is not in, and twice for one
that it is in. -/
theorem logs_from_zero :
    let numbers first last := ((twoBlocks.logs (tokenCriteria first last) 10 5).toOption.map fun logs =>
      logs.map (·.blockNumber))
    numbers 0 1 = some [2, 1] ∧ numbers 0 2 = some [2, 1, 2] ∧
      (twoBlocks.matching (tokenCriteria 0 1) 0 1).map (·.blockNumber) = [1] ∧
      (twoBlocks.matching (tokenCriteria 0 2) 0 2).map (·.blockNumber) = [1, 2] := by
  decide +kernel

end CosmosEvm.Rpc.Filters
