import CosmosEvm.Lib.Transition
import CosmosEvm.Rpc.NextBaseFee

/-!
# `eth_feeHistory`

`FeeHistory` fetches its blocks in batches of four. Each fetcher is a goroutine that writes its own slots,
or reports what went wrong over an unbuffered channel.
-/

namespace CosmosEvm.Rpc.FeeHistory

inductive Call (α : Type) where
  | returns (value : Option α) (err : Option String)
  | panics (text : String)

def nilDereference : String := "runtime error: invalid memory address or nil pointer dereference"

/-- Who asks the node. The answers may differ, since time passes between the calls. -/
inductive Asker where
  | feeHistory
  | cometBlock (index : ℕ)
  | ethBlock (index : ℕ)
  | blockResult (index : ℕ)

structure BlockFees extends OneFeeHistory where
  reward : List ℤ
  gasUsedRatio : Float

structure Backend (B E R : Type) where
  height : B → ℤ
  blockNumber : Asker → Except String UInt64
  /-- `RPCClient.Block`, whose response may have no block in it. -/
  clientBlock : Asker → ℤ → Call (Option B)
  /-- `RPCClient.BlockResults`, of the latest block where no height is given. -/
  clientBlockResults : Asker → Option ℤ → Call R
  rpcBlockFromCometBlock : B → Option R → Call E
  processBlocker : B → E → List Float → R → Call BlockFees
  feeHistoryCap : Int32
  /-- go-ethereum's `EarliestBlockNumber`. -/
  earliestBlockNumber : ℤ

section Fetch

variable {B E R : Type} (b : Backend B E R)

def safeHexToInt64 (value : UInt64) : Except String ℤ :=
  if 2 ^ 63 ≤ value.toNat then
    .error ("hexutil.Uint64 value 0x" ++ String.ofList (Nat.toDigits 16 value.toNat) ++
      " cannot exceed 9223372036854775807")
  else .ok value.toNat

def getHeightByBlockNum (asker : Asker) (blockNum : ℤ) : Except String ℤ :=
  if blockNum ≤ 0 then do
    let n ← b.blockNumber asker
    safeHexToInt64 n
  else .ok blockNum

def cometBlockByNumber (asker : Asker) (blockNum : ℤ) : Call B :=
  match getHeightByBlockNum b asker blockNum with
  | .error err => .returns none (some err)
  | .ok height =>
    match b.clientBlock asker height with
    | .panics text => .panics text
    | .returns _ (some err) => .returns none (some err)
    | .returns none none => .panics nilDereference
    | .returns (some none) none => .returns none none
    | .returns (some (some block)) none => .returns (some block) none

/-- `GetBlockByNumber`, which gives no error for most of what goes wrong. -/
def getBlockByNumber (asker : Asker) (blockNum : ℤ) : Call E :=
  match cometBlockByNumber b asker blockNum with
  | .panics text => .panics text
  | .returns _ (some _) => .returns none none
  | .returns none none => .returns none none
  | .returns (some block) none =>
    match b.clientBlockResults asker (some (b.height block)) with
    | .panics text => .panics text
    | .returns _ (some _) => .returns none none
    | .returns blockRes none =>
      match b.rpcBlockFromCometBlock block blockRes with
      | .panics text => .panics text
      | .returns _ (some err) => .returns none (some err)
      | .returns res none => .returns res none

/-- `CometBlockResultByNumber`; the error of a request for the latest block dereferences its nil height. -/
def cometBlockResultByNumber (asker : Asker) (height : ℤ) : Call R :=
  match b.clientBlockResults asker (if height = 0 then none else some height) with
  | .panics text => .panics text
  | .returns _ (some err) =>
    if height = 0 then .panics nilDereference
    else .returns none (some (s!"failed to fetch block result from CometBFT {height}: " ++ err))
  | .returns res none => .returns res none

inductive Fetched where
  | done (fees : BlockFees)
  | failed (err : Option String)

def recovered (text : String) : Fetched := .failed (some (text ++ ": panic"))

/-- A nil pointer sends the error of its call, which may be nil as well. -/
def Call.orSend {α : Type} (call : Call α) (next : α → Fetched) : Fetched :=
  match call with
  | .panics text => recovered text
  | .returns none err => .failed err
  | .returns (some value) _ => next value

/-- The end of a fetcher, once its block is processed: an error is sent, and copying the rewards panics where
there are too few. -/
def copyFees (rewardCount : ℕ) : Call BlockFees → Fetched
  | .panics text => recovered text
  | .returns _ (some err) => .failed (some err)
  | .returns none none => recovered nilDereference
  | .returns (some fees) none =>
    if fees.reward.length < rewardCount then
      recovered (s!"runtime error: index out of range [{fees.reward.length}] with length {fees.reward.length}")
    else .done fees

/-- A fetcher. The missing block result is logged with its error, which panics where that is nil. -/
def fetch (rewardPercentiles : List Float) (blockStart : ℤ) (index : ℕ) : Fetched :=
  (cometBlockByNumber b (.cometBlock index) (blockStart + index)).orSend fun cometBlock =>
    (getBlockByNumber b (.ethBlock index) (blockStart + index)).orSend fun ethBlock =>
      match cometBlockResultByNumber b (.blockResult index) (b.height cometBlock) with
      | .returns none none => recovered nilDereference
      | call => call.orSend fun cometBlockResult =>
        copyFees rewardPercentiles.length
          (b.processBlocker cometBlock ethBlock rewardPercentiles cometBlockResult)

end Fetch

def checkPercentiles (i : ℕ) (previous : Option Float) : List Float → Except String Unit
  | [] => .ok ()
  | p :: rest =>
    if p < 0 ∨ 100 < p then .error s!"invalid reward percentile: {p}"
    else
      match previous with
      | none => checkPercentiles (i + 1) (some p) rest
      | some q =>
        if p < q then .error s!"invalid reward percentile: #{i - 1}:{q} > #{i}:{p}"
        else checkPercentiles (i + 1) (some p) rest

structure Plan where
  blockStart : ℤ
  blocks : ℕ
deriving DecidableEq

inductive Prepared where
  | refused (err : String)
  | panicked (text : String)
  | started (plan : Plan)
deriving DecidableEq

section Prepare

variable {B E R : Type} (b : Backend B E R)

/-- The last block: the tags below zero, but for the earliest one, stand for the head. -/
def blockEnd (head lastBlock : ℤ) : ℤ :=
  if lastBlock = b.earliestBlockNumber then 0 else if lastBlock < 0 then head else lastBlock

/-- The number of blocks, and the slices made for them. A negative length panics. -/
def makeSlices (blockEnd blocks : ℤ) : Prepared :=
  if blocks < 0 then .panicked "runtime error: makeslice: len out of range"
  else .started ⟨blockEnd + 1 - blocks, blocks.toNat⟩

/-- `FeeHistory` up to its loop, for a head that `int64` holds with room to spare. -/
def prepare (userBlockCount : UInt64) (lastBlock : ℤ) (rewardPercentiles : List Float) : Prepared :=
  match checkPercentiles 0 none rewardPercentiles with
  | .error err => .refused err
  | .ok () =>
    match b.blockNumber .feeHistory with
    | .error err => .refused err
    | .ok blkNumber =>
      let head : ℤ := blkNumber.toNat
      let last := blockEnd b head lastBlock
      let blocks := userBlockCount.toInt64.toInt
      if head < last then .refused s!"request beyond head block: requested {last}, head {head}"
      else if b.feeHistoryCap.toInt < blocks then
        .refused s!"FeeHistory user block count {blocks} higher than {b.feeHistoryCap.toInt}"
      else makeSlices last (if last < 2 ^ 63 - 1 ∧ last + 1 < blocks then last + 1 else blocks)

end Prepare

structure FeeHistoryResult where
  oldestBlock : ℤ
  reward : List (List (Option ℤ))
  baseFee : List (Option ℤ)
  gasUsedRatio : List Float

inductive Fetcher where
  | running
  | sending (err : Option String)
  | finished

inductive Waiter where
  | absent
  | waiting
  | closed

inductive Main where
  | launching
  | selecting
  | returned (result : Option FeeHistoryResult) (err : Option String)

structure State where
  batch : ℕ
  fetchers : List Fetcher
  waiter : Waiter
  main : Main
  reward : List (List (Option ℤ))
  baseFee : List (Option ℤ)
  gasUsedRatio : List Float

def maxBlockFetchers : ℕ := 4

namespace Plan

variable (plan : Plan) (rewardCount : ℕ)

def batchSize (batch : ℕ) : ℕ := min maxBlockFetchers (plan.blocks - batch)

def result (s : State) : FeeHistoryResult where
  oldestBlock := plan.blockStart
  reward := if rewardCount = 0 then [] else s.reward
  baseFee := s.baseFee
  gasUsedRatio := s.gasUsedRatio

def nextBatch (s : State) : State :=
  if s.batch < plan.blocks then { s with main := .launching }
  else { s with main := .returned (some (plan.result rewardCount s)) none }

def initial : State :=
  plan.nextBatch rewardCount
    { batch := 0
      fetchers := []
      waiter := .absent
      main := .launching
      reward := List.replicate plan.blocks (List.replicate rewardCount none)
      baseFee := List.replicate (plan.blocks + 1) none
      gasUsedRatio := List.replicate plan.blocks 0 }

end Plan

namespace State

variable (s : State)

/-- The copy of the fees of a block into its slots. The last block fills in the base fee after it as well. -/
def copy (rewardCount index : ℕ) (fees : BlockFees) : State :=
  let baseFee := s.baseFee.set index (some fees.baseFee)
  { s with
    baseFee :=
      if index + 2 = s.baseFee.length then baseFee.set (index + 1) (some fees.nextBaseFee) else baseFee
    gasUsedRatio := s.gasUsedRatio.set index fees.gasUsedRatio
    reward := s.reward.set index ((fees.reward.take rewardCount).map some) }

def setFetcher (i : ℕ) (fetcher : Fetcher) : State := { s with fetchers := s.fetchers.set i fetcher }

end State

inductive Step (plan : Plan) (rewardCount : ℕ) (fetched : ℕ → Fetched) : State → State → Prop where
  /-- `FeeHistory` starts a fetcher. -/
  | launch {s : State} (hmain : s.main = .launching) (hlt : s.fetchers.length < plan.batchSize s.batch)
      (hvalue : s.batch + s.fetchers.length < 2 ^ 31) :
      Step plan rewardCount fetched s { s with fetchers := s.fetchers ++ [.running] }
  /-- The index of a fetcher does not fit in `int32`. -/
  | overflow {s : State} (hmain : s.main = .launching) (hlt : s.fetchers.length < plan.batchSize s.batch)
      (hvalue : 2 ^ 31 ≤ s.batch + s.fetchers.length) :
      Step plan rewardCount fetched s { s with main := .returned none (some
        s!"integer overflow: calculated value {s.batch + s.fetchers.length} exceeds int32 limits") }
  /-- `FeeHistory` starts the waiter and selects. -/
  | await {s : State} (hmain : s.main = .launching) (hfull : s.fetchers.length = plan.batchSize s.batch) :
      Step plan rewardCount fetched s { s with main := .selecting, waiter := .waiting }
  /-- A fetcher has the fees of its block. -/
  | finish {s : State} {i : ℕ} {fees : BlockFees} (hrunning : s.fetchers[i]? = some .running)
      (hfetched : fetched (s.batch + i) = .done fees) :
      Step plan rewardCount fetched s ((s.copy rewardCount (s.batch + i) fees).setFetcher i .finished)
  /-- A fetcher has something to send. -/
  | fail {s : State} {i : ℕ} {err : Option String} (hrunning : s.fetchers[i]? = some .running)
      (hfetched : fetched (s.batch + i) = .failed err) :
      Step plan rewardCount fetched s (s.setFetcher i (.sending err))
  /-- The select takes an error, and `FeeHistory` returns it. -/
  | receive {s : State} {i : ℕ} {err : Option String} (hmain : s.main = .selecting)
      (hsending : s.fetchers[i]? = some (.sending err)) :
      Step plan rewardCount fetched s { s.setFetcher i .finished with main := .returned none err }
  /-- All fetchers are done, and the waiter closes `wgDone`. -/
  | close {s : State} (hwaiter : s.waiter = .waiting) (hall : ∀ fetcher ∈ s.fetchers, fetcher = .finished) :
      Step plan rewardCount fetched s { s with waiter := .closed }
  /-- The select sees `wgDone` closed, and the loop goes on. -/
  | advance {s : State} (hmain : s.main = .selecting) (hclosed : s.waiter = .closed) :
      Step plan rewardCount fetched s (plan.nextBatch rewardCount
        { s with batch := s.batch + maxBlockFetchers, fetchers := [], waiter := .absent })

end CosmosEvm.Rpc.FeeHistory
