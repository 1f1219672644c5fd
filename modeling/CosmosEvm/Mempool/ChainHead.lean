import CosmosEvm.Sdk.Bytes

namespace CosmosEvm.Mempool.ChainHead

structure Header where
  number : ℕ
  time : ℕ
  gasLimit : ℕ
  gasUsed : ℕ
  parentHash : Hash
  root : Hash
  baseFee : Option ℤ
deriving DecidableEq

def zeroHash : Hash := bytesToHash []

structure LatestCtx where
  height : ℕ
  time : ℕ
  blockGasWanted : ℕ
  appHash : Hash
  baseFee : Option ℤ
deriving DecidableEq

structure Blockchain where
  blockGasLimit : ℕ
  isLondon : ℕ → Bool
  hash : Header → Hash

/-- A `*types.Header`: pointers are compared, so that a header that is made up twice is two heads. -/
structure Head where
  pointer : ℕ
  header : Header
deriving DecidableEq

/-- `zeroHeader`, the placeholder as long as there is no context. -/
def zeroHead : Head := ⟨0, ⟨0, 0, 0, 0, zeroHash, zeroHash, none⟩⟩

namespace Blockchain

variable (b : Blockchain)

def currentBlock (ctx : Option LatestCtx) (previousHeaderHash : Hash) (pointer : ℕ) : Head :=
  match ctx with
  | none => zeroHead
  | some ctx =>
    ⟨pointer, {
      number := ctx.height
      time := ctx.time
      gasLimit := b.blockGasLimit
      gasUsed := ctx.blockGasWanted
      parentHash := previousHeaderHash
      root := ctx.appHash
      baseFee := if b.isLondon ctx.height then ctx.baseFee else none }⟩

/-- `GetBlock`, with `none` for its panic. Whichever block is asked for, it gives the current one. -/
def getBlock (ctx : Option LatestCtx) (previousHeaderHash : Hash) : Option Header :=
  let currBlock := (b.currentBlock ctx previousHeaderHash 0).header
  match currBlock.number with
  | 0 => some { currBlock with parentHash := zeroHash }
  | 1 => some currBlock
  | _ => none

end Blockchain

/-- How far a reset has got with its blocks: it needs none, or it asks for the old and the new one, walks the longer
chain down, and then both of them until they meet. -/
inductive Fetch where
  | over
  | wantRem
  | wantAdd (rem : Header)
  | lowerRem (rem add : Header)
  | lowerAdd (rem add : Header)
  | meetRem (rem add : Header)
  | meetAdd (rem add : Header)
deriving DecidableEq

inductive Turn where
  | getBlock (next : Header → Fetch)
  | goOn (next : Fetch)

namespace Blockchain

variable (b : Blockchain)

def turn : Fetch → Turn
  | .over => .goOn .over
  | .wantRem => .getBlock .wantAdd
  | .wantAdd rem => .getBlock (.lowerRem rem)
  | .lowerRem rem add =>
    if add.number < rem.number then .getBlock (.lowerRem · add) else .goOn (.lowerAdd rem add)
  | .lowerAdd rem add =>
    if rem.number < add.number then .getBlock (.lowerAdd rem) else .goOn (.meetRem rem add)
  | .meetRem rem add => if b.hash rem ≠ b.hash add then .getBlock (.meetAdd · add) else .goOn .over
  | .meetAdd rem _ => .getBlock (.meetRem rem)

def Follows (oldHead newHead : Head) : Prop := b.hash oldHead.header = newHead.header.parentHash

instance (oldHead newHead : Head) : Decidable (b.Follows oldHead newHead) :=
  inferInstanceAs (Decidable (_ = _))

end Blockchain

/-- The reorg is too deep to be done. The distance is exact in `float64` below `2 ^ 53`. -/
def Deep (oldHead newHead : Head) : Prop :=
  64 < ((oldHead.header.number : ℤ) - newHead.header.number).natAbs

instance (oldHead newHead : Head) : Decidable (Deep oldHead newHead) := inferInstanceAs (Decidable (_ < _))

structure Reset where
  oldHead : Head
  newHead : Head
  fetch : Fetch
deriving DecidableEq

def Blockchain.newReset (b : Blockchain) (oldHead newHead : Head) : Reset :=
  ⟨oldHead, newHead, if b.Follows oldHead newHead ∨ Deep oldHead newHead then .over else .wantRem⟩

inductive Notifier where
  | idle
  | made (head : Head)
  | sending (head : Head)
deriving DecidableEq

inductive Source where
  | endBlock
  | eventBus
deriving DecidableEq

def Source.other : Source → Source
  | .endBlock => .eventBus
  | .eventBus => .endBlock

/-- The chain, the two notifiers and the pool. `announced` tells whether `EndBlock` of the block has called, and
`events` counts the block events that the other goroutine has not taken. -/
structure State where
  ctx : Option LatestCtx
  previousHeaderHash : Hash
  notifier : Source → Notifier
  announced : Bool
  events : ℕ
  pointers : ℕ
  subscribed : Bool
  oldHead : Head
  newHead : Head
  reset : Option Reset
  panicked : Bool

inductive Event where
  /-- The store is loaded. -/
  | load (ctx : LatestCtx)
  /-- A block is committed. -/
  | commit (ctx : LatestCtx)
  /-- The loop subscribes to the feed. -/
  | subscribe
  /-- `NotifyNewBlock` makes up the header. -/
  | make (source : Source)
  /-- `NotifyNewBlock` keeps its hash. -/
  | keep (source : Source)
  /-- The feed hands the head to the loop, or to nobody. -/
  | send (source : Source)
  /-- The reset goes on with its blocks. -/
  | fetch
  /-- The reset is over, and the loop is told. -/
  | done
deriving DecidableEq

namespace State

variable (s : State)

def setNotifier (source : Source) (notifier : Notifier) : State :=
  { s with notifier := fun other => if other = source then notifier else s.notifier other }

/-- The call of a notifier begins: `EndBlock` calls once a block, the other one once an event. -/
def call (source : Source) : Option State :=
  match source with
  | .endBlock => if s.announced then none else some { s with announced := true }
  | .eventBus => if s.events = 0 then none else some { s with events := s.events - 1 }

end State

namespace Blockchain

variable (b : Blockchain)

/-- The top of the loop: a reset is started if there is a new head and none is running. -/
def tryReset (s : State) : State :=
  if s.newHead.pointer ≠ s.oldHead.pointer ∧ s.reset = none then
    { s with reset := some (b.newReset s.oldHead s.newHead) }
  else s

/-- One step of one process. `EndBlock` returns before its block is committed. -/
def step (s : State) : Event → Option State
  | .load ctx => if s.ctx = none then some { s with ctx := some ctx } else none
  | .commit ctx =>
    if s.announced ∧ s.notifier .endBlock = .idle then
      some { s with ctx := some ctx, announced := false, events := s.events + 1 }
    else none
  | .subscribe => some { s with subscribed := true }
  | .make source =>
    match s.notifier source with
    | .idle => do
      let called ← s.call source
      let head := b.currentBlock s.ctx s.previousHeaderHash s.pointers
      some ({ called with pointers := s.pointers + 1 }.setNotifier source (.made head))
    | _ => none
  | .keep source =>
    match s.notifier source with
    | .made head => some ({ s with previousHeaderHash := b.hash head.header }.setNotifier source (.sending head))
    | _ => none
  | .send source =>
    match s.notifier source with
    | .sending head =>
      if s.subscribed then some (b.tryReset ({ s with newHead := head }.setNotifier source .idle))
      else some (s.setNotifier source .idle)
    | _ => none
  | .fetch =>
    match s.reset with
    | none => none
    | some reset =>
      match b.turn reset.fetch with
      | .goOn next => some { s with reset := some { reset with fetch := next } }
      | .getBlock next =>
        match b.getBlock s.ctx s.previousHeaderHash with
        | none => some { s with panicked := true }
        | some block => some { s with reset := some { reset with fetch := next block } }
  | .done =>
    match s.reset with
    | none => none
    | some reset =>
      if reset.fetch = .over then some (b.tryReset { s with oldHead := reset.newHead, reset := none })
      else none

def start (ctx : Option LatestCtx) : State :=
  let head := b.currentBlock ctx zeroHash 1
  { ctx
    previousHeaderHash := zeroHash
    notifier := fun _ => .idle
    announced := false
    events := 0
    pointers := 2
    subscribed := false
    oldHead := head
    newHead := head
    reset := none
    panicked := false }

def run (s : State) : List Event → Option State
  | [] => some s
  | event :: rest => if s.panicked then none else (b.step s event).bind (run · rest)

end Blockchain

end CosmosEvm.Mempool.ChainHead
