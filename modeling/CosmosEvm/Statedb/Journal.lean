import CosmosEvm.Lib.SnapshotStack
import CosmosEvm.Lib.UndoLog
import CosmosEvm.Statedb.AccessList

namespace CosmosEvm.Statedb

inductive JournalEntry where
  | createObjectChange (account : Address)
  | resetObjectChange (account : Address) (prev : StateObject)
  | selfDestructChange (account : Address) (prev : Bool) (prevbalance : BitVec 256)
  | balanceChange (account : Address) (prev : BitVec 256)
  | nonceChange (account : Address) (prev : UInt64)
  | storageChange (account : Address) (key prevalue : Hash)
  | transientStorageChange (account : Address) (key prevalue : Hash)
  | codeChange (account : Address) (prevcode : Option Bytes) (prevhash : Hash)
  | refundChange (prev : UInt64)
  | addLogChange
  | accessListAddAccountChange (address : Address)
  | accessListAddSlotChange (address : Address) (slot : Hash)
  | precompileCallChange (snapshot : ℕ) (events : List Event)
  | createContractChange (account : Address)

/-- `Dirtied`. Resetting an object that exists does not count as a change to it. -/
def JournalEntry.dirtied : JournalEntry → Option Address
  | .createObjectChange account => some account
  | .selfDestructChange account _ _ => some account
  | .balanceChange account _ => some account
  | .nonceChange account _ => some account
  | .storageChange account _ _ => some account
  | .codeChange account _ _ => some account
  | _ => none

abbrev Dirties := Finmap fun _ : Address => ℤ

namespace Dirties

def increment (dirties : Dirties) : Option Address → Dirties
  | none => dirties
  | some addr => dirties.insert addr ((dirties.lookup addr).getD 0 + 1)

/-- `j.dirties[*addr]--`, and the account is no longer dirty when no change is left. -/
def decrement (dirties : Dirties) : Option Address → Dirties
  | none => dirties
  | some addr =>
    let count := (dirties.lookup addr).getD 0 - 1
    if count = 0 then dirties.erase addr else dirties.insert addr count

end Dirties

structure Journal where
  entries : List JournalEntry
  dirties : Dirties

def Journal.append (journal : Journal) (entry : JournalEntry) : Journal where
  entries := journal.entries ++ [entry]
  dirties := journal.dirties.increment entry.dirtied

def Journal.sortedDirties (journal : Journal) : List Address :=
  FixedBytes.sorted journal.dirties.keys

structure TxConfig where
  blockHash : Hash
  txHash : Hash
  txIndex : ℕ
  logIndex : ℕ

structure Log where
  address : Address
  topics : List Hash
  data : Bytes
  txHash : Hash
  blockHash : Hash
  txIndex : ℕ
  index : ℕ
deriving DecidableEq

structure Revision where
  id : ℕ
  journalIndex : ℕ

/-- What `cache()` sets up for precompile calls: the multi-store of `cacheCtx`, which is also the
`snapshotter`, the events of `cacheCtx`, and the events that `writeCache` emits when it is not those. -/
structure CacheContext (σ : Type) where
  snapshotter : SnapshotStack σ
  events : List Event
  writeEvents : Option (List Event)

structure StateDB (σ : Type) where
  ctx : Context σ
  cache : Option (CacheContext σ)
  transientStorage : TransientStorage
  journal : Journal
  validRevisions : List Revision
  nextRevisionID : ℕ
  stateObjects : Finmap fun _ : Address => StateObject
  txConfig : TxConfig
  refund : UInt64
  logs : List Log
  accessList : AccessList
  precompileCallsCounter : UInt8

variable {σ : Type}

def new (ctx : Context σ) (txConfig : TxConfig) : StateDB σ where
  ctx := ctx
  cache := none
  transientStorage := ∅
  journal := ⟨[], ∅⟩
  validRevisions := []
  nextRevisionID := 0
  stateObjects := ∅
  txConfig := txConfig
  refund := 0
  logs := []
  accessList := .new
  precompileCallsCounter := 0

namespace StateDB

def append (s : StateDB σ) (entry : JournalEntry) : StateDB σ :=
  { s with journal := s.journal.append entry }

def setStateObject (s : StateDB σ) (addr : Address) (obj : StateObject) : StateDB σ :=
  { s with stateObjects := s.stateObjects.insert addr obj }

def getStateObject (env : Env σ) (s : StateDB σ) (addr : Address) : Option StateObject × StateDB σ :=
  match s.stateObjects.lookup addr with
  | some obj => (some obj, s)
  | none =>
    match env.keeper.getAccount s.ctx.store addr with
    | none => (none, s)
    | some account =>
      let obj := newObject account
      (some obj, s.setStateObject addr obj)

def updateStateObject (env : Env σ) (s : StateDB σ) (addr : Address)
    (change : StateObject → StateObject) : Option (StateDB σ) :=
  match s.getStateObject env addr with
  | (none, _) => none
  | (some obj, s) => some (s.setStateObject addr (change obj))

def revertMultiStore (s : StateDB σ) (snapshot : ℕ) (events : List Event) : Option (StateDB σ) :=
  match s.cache with
  | none => none
  | some cache =>
    (cache.snapshotter.revertTo snapshot).map fun snapshotter =>
      { s with cache := some { cache with snapshotter, writeEvents := some events } }

end StateDB

def JournalEntry.revert (env : Env σ) (s : StateDB σ) : JournalEntry → Option (StateDB σ)
  | .createObjectChange account => some { s with stateObjects := s.stateObjects.erase account }
  | .resetObjectChange account prev => some (s.setStateObject account prev)
  | .selfDestructChange account prev prevbalance =>
    match s.getStateObject env account with
    | (none, s) => some s
    | (some obj, s) => some (s.setStateObject account
        ({ obj with selfDestructed := prev }.setBalance prevbalance))
  | .balanceChange account prev => s.updateStateObject env account fun obj => obj.setBalance prev
  | .nonceChange account prev => s.updateStateObject env account fun obj => obj.setNonce prev
  | .storageChange account key prevalue =>
    s.updateStateObject env account fun obj => obj.setState key prevalue
  | .transientStorageChange account key prevalue =>
    some { s with transientStorage := s.transientStorage.set account key prevalue }
  | .codeChange account prevcode prevhash =>
    s.updateStateObject env account fun obj => obj.setCode prevhash prevcode
  | .refundChange prev => some { s with refund := prev }
  | .addLogChange => if s.logs = [] then none else some { s with logs := s.logs.dropLast }
  | .accessListAddAccountChange address =>
    some { s with accessList := s.accessList.deleteAddress address }
  | .accessListAddSlotChange address slot =>
    (s.accessList.deleteSlot address slot).map fun accessList => { s with accessList }
  | .precompileCallChange snapshot events => s.revertMultiStore snapshot events
  | .createContractChange account =>
    s.updateStateObject env account fun obj => { obj with newContract := false }

namespace StateDB

def undoEntry (env : Env σ) (entry : JournalEntry) (s : StateDB σ) : Option (StateDB σ) :=
  (entry.revert env s).map fun s =>
    { s with journal := { s.journal with dirties := s.journal.dirties.decrement entry.dirtied } }

/-- `journal.Revert`, whose loop runs over the entries from the last one down. -/
def revertJournal (env : Env σ) (s : StateDB σ) (snapshot : ℕ) : Option (StateDB σ) :=
  (UndoLog.undoAll (undoEntry env) (s.journal.entries.drop snapshot) s).map fun s =>
    { s with journal := { s.journal with entries := s.journal.entries.take snapshot } }

def snapshot (s : StateDB σ) : StateDB σ × ℕ :=
  ({ s with
      nextRevisionID := s.nextRevisionID + 1
      validRevisions := s.validRevisions ++ [⟨s.nextRevisionID, s.journal.entries.length⟩] },
    s.nextRevisionID)

/-- `RevertToSnapshot`. The identifiers are in order, so that the binary search finds the first that is
not smaller. -/
def revertToSnapshot (env : Env σ) (s : StateDB σ) (revid : ℕ) : Option (StateDB σ) :=
  let idx := s.validRevisions.findIdx fun revision => revid ≤ revision.id
  match s.validRevisions[idx]? with
  | none => none
  | some revision =>
    if revision.id ≠ revid then none
    else (s.revertJournal env revision.journalIndex).map fun s =>
      { s with validRevisions := s.validRevisions.take idx }

end StateDB

end CosmosEvm.Statedb
