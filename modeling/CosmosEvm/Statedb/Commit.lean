import CosmosEvm.Lib.Result
import CosmosEvm.Statedb.Ops

namespace CosmosEvm.Statedb

variable {σ : Type} (env : Env σ)

def commitStorage (ctx : Context σ) (addr : Address) (obj : StateObject) : Context σ :=
  (FixedBytes.sorted obj.dirtyStorage.keys).foldl (fun ctx key =>
    let valueBytes := ((obj.dirtyStorage.lookup key).getD zeroHash).bytes
    if valueBytes.length = 0 then env.keeper.deleteState ctx addr key
    else env.keeper.setState ctx addr key valueBytes) ctx

def commitCode (ctx : Context σ) (obj : StateObject) : Context σ :=
  match obj.code, obj.dirtyCode with
  | some code, true =>
    if code.length = 0 then env.keeper.deleteCode ctx obj.account.codeHash
    else env.keeper.setCode ctx obj.account.codeHash code
  | _, _ => ctx

def commitObject (ctx : Context σ) (addr : Address) (obj : StateObject) : Except Err (Context σ) :=
  if obj.selfDestructed then
    (env.keeper.deleteAccount ctx addr).mapError
      (Err.wrap ("failed to delete account " ++ env.addressString addr))
  else do
    let ctx := commitCode env ctx obj
    let ctx ← (env.keeper.setAccount ctx addr obj.account).mapError
      (Err.wrap "failed to set account")
    return commitStorage env ctx addr obj

namespace StateDB

variable (env : Env σ) (s : StateDB σ)

def commitAddress (ctx : Context σ) (addr : Address) : Except Err (Context σ) :=
  match s.stateObjects.lookup addr with
  | none => .error (.panicked "nil pointer dereference")
  | some obj => commitObject env ctx addr obj

def commitWithCtx (ctx : Context σ) : Except Err (Context σ) :=
  Result.run (s.commitAddress env) ctx s.journal.sortedDirties

/-- The context after `writeCache`, which does nothing before the first precompile call. -/
def writeCache : Context σ :=
  match s.cache with
  | none => s.ctx
  | some cache =>
    { (s.ctx.emitEvents (cache.writeEvents.getD cache.events)) with
      store := cache.snapshotter.current }

def commit : Except Err (Context σ) :=
  s.commitWithCtx env s.writeCache

/-- `GetCacheContext`, which sets the cache up when there is none yet. -/
def getCacheContext : CacheContext σ × StateDB σ :=
  let cache := s.cache.getD ⟨⟨s.ctx.store, []⟩, [], none⟩
  (cache, { s with cache := some cache })

def cacheCtx : Context σ :=
  let cache := s.getCacheContext.1
  ⟨cache.snapshotter.current, cache.events⟩

def putCacheCtx (ctx : Context σ) : StateDB σ :=
  let cache := s.getCacheContext.1
  { s with cache := some { cache with
      snapshotter := cache.snapshotter.put ctx.store
      events := ctx.events } }

/-- `MultiStoreSnapshot` on the cache context of a StateDB, with the index it returns. -/
def multiStoreSnapshot : ℕ × StateDB σ :=
  let (cache, s) := s.getCacheContext
  (cache.snapshotter.layers.length,
    { s with cache := some { cache with snapshotter := cache.snapshotter.snapshot } })

def maxPrecompileCalls : UInt8 := 7

def addPrecompileFn (snapshot : ℕ) (events : List Event) : Option Err × StateDB σ :=
  let counter := s.precompileCallsCounter + 1
  let s := { s.append (.precompileCallChange snapshot events) with precompileCallsCounter := counter }
  if maxPrecompileCalls < counter then
    (some (.wrapped .other s!"max calls to precompiles ({maxPrecompileCalls}) reached"), s)
  else (none, s)

def recordPrecompileCall : Option Err × StateDB σ :=
  let (cache, s) := s.getCacheContext
  let (snapshot, s) := s.multiStoreSnapshot
  s.addPrecompileFn snapshot cache.events

def commitWithCacheCtx : Except Err (StateDB σ) := do
  let ctx ← s.commitWithCtx env s.cacheCtx
  return s.putCacheCtx ctx

/-- The precompile itself, after the commit of the dirty objects, works on `cacheCtx`. -/
def runInCacheCtx (body : Context σ → Except Err (Context σ)) : Except Err (StateDB σ) := do
  let s ← s.commitWithCacheCtx env
  let ctx ← body s.cacheCtx
  return s.putCacheCtx ctx

/-- A precompile call from `RunSetup` on, with its error. What a failed call has written is left out: the
EVM reverts it. -/
def runPrecompile (body : Context σ → Except Err (Context σ)) : Option Err × StateDB σ :=
  match s.recordPrecompileCall with
  | (some err, s) => (some err, s)
  | (none, s) =>
    match s.runInCacheCtx env body with
    | .error err => (some err, s)
    | .ok s => (none, s)

end StateDB

end CosmosEvm.Statedb
