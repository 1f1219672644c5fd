import CosmosEvm.Statedb.Commit

namespace CosmosEvm.Statedb

inductive CacheOp (σ : Type) where
  | write (change : σ → σ)
  | emitEvents (events : List Event)
  | cacheMultiStore
  | revertBranch (depth : ℕ)

variable {σ : Type}

def CacheOp.exec (snapshot : ℕ) (cache : CacheContext σ) : CacheOp σ → Option (CacheContext σ)
  | .write change =>
    some { cache with snapshotter := cache.snapshotter.put (change cache.snapshotter.current) }
  | .emitEvents events => some { cache with events := cache.events ++ events }
  | .cacheMultiStore => some { cache with snapshotter := cache.snapshotter.snapshot }
  | .revertBranch depth =>
    (cache.snapshotter.revertTo (snapshot + 1 + depth)).map fun snapshotter =>
      { cache with snapshotter }

def CacheOp.run (snapshot : ℕ) : CacheContext σ → List (CacheOp σ) → Option (CacheContext σ)
  | cache, [] => some cache
  | cache, op :: ops => (op.exec snapshot cache).bind fun cache => run snapshot cache ops

inductive Op (σ : Type) where
  | addBalance (addr : Address) (amount : BitVec 256)
  | subBalance (addr : Address) (amount : BitVec 256)
  | setNonce (addr : Address) (nonce : UInt64)
  | setCode (addr : Address) (code : Option Bytes)
  | setState (addr : Address) (key value : Hash)
  | setTransientState (addr : Address) (key value : Hash)
  | addLog (log : Log)
  | addRefund (gas : UInt64)
  | subRefund (gas : UInt64)
  | createAccount (addr : Address)
  | createContract (addr : Address)
  | selfDestruct (addr : Address)
  | selfDestruct6780 (addr : Address)
  | addAddressToAccessList (addr : Address)
  | addSlotToAccessList (addr : Address) (slot : Hash)
  | snapshot
  | revertToSnapshot (revid : ℕ)
  | precompileCall (body : List (CacheOp σ))
  | exist (addr : Address)
  | getCode (addr : Address)
  | getState (addr : Address) (key : Hash)
  | getCommittedState (addr : Address) (key : Hash)

namespace StateDB

/-- A precompile call recorded by `AddPrecompileFn`, which does not run when that returns an error. The
commit of the dirty objects to `cacheCtx` is the first of its writes. -/
def precompileCall (s : StateDB σ) (body : List (CacheOp σ)) : Option (StateDB σ) :=
  let snapshot := s.getCacheContext.1.snapshotter.layers.length
  match s.recordPrecompileCall with
  | (some _, s) => some s
  | (none, s) => (CacheOp.run snapshot s.getCacheContext.1 body).map fun cache =>
    { s with cache := some cache }

def exec (env : Env σ) (s : StateDB σ) : Op σ → Option (StateDB σ)
  | .addBalance addr amount => some (s.addBalance env addr amount).2
  | .subBalance addr amount => some (s.subBalance env addr amount).2
  | .setNonce addr nonce => some (s.setNonce env addr nonce)
  | .setCode addr code => some (s.setCode env addr code).2
  | .setState addr key value => some (s.setState env addr key value).2
  | .setTransientState addr key value => some (s.setTransientState addr key value)
  | .addLog log => some (s.addLog log)
  | .addRefund gas => some (s.addRefund gas)
  | .subRefund gas => s.subRefund gas
  | .createAccount addr => some (s.createAccount env addr)
  | .createContract addr => s.createContract env addr
  | .selfDestruct addr => some (s.selfDestruct env addr).2
  | .selfDestruct6780 addr => some (s.selfDestruct6780 env addr).2.2
  | .addAddressToAccessList addr => some (s.addAddressToAccessList addr)
  | .addSlotToAccessList addr slot => some (s.addSlotToAccessList addr slot)
  | .snapshot => some s.snapshot.1
  | .revertToSnapshot revid => s.revertToSnapshot env revid
  | .precompileCall body => s.precompileCall body
  | .exist addr => some (s.exist env addr).2
  | .getCode addr => some (s.getCode env addr).2
  | .getState addr key => some (s.getState env addr key).2
  | .getCommittedState addr key => some (s.getCommittedState env addr key).2

def run (env : Env σ) (s : StateDB σ) : List (Op σ) → Option (StateDB σ)
  | [] => some s
  | op :: ops => (s.exec env op).bind fun s => run env s ops

theorem run_append (env : Env σ) (s : StateDB σ) (first second : List (Op σ)) :
    s.run env (first ++ second) = (s.run env first).bind fun s => s.run env second := by
  induction first generalizing s with
  | nil => rfl
  | cons op first ih =>
    rw [List.cons_append, run, run, Option.bind_assoc]
    exact Option.bind_congr fun middle _ => ih middle

/-- What every allowed operation keeps, a run of them keeps. -/
theorem run_invariant {env : Env σ} (allowed : Op σ → Prop) (invariant : StateDB σ → Prop)
    (hstep : ∀ {s op s'}, allowed op → invariant s → s.exec env op = some s' → invariant s')
    {ops : List (Op σ)} (hops : ∀ op ∈ ops, allowed op) {s s' : StateDB σ} (hstart : invariant s)
    (hrun : s.run env ops = some s') : invariant s' := by
  induction ops generalizing s with
  | nil =>
    cases hrun
    exact hstart
  | cons op ops ih =>
    obtain ⟨middle, hexec, hrest⟩ := Option.bind_eq_some_iff.mp hrun
    obtain ⟨hop, hops⟩ := List.forall_mem_cons.mp hops
    exact ih hops (hstep hop hstart hexec) hrest

/-- A sequence of allowed operations leads from one StateDB to another. -/
def Runs (env : Env σ) (allowed : Op σ → Prop) (s s' : StateDB σ) : Prop :=
  ∃ ops, (∀ op ∈ ops, allowed op) ∧ s.run env ops = some s'

theorem Runs.refl (env : Env σ) (allowed : Op σ → Prop) (s : StateDB σ) : Runs env allowed s s :=
  ⟨[], by simp, rfl⟩

theorem Runs.mono {env : Env σ} {allowed allowed' : Op σ → Prop} {s s' : StateDB σ}
    (hruns : Runs env allowed s s') (hallowed : ∀ {op : Op σ}, allowed op → allowed' op) :
    Runs env allowed' s s' := by
  obtain ⟨ops, hops, hrun⟩ := hruns
  exact ⟨ops, fun op hmem => hallowed (hops op hmem), hrun⟩

theorem Runs.exec {env : Env σ} {allowed : Op σ → Prop} {start s s' : StateDB σ}
    (hruns : Runs env allowed start s) (op : Op σ) (hop : allowed op) (hexec : s.exec env op = some s') :
    Runs env allowed start s' := by
  obtain ⟨ops, hops, hrun⟩ := hruns
  refine ⟨ops ++ [op], ?_, ?_⟩
  · simpa [or_imp, forall_and] using ⟨hops, hop⟩
  · rw [run_append, hrun]
    change (s.exec env op).bind (fun s => some s) = some s'
    rw [hexec]
    rfl

end StateDB

structure Observations (σ : Type) where
  exist : Address → Bool
  empty : Address → Bool
  balance : Address → BitVec 256
  nonce : Address → UInt64
  code : Address → Option Bytes
  codeSize : Address → ℕ
  codeHash : Address → Hash
  selfDestructed : Address → Bool
  state : Address → Hash → Hash
  committedState : Address → Hash → Hash
  transientState : Address → Hash → Hash
  addressInAccessList : Address → Bool
  slotInAccessList : Address → Hash → Bool × Bool
  logs : List Log
  refund : UInt64
  cacheStore : σ
  sortedDirties : List Address

def StateDB.observe (env : Env σ) (s : StateDB σ) : Observations σ where
  exist addr := (s.exist env addr).1
  empty addr := (s.empty env addr).1
  balance addr := (s.getBalance env addr).1
  nonce addr := (s.getNonce env addr).1
  code addr := (s.getCode env addr).1
  codeSize addr := (s.getCodeSize env addr).1
  codeHash addr := (s.getCodeHash env addr).1
  selfDestructed addr := (s.hasSelfDestructed env addr).1
  state addr key := (s.getState env addr key).1
  committedState addr key := (s.getCommittedState env addr key).1
  transientState := s.getTransientState
  addressInAccessList := s.addressInAccessList
  slotInAccessList := s.slotInAccessList
  logs := s.logs
  refund := s.refund
  cacheStore := s.cacheCtx.store
  sortedDirties := s.journal.sortedDirties

end CosmosEvm.Statedb
