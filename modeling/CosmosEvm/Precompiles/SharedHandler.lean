import CosmosEvm.Evmd.Config
import CosmosEvm.Precompiles.BalanceHandler
import CosmosEvm.Statedb.PrecompileEvents

namespace CosmosEvm

namespace Statedb

variable {σ : Type} {env : Env σ} {s s' : StateDB σ}

structure Env.OnlyEmits (env : Env σ) : Prop where
  setAccount : ∀ {ctx ctx' addr account}, env.keeper.setAccount ctx addr account = .ok ctx' →
    ctx.events <+: ctx'.events
  deleteAccount : ∀ {ctx ctx' addr}, env.keeper.deleteAccount ctx addr = .ok ctx' → ctx.events <+: ctx'.events
  setState : ∀ ctx addr key value, ctx.events <+: (env.keeper.setState ctx addr key value).events
  deleteState : ∀ ctx addr key, ctx.events <+: (env.keeper.deleteState ctx addr key).events
  setCode : ∀ ctx hash code, ctx.events <+: (env.keeper.setCode ctx hash code).events
  deleteCode : ∀ ctx hash, ctx.events <+: (env.keeper.deleteCode ctx hash).events

theorem Env.blank_onlyEmits : (Env.blank σ).OnlyEmits where
  setAccount hok := by
    cases hok
    exact List.prefix_rfl
  deleteAccount hok := by
    cases hok
    exact List.prefix_rfl
  setState _ _ _ _ := List.prefix_rfl
  deleteState _ _ _ := List.prefix_rfl
  setCode _ _ _ := List.prefix_rfl
  deleteCode _ _ := List.prefix_rfl

namespace Env.OnlyEmits

variable (henv : env.OnlyEmits) {ctx ctx' : Context σ}
include henv

theorem commitStorage (addr : Address) (obj : StateObject) :
    ctx.events <+: (Statedb.commitStorage env ctx addr obj).events := by
  unfold Statedb.commitStorage
  generalize FixedBytes.sorted obj.dirtyStorage.keys = keys
  induction keys generalizing ctx with
  | nil => exact List.prefix_rfl
  | cons key keys ih =>
    refine List.IsPrefix.trans ?_ ih
    dsimp only
    split
    · exact henv.deleteState ctx addr key
    · exact henv.setState ctx addr key _

theorem commitCode (obj : StateObject) : ctx.events <+: (Statedb.commitCode env ctx obj).events := by
  unfold Statedb.commitCode
  split
  · split
    · exact henv.deleteCode ctx _
    · exact henv.setCode ctx _ _
  · exact List.prefix_rfl

theorem commitObject {addr : Address} {obj : StateObject}
    (hok : Statedb.commitObject env ctx addr obj = .ok ctx') : ctx.events <+: ctx'.events := by
  unfold Statedb.commitObject at hok
  split at hok
  · exact henv.deleteAccount (Result.mapError_eq_ok_iff.mp hok)
  · obtain ⟨middle, hset, hrest⟩ := Result.bind_eq_ok_iff.mp hok
    cases hrest
    exact ((henv.commitCode obj).trans (henv.setAccount (Result.mapError_eq_ok_iff.mp hset))).trans
      (henv.commitStorage addr obj)

theorem commitWithCtx (hok : s.commitWithCtx env ctx = .ok ctx') : ctx.events <+: ctx'.events := by
  have hstep : ∀ {before : Context σ} {addr : Address} {after : Context σ}, True → ctx.events <+: before.events →
      s.commitAddress env before addr = .ok after → ctx.events <+: after.events := by
    intro before addr after _ hbefore hok
    unfold StateDB.commitAddress at hok
    split at hok
    · cases hok
    · exact hbefore.trans (henv.commitObject hok)
  exact Result.run_invariant hstep (fun _ _ => trivial) List.prefix_rfl hok

end Env.OnlyEmits

structure Grows (s s' : StateDB σ) : Prop where
  ctx_eq : s'.ctx = s.ctx
  emitted : s.emittedEvents <+: s'.emittedEvents

theorem Grows.refl (s : StateDB σ) : Grows s s := ⟨rfl, List.prefix_rfl⟩

theorem Grows.trans {s'' : StateDB σ} (hfirst : Grows s s') (hsecond : Grows s' s'') : Grows s s'' :=
  ⟨hsecond.ctx_eq.trans hfirst.ctx_eq, hfirst.emitted.trans hsecond.emitted⟩

theorem Uncaptured.grows (huncaptured : Uncaptured s s') : Grows s s' := by
  refine ⟨huncaptured.ctx_eq, ?_⟩
  unfold StateDB.emittedEvents StateDB.getCacheContext
  rw [huncaptured.cache_eq, huncaptured.ctx_eq]

theorem grows_revertToSnapshot {revid : ℕ} (hrevert : s.revertToSnapshot env revid = some s') : Grows s s' := by
  obtain ⟨revision, u, -, -, hundo, rfl⟩ := revertToSnapshot_cases hrevert
  obtain ⟨hundone, hemitted, -⟩ := undoAll_events hundo
  exact ⟨hundone.ctx_eq, hemitted ▸ List.prefix_rfl⟩

theorem grows_exec {op : Op σ} (hexec : s.exec env op = some s') : Grows s s' := by
  cases op with
  | precompileCall body =>
    obtain ⟨cache, counter, rfl, hevents, -⟩ := precompileCall_cases hexec
    refine ⟨rfl, ?_⟩
    change s.emittedEvents <+: cache.events
    rw [hevents]
    exact List.prefix_append _ _
  | snapshot =>
    cases hexec
    exact ⟨rfl, List.prefix_rfl⟩
  | revertToSnapshot revid => exact grows_revertToSnapshot hexec
  | selfDestruct _ | selfDestruct6780 _ =>
    refine (uncaptured_of_destructs ?_ hexec).grows
    trivial
  | _ =>
    refine (moves_of_exec ?_ hexec).uncaptured.grows
    trivial

theorem grows_putCacheCtx {ctx : Context σ} (hevents : s.emittedEvents <+: ctx.events) :
    Grows s (s.putCacheCtx ctx) :=
  ⟨rfl, hevents⟩

end Statedb

namespace Precompiles.SharedHandler

open Statedb

variable {σ : Type}

/-- What goes on around a shared handler: in a message the interpreter calls the StateDB and runs the
precompile, and in a run keepers write, emit events and execute messages. -/
inductive Activity (σ : Type) where
  | done
  | stateOp (op : Op σ) (next : Activity σ)
  | keeper (change : σ → σ) (events : List Event) (next : Activity σ)
  | message (inside : Activity σ) (commits : Bool) (next : Activity σ)
  | run (inside : Activity σ) (fails : Bool) (next : Activity σ)

structure Shared (σ : Type) where
  handler : BalanceHandler
  stateDB : StateDB σ

structure After where
  own : ℕ
  nested : List ℕ
  handler : BalanceHandler
  events : List Event

/-- It goes through the events since its own `BeforeBalanceChange` and no others. -/
def After.Exact (after : After) : Prop :=
  after.handler.prevEventsLen ≤ after.events.length ∧
    after.events.drop after.handler.prevEventsLen = after.events.drop after.own

instance (after : After) : Decidable after.Exact := inferInstanceAs (Decidable (_ ∧ _))

/-- No run inside, or the last one began with as many events as its own run. -/
def After.Undisturbed (after : After) : Prop := ∀ len, after.nested.getLast? = some len → len = after.own

structure Trail (σ : Type) where
  marks : List ℕ
  afters : List After
  left : Option (Shared σ)

namespace Trail

def stopped : Trail σ := ⟨[], [], none⟩

def andThen (first : Trail σ) (next : Shared σ → Trail σ) : Trail σ :=
  match first.left with
  | none => first
  | some shared =>
    ⟨first.marks ++ (next shared).marks, first.afters ++ (next shared).afters, (next shared).left⟩

end Trail

variable (reader : EventReader) (env : Env σ)

/-- `RunSetup` as far as it touches the StateDB, and whether it succeeds. -/
def runSetup (s : StateDB σ) : Bool × StateDB σ :=
  match s.recordPrecompileCall with
  | (some _, s) => (false, s)
  | (none, s) =>
    match s.commitWithCacheCtx env with
    | .error _ => (false, s)
    | .ok s => (true, s)

/-- What a message leaves in the context that it runs on. Where `Commit` fails, that is what it wrote before
the accounts. -/
def committed (s : StateDB σ) : Context σ :=
  match s.commit env with
  | .error _ => s.writeCache
  | .ok ctx => ctx

def revertRun (revid : ℕ) (shared : Shared σ) : Option (Shared σ) :=
  (shared.stateDB.revertToSnapshot env revid).map fun stateDB => { shared with stateDB }

def finishRun (revid : ℕ) (shared : Shared σ) : Option (Shared σ) :=
  match shared.handler.afterBalanceChange reader env shared.stateDB.cacheCtx shared.stateDB with
  | .error (.panicked _) => none
  | .error (.wrapped _ _) => revertRun env revid shared
  | .ok stateDB => some { shared with stateDB }

def endRun (own : BalanceHandler) (fails : Bool) (revid : ℕ) (method : Trail σ) : Trail σ :=
  let marks := own.prevEventsLen :: method.marks
  match method.left with
  | none => ⟨marks, method.afters, none⟩
  | some shared =>
    if fails then ⟨marks, method.afters, revertRun env revid shared⟩
    else
      ⟨marks,
        method.afters ++ [⟨own.prevEventsLen, method.marks, shared.handler, shared.stateDB.cacheCtx.events⟩],
        finishRun reader env revid shared⟩

def runMethod (inside : Shared σ → Trail σ) (fails : Bool) (revid : ℕ) (s : StateDB σ) : Trail σ :=
  let own := BalanceHandler.beforeBalanceChange s.cacheCtx
  endRun reader env own fails revid (inside ⟨own, s⟩)

def runPrecompile (inside : Shared σ → Trail σ) (fails : Bool) (shared : Shared σ) : Trail σ :=
  let (s, revid) := shared.stateDB.snapshot
  match runSetup env s with
  | (false, s) => ⟨[], [], revertRun env revid { shared with stateDB := s }⟩
  | (true, s) => runMethod reader env inside fails revid s

def Activity.exec : Activity σ → Shared σ → Trail σ
  | .done, shared => ⟨[], [], some shared⟩
  | .stateOp op next, shared =>
    match shared.stateDB.exec env op with
    | none => .stopped
    | some stateDB => next.exec { shared with stateDB }
  | .keeper change events next, shared =>
    let ctx := shared.stateDB.cacheCtx
    next.exec { shared with
      stateDB := shared.stateDB.putCacheCtx ⟨change ctx.store, ctx.events ++ events⟩ }
  | .message inside commits next, shared =>
    (inside.exec { shared with stateDB := new shared.stateDB.cacheCtx ⟨zeroHash, zeroHash, 0, 0⟩ }).andThen
      fun inner => next.exec
        ⟨inner.handler, if commits then shared.stateDB.putCacheCtx (committed env inner.stateDB)
          else shared.stateDB⟩
  | .run inside fails next, shared =>
    (runPrecompile reader env (fun shared => inside.exec shared) fails shared).andThen fun shared =>
      next.exec shared

structure Trail.Tracks (mark : ℕ) (kept : StateDB σ → Prop) (trail : Trail σ) : Prop where
  left : ∀ after, trail.left = some after →
    after.handler.prevEventsLen = trail.marks.getLast?.getD mark ∧ kept after.stateDB
  found : ∀ after ∈ trail.afters,
    after.handler.prevEventsLen = after.nested.getLast?.getD after.own ∧ after.own ≤ after.events.length

variable {reader env}

theorem Trail.Tracks.stopped {mark : ℕ} {kept : StateDB σ → Prop} : stopped.Tracks mark kept where
  left _ heq := by cases heq
  found _ hmem := absurd hmem List.not_mem_nil

theorem Trail.Tracks.mono {mark : ℕ} {kept kept' : StateDB σ → Prop} {trail : Trail σ}
    (htracks : trail.Tracks mark kept) (hkept : ∀ s, kept s → kept' s) : trail.Tracks mark kept' where
  left after hleft := (htracks.left after hleft).imp_right (hkept _)
  found := htracks.found

theorem Trail.Tracks.andThen {mark : ℕ} {kept kept' : StateDB σ → Prop} {first : Trail σ}
    {next : Shared σ → Trail σ} (hfirst : first.Tracks mark kept)
    (hnext : ∀ middle, kept middle.stateDB → (next middle).Tracks middle.handler.prevEventsLen kept') :
    (first.andThen next).Tracks mark kept' := by
  unfold Trail.andThen
  cases hleft : first.left with
  | none =>
    refine ⟨fun after hafter => ?_, hfirst.found⟩
    cases hleft.symm.trans hafter
  | some middle =>
    obtain ⟨hhandler, hmiddle⟩ := hfirst.left middle hleft
    have hrest := hnext middle hmiddle
    refine ⟨fun after hafter => ?_, fun after hmem => ?_⟩
    · obtain ⟨hhandler', hafter⟩ := hrest.left after hafter
      refine ⟨?_, hafter⟩
      rw [hhandler', hhandler, List.getLast?_append]
      cases (next middle).marks.getLast? <;> rfl
    · exact (List.mem_append.mp hmem).elim (hfirst.found after) (hrest.found after)

theorem grows_runSetup (henv : env.OnlyEmits) (s : StateDB σ) : Grows s (runSetup env s).2 := by
  obtain ⟨counter, hrecorded⟩ := recordPrecompileCall_eq s
  have hgrows : Grows s s.recordPrecompileCall.2 := by
    rw [hrecorded]
    exact ⟨rfl, List.prefix_rfl⟩
  unfold runSetup
  split
  · rename_i hrecord
    rwa [hrecord] at hgrows
  · rename_i recorded hrecord
    rw [hrecord] at hgrows
    split
    · exact hgrows
    · rename_i hcommit
      obtain ⟨ctx, hctx, heq⟩ := Result.bind_eq_ok_iff.mp hcommit
      cases heq
      exact hgrows.trans (grows_putCacheCtx (henv.commitWithCtx hctx))

theorem grows_afterBalanceChange {handler : BalanceHandler} {ctx : Context σ} {s s' : StateDB σ}
    (hok : handler.afterBalanceChange reader env ctx s = .ok s') : Grows s s' := by
  unfold BalanceHandler.afterBalanceChange at hok
  rw [Result.ite_error_eq_ok_iff] at hok
  have hstep : ∀ {before : StateDB σ} {event : Event} {after : StateDB σ}, True → Grows s before →
      ((reader.readEvent event).map fun change => BalanceChange.applyTo env before change) = .ok after →
      Grows s after := by
    intro before event after _ hbefore hread
    obtain ⟨change, -, rfl⟩ := Result.map_eq_ok_iff.mp hread
    refine hbefore.trans ?_
    cases change with
    | none => exact .refl _
    | some change =>
      cases change with
      | addBalance addr amount =>
        have hexec : before.exec env (.addBalance addr amount) = some (before.addBalance env addr amount).2 := rfl
        exact grows_exec hexec
      | subBalance addr amount =>
        have hexec : before.exec env (.subBalance addr amount) = some (before.subBalance env addr amount).2 := rfl
        exact grows_exec hexec
  exact Result.run_invariant hstep (fun _ _ => trivial) (.refl s) hok.2

theorem revertRun_spec {revid : ℕ} {shared after : Shared σ} (hrevert : revertRun env revid shared = some after) :
    after.handler = shared.handler ∧ Grows shared.stateDB after.stateDB := by
  obtain ⟨s, hs, rfl⟩ := Option.map_eq_some_iff.mp hrevert
  exact ⟨rfl, grows_revertToSnapshot hs⟩

theorem finishRun_spec {revid : ℕ} {shared after : Shared σ}
    (hfinish : finishRun reader env revid shared = some after) :
    after.handler = shared.handler ∧ Grows shared.stateDB after.stateDB := by
  unfold finishRun at hfinish
  split at hfinish
  · cases hfinish
  · exact revertRun_spec hfinish
  · rename_i hafter
    cases hfinish
    exact ⟨rfl, grows_afterBalanceChange hafter⟩

theorem Trail.Tracks.endRun {own : BalanceHandler} {fails : Bool} {revid : ℕ} {s : StateDB σ}
    {method : Trail σ} (hmethod : method.Tracks own.prevEventsLen (Grows s))
    (hown : own.prevEventsLen = s.emittedEvents.length) (mark : ℕ) :
    (endRun reader env own fails revid method).Tracks mark (Grows s) := by
  unfold SharedHandler.endRun
  cases hleft : method.left with
  | none => exact ⟨fun _ heq => absurd heq nofun, hmethod.found⟩
  | some shared =>
    obtain ⟨hhandler, hgrows⟩ := hmethod.left shared hleft
    have hcount : ∀ after : Shared σ, after.handler = shared.handler →
        after.handler.prevEventsLen = (own.prevEventsLen :: method.marks).getLast?.getD mark := by
      intro after hsame
      rw [hsame, hhandler, List.getLast?_cons]
      rfl
    cases fails with
    | true =>
      refine ⟨fun after hafter => ?_, hmethod.found⟩
      obtain ⟨hsame, hgrows'⟩ := revertRun_spec hafter
      exact ⟨hcount after hsame, hgrows.trans hgrows'⟩
    | false =>
      refine ⟨fun after hafter => ?_, fun after hmem => ?_⟩
      · obtain ⟨hsame, hgrows'⟩ := finishRun_spec hafter
        exact ⟨hcount after hsame, hgrows.trans hgrows'⟩
      · rcases List.mem_append.mp hmem with hold | hnew
        · exact hmethod.found after hold
        · obtain rfl := List.mem_singleton.mp hnew
          exact ⟨hhandler, hown ▸ hgrows.emitted.length_le⟩

theorem tracks_runPrecompile (henv : env.OnlyEmits) {inside : Shared σ → Trail σ} {fails : Bool}
    {shared : Shared σ}
    (hinside : ∀ shared, (inside shared).Tracks shared.handler.prevEventsLen (Grows shared.stateDB)) :
    (runPrecompile reader env inside fails shared).Tracks shared.handler.prevEventsLen (Grows shared.stateDB) := by
  have hsnapshot : Grows shared.stateDB shared.stateDB.snapshot.1 := ⟨rfl, List.prefix_rfl⟩
  have hsetup := hsnapshot.trans (grows_runSetup henv shared.stateDB.snapshot.1)
  unfold runPrecompile
  rcases hrun : runSetup env shared.stateDB.snapshot.1 with ⟨succeeds, s⟩
  rw [hrun] at hsetup
  simp only [hrun]
  cases succeeds with
  | false =>
    refine ⟨fun after hafter => ?_, fun _ hmem => absurd hmem List.not_mem_nil⟩
    obtain ⟨hsame, hgrows⟩ := revertRun_spec hafter
    exact ⟨congrArg _ hsame, hsetup.trans hgrows⟩
  | true => exact ((hinside _).endRun rfl _).mono fun _ => hsetup.trans

theorem prefix_committed (henv : env.OnlyEmits) (s : StateDB σ) : s.ctx.events <+: (committed env s).events := by
  have hwrite : s.ctx.events <+: s.writeCache.events := by
    rw [writeCache_events]
    exact List.prefix_append _ _
  unfold committed
  split
  · exact hwrite
  · rename_i hcommit
    exact hwrite.trans (henv.commitWithCtx hcommit)

/-- By induction on the activity, the last run to begin decides the count that is left. -/
theorem tracks_exec (henv : env.OnlyEmits) (activity : Activity σ) (shared : Shared σ) :
    (activity.exec reader env shared).Tracks shared.handler.prevEventsLen (Grows shared.stateDB) := by
  induction activity generalizing shared with
  | done =>
    refine ⟨fun after hafter => ?_, fun _ hmem => absurd hmem List.not_mem_nil⟩
    cases hafter
    exact ⟨rfl, .refl _⟩
  | stateOp op next ih =>
    rw [Activity.exec]
    split
    · exact .stopped
    · rename_i stateDB hexec
      refine (ih { shared with stateDB }).mono fun _ hgrows => ?_
      exact (grows_exec hexec).trans hgrows
  | keeper change events next ih =>
    let ctx := shared.stateDB.cacheCtx
    let emitted := shared.stateDB.putCacheCtx ⟨change ctx.store, ctx.events ++ events⟩
    refine (ih { shared with stateDB := emitted }).mono fun _ hgrows => ?_
    exact (grows_putCacheCtx (List.prefix_append _ events)).trans hgrows
  | message inside commits next ihInside ihNext =>
    rw [Activity.exec]
    let start := new shared.stateDB.cacheCtx ⟨zeroHash, zeroHash, 0, 0⟩
    have hinside := ihInside { shared with stateDB := start }
    refine hinside.andThen fun inner hinner => ?_
    let returned := if commits then shared.stateDB.putCacheCtx (committed env inner.stateDB) else shared.stateDB
    refine (ihNext ⟨inner.handler, returned⟩).mono fun _ hgrows => Grows.trans ?_ hgrows
    dsimp only [returned]
    -- the context of the message is the outer `cacheCtx`
    split
    · refine grows_putCacheCtx ?_
      have hcommitted := prefix_committed henv inner.stateDB
      rw [hinner.ctx_eq] at hcommitted
      exact hcommitted
    · exact .refl _
  | run inside fails next ihInside ihNext =>
    refine (tracks_runPrecompile henv ihInside).andThen fun middle hmiddle => ?_
    exact (ihNext middle).mono fun _ => hmiddle.trans

/-- Whatever runs within and after each other, `AfterBalanceChange` of a run goes through the events since its
own `BeforeBalanceChange`, all of them and no others, exactly when no run inside was the last to take a
different count. -/
theorem Activity.exact_iff_undisturbed (henv : env.OnlyEmits) (activity : Activity σ) (shared : Shared σ) :
    ∀ after ∈ (activity.exec reader env shared).afters, after.Exact ↔ after.Undisturbed := by
  intro after hmem
  obtain ⟨hfound, hown⟩ := (tracks_exec henv activity shared).found after hmem
  have hundisturbed : after.Undisturbed ↔ after.handler.prevEventsLen = after.own := by
    rw [hfound]
    unfold After.Undisturbed
    cases after.nested.getLast? with
    | none => simp
    | some len => simp
  rw [hundisturbed]
  constructor
  · rintro ⟨hrange, hdrop⟩
    have hlength := congrArg List.length hdrop
    rw [List.length_drop, List.length_drop] at hlength
    omega
  · intro heq
    exact ⟨heq ▸ hown, by rw [heq]⟩

def sampleReader : EventReader where
  codec := { textCodec with
    parseCoinsNormalized := fun text => if text = "5aatom" then some [⟨"aatom", 5⟩] else none }
  newIntFromString := String.toInt?
  blockedAddr := Evmd.blockedAddr
  coinInfo := Evmd.eighteenDecimalsCoin

def sampleSender : Address := bytesToAddress [0xa1]

def sampleStart : Shared Unit :=
  ⟨⟨0⟩, ((new ⟨(), []⟩ ⟨zeroHash, zeroHash, 0, 0⟩).addBalance (Env.blank Unit) sampleSender 100).2⟩

def sampleSpent : Event :=
  ⟨"coin_spent", [("spender", textCodec.accAddressString sampleSender.bytes), ("amount", "5aatom")]⟩

def twoTransfers : Activity Unit :=
  .run (.keeper id [sampleSpent] .done) false (.run (.keeper id [sampleSpent] .done) false .done)

theorem exact_twoTransfers :
    (twoTransfers.exec sampleReader (Env.blank Unit) sampleStart).afters.length = 2 ∧
      ∀ after ∈ (twoTransfers.exec sampleReader (Env.blank Unit) sampleStart).afters, after.Exact := by
  refine ⟨by decide +kernel, fun after hmem => ?_⟩
  refine (Activity.exact_iff_undisturbed Env.blank_onlyEmits twoTransfers sampleStart after hmem).mpr ?_
  have hnested : ∀ after ∈ (twoTransfers.exec sampleReader (Env.blank Unit) sampleStart).afters,
      after.nested = [] := by
    decide +kernel
  intro len hlen
  rw [hnested after hmem] at hlen
  cases hlen

def tokenTransfer : Activity Unit :=
  .run (.keeper id [sampleSpent] .done) false (.run (.message (.run .done false .done) true .done) false .done)

def revertedInside : Activity Unit :=
  .run (.message (.stateOp .snapshot (.stateOp (.precompileCall [.emitEvents [sampleSpent]])
    (.run .done false (.stateOp (.revertToSnapshot 0) .done)))) true .done) false .done

/-- The second transfer takes the coins of the first one again, and in the other case it panics. -/
theorem not_exact_tokenTransfer :
    ¬ (∀ after ∈ (tokenTransfer.exec sampleReader (Env.blank Unit) sampleStart).afters, after.Exact) ∧
      (tokenTransfer.exec sampleReader (Env.blank Unit) sampleStart).left.map
        (fun shared => (shared.stateDB.getBalance (Env.blank Unit) sampleSender).1) = some 90 ∧
      ¬ (∀ after ∈ (revertedInside.exec sampleReader (Env.blank Unit) sampleStart).afters, after.Exact) ∧
      (revertedInside.exec sampleReader (Env.blank Unit) sampleStart).left.isNone := by
  decide +kernel

end Precompiles.SharedHandler

end CosmosEvm
