import CosmosEvm.Statedb.PrecompileCalls

namespace CosmosEvm.Statedb

open UndoLog

variable {σ : Type} {env : Env σ} {s s' : StateDB σ}

def CacheOp.emitted : CacheOp σ → List Event
  | .emitEvents events => events
  | _ => []

structure CallTrace where
  calls : List (List Event)
  alive : List ℕ
  marks : List (ℕ × ℕ)
  nextID : ℕ
  undone : Option ℕ

namespace CallTrace

def start : CallTrace := ⟨[], [], [], 0, none⟩

variable (t : CallTrace)

def kept : List Event := t.alive.flatMap fun i => t.calls.getD i []

def before (i : ℕ) : List Event := (t.calls.take i).flatten

def call (events : List Event) : CallTrace :=
  { t with calls := t.calls ++ [events], alive := t.alive ++ [t.calls.length] }

def snapshot : CallTrace :=
  { t with marks := t.marks ++ [(t.nextID, t.alive.length)], nextID := t.nextID + 1 }

def revert (revid : ℕ) : CallTrace :=
  let idx := t.marks.findIdx fun mark => revid ≤ mark.1
  match t.marks[idx]? with
  | none => t
  | some mark => { t with
      alive := t.alive.take mark.2
      marks := t.marks.take idx
      undone := t.alive[mark.2]?.or t.undone }

def step : Op σ → CallTrace
  | .precompileCall body =>
    t.call (if (t.calls.length + 1) % 256 ≤ StateDB.maxPrecompileCalls.toNat then
      body.flatMap CacheOp.emitted else [])
  | .snapshot => t.snapshot
  | .revertToSnapshot revid => t.revert revid
  | _ => t

def of (ops : List (Op σ)) : CallTrace := ops.foldl step start

/-- Of the calls that emitted something, those before the first one that the last revert took back are those
that are not reverted. -/
def Settled : Prop :=
  ∀ first, t.undone = some first → ∀ i, t.calls.getD i [] ≠ [] → (i < first ↔ i ∈ t.alive)

structure Sound (t : CallTrace) : Prop where
  alive_lt : ∀ i ∈ t.alive, i < t.calls.length
  ascending : t.alive.Pairwise (· < ·)
  undone_lt : ∀ first, t.undone = some first → first < t.calls.length
  whole : t.undone = none → t.alive = List.range t.calls.length

theorem Sound.call {t : CallTrace} (hsound : t.Sound) (events : List Event) : (t.call events).Sound where
  alive_lt i hmem := by
    simp only [CallTrace.call, List.length_append, List.length_singleton]
    rcases List.mem_append.mp hmem with hold | hnew
    · exact Nat.lt_succ_of_lt (hsound.alive_lt i hold)
    · rw [List.mem_singleton.mp hnew]
      exact Nat.lt_succ_self _
  ascending := by
    refine List.pairwise_append.mpr ⟨hsound.ascending, List.pairwise_singleton _ _, ?_⟩
    intro i hold j hnew
    rw [List.mem_singleton.mp hnew]
    exact hsound.alive_lt i hold
  undone_lt first hfirst := by
    have hlt := hsound.undone_lt first hfirst
    simp only [CallTrace.call, List.length_append, List.length_singleton]
    omega
  whole hnone := by
    simp only [CallTrace.call, List.length_append, List.length_singleton]
    rw [hsound.whole hnone, List.range_succ]

theorem Sound.revert {t : CallTrace} (hsound : t.Sound) (revid : ℕ) : (t.revert revid).Sound := by
  unfold CallTrace.revert
  simp only
  split
  · exact hsound
  · rename_i mark _
    refine ⟨fun i hmem => ?_, hsound.ascending.sublist (List.take_sublist _ _), fun first hfirst => ?_,
      fun hnone => ?_⟩
    · exact hsound.alive_lt i (List.mem_of_mem_take hmem)
    · rcases Option.or_eq_some_iff.mp hfirst with hget | ⟨_, hold⟩
      · exact hsound.alive_lt first (List.mem_of_getElem? hget)
      · exact hsound.undone_lt first hold
    · obtain ⟨hget, hold⟩ := Option.or_eq_none_iff.mp hnone
      rw [List.take_of_length_le (List.getElem?_eq_none_iff.mp hget)]
      exact hsound.whole hold

theorem Sound.step {t : CallTrace} (hsound : t.Sound) (op : Op σ) : (t.step op).Sound := by
  cases op with
  | precompileCall body => exact hsound.call _
  | snapshot => exact ⟨hsound.alive_lt, hsound.ascending, hsound.undone_lt, hsound.whole⟩
  | revertToSnapshot revid => exact hsound.revert revid
  | _ => exact hsound

theorem sound_start : start.Sound where
  alive_lt i hmem := absurd hmem List.not_mem_nil
  ascending := .nil
  undone_lt first hfirst := absurd hfirst (by simp [start])
  whole _ := rfl

theorem before_call (events : List Event) {i : ℕ} (hle : i ≤ t.calls.length) :
    (t.call events).before i = t.before i := by
  unfold before call
  rw [List.take_append_of_le_length hle]

theorem before_length : t.before t.calls.length = t.calls.flatten := by
  rw [before, List.take_length]

end CallTrace

def JournalEntry.capturedEvents : JournalEntry → Option (List Event)
  | .precompileCallChange _ events => some events
  | _ => none

def captured (entries : List JournalEntry) : List (List Event) :=
  entries.filterMap JournalEntry.capturedEvents

def StateDB.emittedEvents (s : StateDB σ) : List Event := s.getCacheContext.1.events

def StateDB.restoredEvents (s : StateDB σ) : Option (List Event) := s.getCacheContext.1.writeEvents

theorem writeCache_events (s : StateDB σ) :
    s.writeCache.events = s.ctx.events ++ s.restoredEvents.getD s.emittedEvents := by
  unfold StateDB.writeCache StateDB.restoredEvents StateDB.emittedEvents StateDB.getCacheContext
  cases s.cache with
  | none => exact (List.append_nil _).symm
  | some cache => rfl

structure Uncaptured (s s' : StateDB σ) : Prop where
  ctx_eq : s'.ctx = s.ctx
  cache_eq : s'.cache = s.cache
  entries : ∃ more, s'.journal.entries = s.journal.entries ++ more ∧ captured more = []

theorem Uncaptured.trans {s'' : StateDB σ} (hfirst : Uncaptured s s') (hsecond : Uncaptured s' s'') : Uncaptured s s'' := by
  obtain ⟨more, hmore, hnone⟩ := hfirst.entries
  obtain ⟨more', hmore', hnone'⟩ := hsecond.entries
  refine ⟨hsecond.ctx_eq.trans hfirst.ctx_eq, hsecond.cache_eq.trans hfirst.cache_eq, more ++ more', ?_, ?_⟩
  · rw [hmore', hmore, List.append_assoc]
  · unfold captured at hnone hnone' ⊢
    rw [List.filterMap_append, hnone, hnone', List.append_nil]

theorem uncaptured_setStateObject (s : StateDB σ) (addr : Address) (obj : StateObject) :
    Uncaptured s (s.setStateObject addr obj) :=
  ⟨rfl, rfl, [], (List.append_nil _).symm, rfl⟩

theorem uncaptured_journaled (s : StateDB σ) {entry : JournalEntry} (addr : Address) (obj : StateObject)
    (hentry : entry.capturedEvents = none) : Uncaptured s (s.journaled entry addr obj) :=
  ⟨rfl, rfl, [entry], rfl, List.filterMap_cons_none hentry⟩

theorem Move.uncaptured (hmove : Move env s s') : Uncaptured s s' := by
  cases hmove with
  | load _ _ | loadCode _ | loadState _ _ | loadCommittedState _ _ => exact uncaptured_setStateObject s _ _
  | create _ _ | reset _ | createContract _ _ | setBalance _ _ | setNonce _ _ | setCode _ _
  | setState _ _ _ => exact uncaptured_journaled s _ _ rfl
  | auxiliary hop hexec =>
    have hsame := sameAccounts_of_auxiliary hop hexec
    obtain ⟨more, hmore, hall⟩ := hsame.entries
    refine ⟨hsame.ctx_eq, hsame.cache_eq, more, hmore, List.filterMap_eq_nil_iff.mpr fun entry hmem => ?_⟩
    have hentry := hall entry hmem
    cases entry with
    | precompileCallChange snapshot events => exact hentry.elim
    | _ => rfl

theorem Moves.uncaptured (hmoves : Moves env s s') : Uncaptured s s' :=
  Moves.invariant (fun huncaptured hmove => huncaptured.trans hmove.uncaptured) hmoves
    ⟨rfl, rfl, [], (List.append_nil _).symm, rfl⟩

theorem uncaptured_of_destructs {op : Op σ} (hop : op.Destructs) (hexec : s.exec env op = some s') :
    Uncaptured s s' := by
  rcases destructs_cases hop hexec with hmoves | ⟨middle, addr, obj, hmoves, -, rfl⟩
  · exact hmoves.uncaptured
  · exact hmoves.uncaptured.trans (uncaptured_journaled middle addr _ rfl)

theorem undoEntry_events {entry : JournalEntry} (hundo : StateDB.undoEntry env entry s = some s') :
    s'.emittedEvents = s.emittedEvents ∧
      s'.restoredEvents = entry.capturedEvents.or s.restoredEvents := by
  obtain ⟨reverted, hrevert, rfl⟩ := Option.map_eq_some_iff.mp hundo
  unfold StateDB.emittedEvents StateDB.restoredEvents StateDB.getCacheContext
  cases hentry : entry.capturedEvents with
  | none =>
    -- the objects that undoing loads have no part in the cache
    have hcache := (reverted_of_revert hrevert).cache_eq fun snapshot events heq => by
      simp [heq, JournalEntry.capturedEvents] at hentry
    have hctx := (reverted_of_revert hrevert).undone.ctx_eq
    simp only [hcache, hctx]
    exact ⟨trivial, rfl⟩
  | some events =>
    cases entry with
    | precompileCallChange snapshot events' =>
      cases hentry
      simp only [JournalEntry.revert, StateDB.revertMultiStore] at hrevert
      split at hrevert
      · simp at hrevert
      · rename_i cache hcache
        obtain ⟨snapshotter, _, rfl⟩ := Option.map_eq_some_iff.mp hrevert
        simp [hcache]
    | _ => simp [JournalEntry.capturedEvents] at hentry

theorem undoAll_events {entries : List JournalEntry}
    (hundo : undoAll (StateDB.undoEntry env) entries s = some s') :
    Undone s s' ∧ s'.emittedEvents = s.emittedEvents ∧
      s'.restoredEvents = (captured entries).head?.or s.restoredEvents := by
  induction entries generalizing s' with
  | nil =>
    cases hundo
    exact ⟨⟨rfl, rfl, rfl, rfl⟩, rfl, rfl⟩
  | cons entry entries ih =>
    obtain ⟨middle, hlater, hentry⟩ := Option.bind_eq_some_iff.mp hundo
    obtain ⟨hundone, hemitted, hrestored⟩ := ih hlater
    obtain ⟨hemitted', hrestored'⟩ := undoEntry_events hentry
    obtain ⟨reverted, hrevert, rfl⟩ := Option.map_eq_some_iff.mp hentry
    have hframe := (reverted_of_revert hrevert).undone
    refine ⟨hundone.trans ⟨hframe.ctx_eq, hframe.entries_eq, hframe.revisions_eq, hframe.next_eq⟩,
      hemitted'.trans hemitted, ?_⟩
    rw [hrestored', hrestored]
    cases hcaptured : entry.capturedEvents with
    | none => simp [captured, hcaptured]
    | some events => simp [captured, hcaptured]

/-- The mark of a revision: its identifier, and how many calls the journal held when it was taken. -/
def StateDB.markOf (s : StateDB σ) (revision : Revision) : ℕ × ℕ :=
  (revision.id, (captured (s.journal.entries.take revision.journalIndex)).length)

structure Follows (s : StateDB σ) (t : CallTrace) : Prop where
  counter_eq : s.precompileCallsCounter.toNat = t.calls.length % 256
  next_eq : s.nextRevisionID = t.nextID
  emitted_eq : s.emittedEvents = t.calls.flatten
  restored_eq : s.restoredEvents = t.undone.map t.before
  captured_eq : captured s.journal.entries = t.alive.map t.before
  marks_eq : t.marks = s.validRevisions.map s.markOf

theorem markOf_append {more : List JournalEntry} {revision : Revision}
    (hentries : s'.journal.entries = s.journal.entries ++ more)
    (hle : revision.journalIndex ≤ s.journal.entries.length) : s'.markOf revision = s.markOf revision := by
  unfold StateDB.markOf
  rw [hentries, List.take_append_of_le_length hle]

theorem map_markOf_append {more : List JournalEntry} (hordered : Ordered s)
    (hentries : s'.journal.entries = s.journal.entries ++ more) :
    s.validRevisions.map s'.markOf = s.validRevisions.map s.markOf :=
  List.map_congr_left fun revision hmem => markOf_append hentries (hordered.index_le revision hmem)

theorem Follows.uncaptured {t : CallTrace} (hfollows : Follows s t) (hordered : Ordered s) (huncaptured : Uncaptured s s')
    (hcounter : s'.precompileCallsCounter = s.precompileCallsCounter)
    (hrevisions : s'.validRevisions = s.validRevisions) (hnext : s'.nextRevisionID = s.nextRevisionID) :
    Follows s' t := by
  obtain ⟨more, hmore, hnone⟩ := huncaptured.entries
  have hcache : s'.getCacheContext.1 = s.getCacheContext.1 := by
    simp only [StateDB.getCacheContext, huncaptured.cache_eq, huncaptured.ctx_eq]
  refine ⟨?_, hnext.trans hfollows.next_eq, ?_, ?_, ?_, ?_⟩
  · rw [hcounter, hfollows.counter_eq]
  · rw [← hfollows.emitted_eq, StateDB.emittedEvents, hcache, StateDB.emittedEvents]
  · rw [← hfollows.restored_eq, StateDB.restoredEvents, hcache, StateDB.restoredEvents]
  · rw [← hfollows.captured_eq, hmore]
    unfold captured at hnone ⊢
    rw [List.filterMap_append, hnone, List.append_nil]
  · rw [hrevisions, map_markOf_append hordered hmore, hfollows.marks_eq]

theorem Follows.snapshot {t : CallTrace} (hfollows : Follows s t) : Follows s.snapshot.1 t.snapshot where
  counter_eq := hfollows.counter_eq
  next_eq := congrArg (· + 1) hfollows.next_eq
  emitted_eq := hfollows.emitted_eq
  restored_eq := hfollows.restored_eq
  captured_eq := hfollows.captured_eq
  marks_eq := by
    have hcount := congrArg List.length hfollows.captured_eq
    rw [List.length_map] at hcount
    simp only [CallTrace.snapshot, StateDB.snapshot, List.map_append, List.map_singleton,
      hfollows.marks_eq]
    simp [StateDB.markOf, hfollows.next_eq, hcount]

theorem captured_split {t : CallTrace} (hfollows : Follows s t) (revision : Revision) :
    captured (s.journal.entries.take revision.journalIndex) =
        (t.alive.take (s.markOf revision).2).map t.before ∧
      captured (s.journal.entries.drop revision.journalIndex) =
        (t.alive.drop (s.markOf revision).2).map t.before := by
  have hsplit : captured (s.journal.entries.take revision.journalIndex) ++
      captured (s.journal.entries.drop revision.journalIndex) = t.alive.map t.before := by
    rw [← hfollows.captured_eq]
    unfold captured
    rw [← List.filterMap_append, List.take_append_drop]
  unfold StateDB.markOf
  rw [List.map_take, List.map_drop, ← hsplit]
  exact ⟨List.take_left.symm, List.drop_left.symm⟩

/-- The trace and the StateDB cut their calls at the same mark. -/
theorem Follows.revert {t : CallTrace} (hfollows : Follows s t) (hordered : Ordered s) {revid : ℕ}
    (hrevert : s.revertToSnapshot env revid = some s') : Follows s' (t.revert revid) := by
  have hcounter := revertToSnapshot_counter hrevert
  obtain ⟨revision, u, hget, -, hundo, rfl⟩ := revertToSnapshot_cases hrevert
  obtain ⟨hundone, hemitted, hrestored⟩ := undoAll_events hundo
  obtain ⟨htaken, hdropped⟩ := captured_split hfollows revision
  -- both searches stop at the same revision
  have hsearch : t.marks.findIdx (fun mark => decide (revid ≤ mark.1)) =
      s.validRevisions.findIdx fun other => decide (revid ≤ other.id) := by
    rw [hfollows.marks_eq, List.findIdx_map]
    rfl
  have hmark : t.marks[s.validRevisions.findIdx fun other => decide (revid ≤ other.id)]? =
      some (s.markOf revision) := by
    rw [hfollows.marks_eq, List.getElem?_map, hget]
    rfl
  generalize s.validRevisions.findIdx (fun other => decide (revid ≤ other.id)) = idx at *
  have hreverted : t.revert revid = { t with
      alive := t.alive.take (s.markOf revision).2
      marks := t.marks.take idx
      undone := t.alive[(s.markOf revision).2]?.or t.undone } := by
    simp only [CallTrace.revert, hsearch, hmark]
  rw [hreverted]
  refine ⟨?_, hundone.next_eq.trans hfollows.next_eq, hemitted.trans hfollows.emitted_eq, ?_, ?_, ?_⟩
  · rw [hcounter, hfollows.counter_eq]
  · refine hrestored.trans ?_
    rw [hdropped, hfollows.restored_eq, List.head?_map, List.head?_drop, Option.map_or]
    rfl
  · simp only [hundone.entries_eq]
    exact htaken
  · rw [hfollows.marks_eq, hundone.revisions_eq, ← List.map_take]
    refine List.map_congr_left fun other hmem => ?_
    -- the revisions that stay were taken before the one that is reverted to
    have hle : other.journalIndex ≤ revision.journalIndex := by
      obtain ⟨i, hi, rfl⟩ := List.getElem_of_mem hmem
      obtain ⟨hidx, rfl⟩ := List.getElem?_eq_some_iff.mp hget
      rw [List.length_take] at hi
      rw [List.getElem_take]
      exact (List.pairwise_iff_getElem.mp hordered.pairwise i idx (by omega) hidx (by omega)).2
    simp only [StateDB.markOf, hundone.entries_eq, List.take_take, Nat.min_eq_left hle]

theorem cacheOp_events {snapshot : ℕ} {cache cache' : CacheContext σ} {op : CacheOp σ}
    (hexec : op.exec snapshot cache = some cache') :
    cache'.events = cache.events ++ op.emitted ∧ cache'.writeEvents = cache.writeEvents := by
  cases op with
  | write change | cacheMultiStore =>
    cases hexec
    exact ⟨(List.append_nil _).symm, rfl⟩
  | emitEvents events =>
    cases hexec
    exact ⟨rfl, rfl⟩
  | revertBranch depth =>
    obtain ⟨snapshotter, _, rfl⟩ := Option.map_eq_some_iff.mp hexec
    exact ⟨(List.append_nil _).symm, rfl⟩

theorem cacheOps_events {snapshot : ℕ} {cache cache' : CacheContext σ} {body : List (CacheOp σ)}
    (hrun : CacheOp.run snapshot cache body = some cache') :
    cache'.events = cache.events ++ body.flatMap CacheOp.emitted ∧
      cache'.writeEvents = cache.writeEvents := by
  induction body generalizing cache with
  | nil =>
    cases hrun
    exact ⟨(List.append_nil _).symm, rfl⟩
  | cons op body ih =>
    obtain ⟨middle, hexec, hrest⟩ := Option.bind_eq_some_iff.mp hrun
    obtain ⟨hevents, hwrite⟩ := cacheOp_events hexec
    obtain ⟨hevents', hwrite'⟩ := ih hrest
    refine ⟨?_, hwrite'.trans hwrite⟩
    rw [hevents', hevents, List.flatMap_cons, List.append_assoc]

theorem precompileCall_cases {body : List (CacheOp σ)} (hcall : s.precompileCall body = some s') :
    ∃ cache counter, s' = { s.append (.precompileCallChange s.getCacheContext.1.snapshotter.layers.length
          s.emittedEvents) with
        cache := some cache
        precompileCallsCounter := counter } ∧
      cache.events = s.emittedEvents ++
        (if (s.precompileCallsCounter.toNat + 1) % 256 ≤ StateDB.maxPrecompileCalls.toNat then
          body.flatMap CacheOp.emitted else []) ∧
      cache.writeEvents = s.restoredEvents := by
  obtain ⟨counter, hrecorded⟩ := recordPrecompileCall_eq s
  have hwithin : s.recordPrecompileCall.1.isNone ↔
      (s.precompileCallsCounter.toNat + 1) % 256 ≤ StateDB.maxPrecompileCalls.toNat :=
    recordPrecompileCall_isNone s
  unfold StateDB.precompileCall at hcall
  rcases hrecord : s.recordPrecompileCall with ⟨err, recorded⟩
  rw [hrecord] at hrecorded hcall hwithin
  simp only at hrecorded
  subst hrecorded
  cases err with
  | some err =>
    cases hcall
    refine ⟨_, counter, rfl, ?_, rfl⟩
    rw [if_neg fun hle => by simpa using hwithin.mpr hle, List.append_nil]
    rfl
  | none =>
    obtain ⟨cache, hrun, rfl⟩ := Option.map_eq_some_iff.mp hcall
    obtain ⟨hevents, hwrite⟩ := cacheOps_events hrun
    refine ⟨cache, counter, rfl, ?_, hwrite⟩
    rw [if_pos (hwithin.mp rfl)]
    exact hevents

theorem Follows.call {t : CallTrace} (hfollows : Follows s t) (hsound : t.Sound) (hordered : Ordered s)
    {body : List (CacheOp σ)} (hcall : s.precompileCall body = some s') :
    Follows s' (t.step (.precompileCall body)) := by
  have hcounter := precompileCall_counter hcall
  obtain ⟨cache, counter, rfl, hevents, hwrite⟩ := precompileCall_cases hcall
  have hlength : (s.precompileCallsCounter.toNat + 1) % 256 = (t.calls.length + 1) % 256 := by
    rw [hfollows.counter_eq, Nat.mod_add_mod]
  rw [hlength] at hevents
  simp only [CallTrace.step]
  generalize (if (t.calls.length + 1) % 256 ≤ StateDB.maxPrecompileCalls.toNat then
    body.flatMap CacheOp.emitted else []) = events at hevents ⊢
  refine ⟨?_, hfollows.next_eq, ?_, ?_, ?_, ?_⟩
  · rw [hcounter, UInt8.toNat_add]
    simp only [CallTrace.call, List.length_append, List.length_singleton]
    exact hlength
  · refine hevents.trans ?_
    simp [CallTrace.call, hfollows.emitted_eq]
  · refine (hwrite.trans hfollows.restored_eq).trans ?_
    refine Option.map_congr fun first hfirst => ?_
    exact (t.before_call events (hsound.undone_lt first hfirst).le).symm
  · have hbefore : t.alive.map (t.call events).before = t.alive.map t.before :=
      List.map_congr_left fun i hmem => t.before_call events (hsound.alive_lt i hmem).le
    change captured (s.journal.entries ++ [_]) = (t.alive ++ [t.calls.length]).map (t.call events).before
    rw [List.map_append, hbefore, ← hfollows.captured_eq]
    unfold captured
    rw [List.filterMap_append, List.map_singleton, t.before_call events le_rfl, t.before_length,
      ← hfollows.emitted_eq]
    rfl
  · exact hfollows.marks_eq.trans (map_markOf_append hordered rfl).symm

theorem Follows.exec {t : CallTrace} (hfollows : Follows s t) (hsound : t.Sound) (hgood : s.Good env)
    (hordered : Ordered s) {op : Op σ} (hexec : s.exec env op = some s') : Follows s' (t.step op) := by
  have hcounter := exec_counter hexec
  have huncaptured : op.isPrecompileCall = false → Uncaptured s s' → Steps env s s' → Follows s' t := by
    intro hcall huncaptured ⟨_, hextends⟩
    rw [hcall] at hcounter
    exact hfollows.uncaptured hordered huncaptured hcounter hextends.revisions_eq hextends.next_eq
  cases op with
  | precompileCall body => exact hfollows.call hsound hordered hexec
  | snapshot =>
    cases hexec
    exact hfollows.snapshot
  | revertToSnapshot revid => exact hfollows.revert hordered hexec
  | selfDestruct _ | selfDestruct6780 _ =>
    refine huncaptured rfl (uncaptured_of_destructs ?_ hexec) (steps_of_destructs hgood ?_ hexec) <;> trivial
  | _ =>
    have hmoves : Moves env s s' := by
      refine moves_of_exec ?_ hexec
      trivial
    exact huncaptured rfl hmoves.uncaptured (hmoves.steps hgood)

theorem Follows.run {start : StateDB σ} {t : CallTrace} {ops : List (Op σ)} (hbase : Ordered start)
    (hnext : start.nextRevisionID = 0) (hsince : Since env start s) (hfollows : Follows s t)
    (hsound : t.Sound) (hrun : s.run env ops = some s') :
    Follows s' (ops.foldl CallTrace.step t) ∧ (ops.foldl CallTrace.step t).Sound := by
  induction ops generalizing s t with
  | nil =>
    cases hrun
    exact ⟨hfollows, hsound⟩
  | cons op ops ih =>
    obtain ⟨middle, hexec, hrest⟩ := Option.bind_eq_some_iff.mp hrun
    have habove : op.StaysAbove start.nextRevisionID := by
      rw [hnext]
      exact Op.staysAbove_zero op
    exact ih (hsince.exec hbase habove hexec)
      (hfollows.exec hsound hsince.good hsince.ordered hexec) (hsound.step op) hrest

theorem flatMap_filter_congr {f : ℕ → List Event} {p q : ℕ → Bool} (hsame : ∀ i, f i ≠ [] → p i = q i)
    (l : List ℕ) : (l.filter p).flatMap f = (l.filter q).flatMap f := by
  induction l with
  | nil => rfl
  | cons i l ih =>
    by_cases hnone : f i = []
    · simp only [List.filter_cons]
      split <;> split <;> simp [hnone, ih]
    · simp only [List.filter_cons, hsame i hnone]
      split
      · rw [List.flatMap_cons, List.flatMap_cons, ih]
      · exact ih

namespace CallTrace

theorem before_eq (t : CallTrace) (n : ℕ) :
    t.before n = (List.range n).flatMap fun i => t.calls.getD i [] := by
  unfold before
  induction n with
  | zero => rfl
  | succ n ih =>
    rw [List.take_add_one, List.flatten_append, ih, List.range_succ, List.flatMap_append]
    cases hget : t.calls[n]? <;> simp [hget]

variable {t : CallTrace}

theorem eq_of_mem_calls (hdistinct : t.calls.flatten.Nodup) {i j : ℕ} {event : Event}
    (hi : event ∈ t.calls.getD i []) (hj : event ∈ t.calls.getD j []) : i = j := by
  have hfind : ∀ {n : ℕ}, event ∈ t.calls.getD n [] → ∃ h : n < t.calls.length, event ∈ t.calls[n] := by
    intro n hmem
    rw [List.getD_eq_getElem?_getD] at hmem
    cases hget : t.calls[n]? with
    | none => simp [hget] at hmem
    | some events =>
      obtain ⟨hlt, rfl⟩ := List.getElem?_eq_some_iff.mp hget
      exact ⟨hlt, by simpa [hget] using hmem⟩
  obtain ⟨hilt, hi⟩ := hfind hi
  obtain ⟨hjlt, hj⟩ := hfind hj
  have hdisjoint := List.pairwise_iff_getElem.mp (List.nodup_flatten.mp hdistinct).2
  rcases lt_trichotomy i j with hlt | heq | hgt
  · exact absurd hj (hdisjoint i j hilt hjlt hlt hi)
  · exact heq
  · exact absurd hi (hdisjoint j i hjlt hilt hgt hj)

theorem Sound.kept_of_none (hsound : t.Sound) (hnone : t.undone = none) : t.kept = t.calls.flatten := by
  rw [← t.before_length, t.before_eq, kept, hsound.whole hnone]

theorem Sound.kept_of_settled (hsound : t.Sound) (hsettled : t.Settled) {first : ℕ}
    (hfirst : t.undone = some first) : t.kept = t.before first := by
  -- both are picked from all calls in order
  have halive : t.alive = (List.range t.calls.length).filter (· ∈ t.alive) := by
    refine hsound.ascending.eq_of_mem_iff (List.pairwise_lt_range.filter _) fun i => ?_
    rw [List.mem_filter, List.mem_range, decide_eq_true_iff]
    exact ⟨fun hmem => ⟨hsound.alive_lt i hmem, hmem⟩, And.right⟩
  have hrange : List.range first = (List.range t.calls.length).filter (· < first) := by
    refine List.pairwise_lt_range.eq_of_mem_iff (List.pairwise_lt_range.filter _) fun i => ?_
    have hlt := hsound.undone_lt first hfirst
    rw [List.mem_filter, List.mem_range, List.mem_range, decide_eq_true_iff]
    omega
  rw [t.before_eq, kept, halive, hrange]
  refine flatMap_filter_congr (fun i hevents => ?_) _
  exact decide_eq_decide.mpr (hsettled first hfirst i hevents).symm

theorem settled_of_kept (hdistinct : t.calls.flatten.Nodup)
    (hkept : ∀ first, t.undone = some first → t.kept = t.before first) : t.Settled := by
  intro first hfirst i hevents
  obtain ⟨event, hmem⟩ := List.exists_mem_of_ne_nil _ hevents
  have hsame : event ∈ t.kept ↔ event ∈ t.before first := by rw [hkept first hfirst]
  rw [t.before_eq, kept, List.mem_flatMap, List.mem_flatMap] at hsame
  constructor
  · intro hlt
    obtain ⟨j, halive, hj⟩ := hsame.mpr ⟨i, List.mem_range.mpr hlt, hmem⟩
    exact eq_of_mem_calls hdistinct hj hmem ▸ halive
  · intro halive
    obtain ⟨j, hlt, hj⟩ := hsame.mp ⟨i, halive, hmem⟩
    exact eq_of_mem_calls hdistinct hj hmem ▸ List.mem_range.mp hlt

end CallTrace

theorem Start.follows {ctx : Context σ} {start : StateDB σ} (hstart : Start ctx start) :
    Follows start .start := by
  have hcounter : start.precompileCallsCounter = 0 := hstart.counter_eq
  obtain ⟨-, hjournal, -, hrevisions, hnext, hcache, -⟩ := hstart.spec
  refine ⟨by rw [hcounter]; rfl, hnext, ?_, ?_, ?_, ?_⟩
  · rw [StateDB.emittedEvents, StateDB.getCacheContext, hcache]
    rfl
  · rw [StateDB.restoredEvents, StateDB.getCacheContext, hcache]
    rfl
  · rw [hjournal]
    rfl
  · rw [hrevisions]
    rfl

theorem writeCache_events_of_run {ctx : Context σ} {start : StateDB σ} (hstart : Start ctx start)
    {ops : List (Op σ)} (hrun : start.run env ops = some s) :
    (CallTrace.of ops).Sound ∧ s.writeCache.events = ctx.events ++
      ((CallTrace.of ops).undone.map (CallTrace.of ops).before).getD (CallTrace.of ops).calls.flatten := by
  obtain ⟨-, -, -, -, hnext, -, hctx⟩ := hstart.spec
  have hsince := hstart.since env
  obtain ⟨hfollows, hsound⟩ :=
    Follows.run hsince.ordered hnext hsince hstart.follows CallTrace.sound_start hrun
  refine ⟨hsound, ?_⟩
  rw [writeCache_events, (hstart.since_run hrun).ctx_eq, hctx, hfollows.restored_eq, hfollows.emitted_eq]
  rfl

/-- After a run, `Commit` hands over the events of the calls that are not reverted, each once and in order,
when these are the calls before the first one that the last revert took back, as far as they emitted
anything. Where all events differ it hands them over only then. -/
theorem commit_events_iff_settled {ctx : Context σ} {start : StateDB σ} (hstart : Start ctx start)
    {ops : List (Op σ)} (hrun : start.run env ops = some s) :
    ((CallTrace.of ops).Settled → s.writeCache.events = ctx.events ++ (CallTrace.of ops).kept) ∧
      ((CallTrace.of ops).calls.flatten.Nodup →
        s.writeCache.events = ctx.events ++ (CallTrace.of ops).kept → (CallTrace.of ops).Settled) := by
  obtain ⟨hsound, hevents⟩ := writeCache_events_of_run hstart hrun
  rw [hevents]
  constructor
  · intro hsettled
    cases hundone : (CallTrace.of ops).undone with
    | none => rw [hsound.kept_of_none hundone]; rfl
    | some first => rw [hsound.kept_of_settled hsettled hundone]; rfl
  · intro hdistinct hkept
    refine CallTrace.settled_of_kept hdistinct fun first hfirst => ?_
    rw [hfirst] at hkept
    exact (List.append_cancel_left hkept).symm

def emitting (type : String) : Op ℕ := .precompileCall [.write (· + 1), .emitEvents [⟨type, []⟩]]

/-- A call that is reverted after one that is not. -/
theorem commit_events_settled_sample :
    let start := new (σ := ℕ) ⟨0, []⟩ ⟨zeroHash, zeroHash, 0, 0⟩
    let ops := [emitting "transfer", .snapshot, emitting "coin_spent", .revertToSnapshot 0]
    ∃ s, start.run (Env.blank ℕ) ops = some s ∧ s.writeCache.events = [⟨"transfer", []⟩] := by
  intro start ops
  have hsome : (start.run (Env.blank ℕ) ops).isSome = true := by decide +kernel
  obtain ⟨s, hrun⟩ := Option.isSome_iff_exists.mp hsome
  refine ⟨s, hrun, ((commit_events_iff_settled (.new _) hrun).1 ?_).trans ?_⟩
  · intro first hfirst i hevents
    have htrace : CallTrace.of ops = ⟨[[⟨"transfer", []⟩], [⟨"coin_spent", []⟩]], [0], [], 1, some 1⟩ := rfl
    rw [htrace] at hfirst hevents ⊢
    cases hfirst
    simp
  · rfl

/-- The events of a call after a reverted one are lost, and a later revert brings the events of an earlier
reverted call back. -/
theorem commit_events_lost :
    let start := new (σ := ℕ) ⟨0, []⟩ ⟨zeroHash, zeroHash, 0, 0⟩
    let lost := [.snapshot, emitting "coin_spent", .revertToSnapshot 0, emitting "transfer"]
    let back := [.snapshot, emitting "coin_spent", .revertToSnapshot 0, .snapshot, emitting "transfer",
      .revertToSnapshot 1]
    (start.run (Env.blank ℕ) lost).map (fun s => s.writeCache.events) = some [] ∧
      (CallTrace.of lost).kept = [⟨"transfer", []⟩] ∧
      (start.run (Env.blank ℕ) back).map (fun s => s.writeCache.events) = some [⟨"coin_spent", []⟩] ∧
      (CallTrace.of back).kept = [] := by
  decide +kernel

end CosmosEvm.Statedb
