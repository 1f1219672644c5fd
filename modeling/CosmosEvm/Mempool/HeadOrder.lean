import CosmosEvm.Mempool.ChainHead

namespace CosmosEvm.Mempool.ChainHead

/-- What a schedule keeps to. The store is loaded beyond the depth of a reorg, one call of `NotifyNewBlock` does not
begin during another, the loop has subscribed when a head is sent, and no other head waits for the running reset. -/
def Scheduled (s : State) : Event → Prop
  | .load ctx => 64 < ctx.height
  | .make source => s.notifier source.other = .idle
  | .send _ => s.subscribed = true ∧ ∀ reset ∈ s.reset, s.newHead.pointer = reset.newHead.pointer
  | _ => True

instance (s : State) : (event : Event) → Decidable (Scheduled s event)
  | .load _ => inferInstanceAs (Decidable (_ < _))
  | .make _ => inferInstanceAs (Decidable (_ = _))
  | .send _ => inferInstanceAs (Decidable (_ ∧ _))
  | .commit _ | .subscribe | .keep _ | .fetch | .done => .isTrue trivial

def Orderly (b : Blockchain) (s : State) : List Event → Prop
  | [] => True
  | event :: rest => Scheduled s event ∧ ∀ t ∈ b.step s event, Orderly b t rest

instance decidableOrderly (b : Blockchain) : ∀ (s : State) (events : List Event), Decidable (Orderly b s events)
  | _, [] => .isTrue trivial
  | s, event :: rest =>
    have : ∀ t, Decidable (Orderly b t rest) := fun t => decidableOrderly b t rest
    inferInstanceAs (Decidable (Scheduled s event ∧ ∀ t ∈ b.step s event, Orderly b t rest))

structure Linked (b : Blockchain) (s : State) : Prop where
  calm : s.panicked = false
  follows : ∀ reset, s.reset = some reset →
    b.Follows reset.oldHead reset.newHead ∨ Deep reset.oldHead reset.newHead
  fetch : ∀ reset, s.reset = some reset → reset.fetch = .over

def Next (b : Blockchain) (old new : Head) : Prop :=
  new = old ∨ new.pointer ≠ old.pointer ∧ (b.Follows old new ∨ Deep old new)

/-- Nothing has been notified, and the header that will be is the zero header or far from it. -/
def Fresh (s : State) : Prop :=
  s.previousHeaderHash = zeroHash ∧ s.newHead = zeroHead ∧ s.announced = false ∧
    ∀ ctx ∈ s.ctx, 64 < ctx.height

/-- The head that a notifier has made up comes next in the loop. -/
def Extends (b : Blockchain) (s : State) (head : Head) : Prop :=
  Next b s.newHead head ∧ head.pointer < s.pointers ∧ (s.ctx = none → head = zeroHead)

/-- What the notifiers are at: none of them is busy and the hash that is kept is that of the loop's newest head, or one
of them is and its head extends the loop's, by its hash as soon as that is kept. -/
def Phase (b : Blockchain) (s : State) : Prop :=
  (∀ source, s.notifier source = .idle) ∧
      (Fresh s ∨ s.previousHeaderHash = b.hash s.newHead.header) ∨
    ∃ source head, s.notifier source.other = .idle ∧ Extends b s head ∧
      (s.notifier source = .made head ∨
        s.notifier source = .sending head ∧ s.previousHeaderHash = b.hash head.header)

structure Inv (b : Blockchain) (s : State) : Prop extends Linked b s where
  idle : s.reset = none → s.newHead = s.oldHead
  waiting : ∀ reset, s.reset = some reset → Next b reset.newHead s.newHead
  pointer_lt : s.newHead.pointer < s.pointers
  zero : s.ctx = none → s.newHead = zeroHead
  phase : Phase b s

section Invariant

variable {b : Blockchain} {s t : State} {head : Head} {source : Source}

theorem Next.eq_of_pointer {old new : Head} (hnext : Next b old new) (heq : new.pointer = old.pointer) :
    new = old :=
  hnext.resolve_right fun hne => hne.1 heq

theorem source_cases (source found : Source) : found = source ∨ found = source.other := by
  cases source <;> cases found <;> simp [Source.other]

/-- A notifier that is busy is the one that the invariant tells of. -/
theorem Phase.of_busy (hphase : Phase b s) (hbusy : s.notifier source ≠ .idle) :
    ∃ head, s.notifier source.other = .idle ∧ Extends b s head ∧
      (s.notifier source = .made head ∨
        s.notifier source = .sending head ∧ s.previousHeaderHash = b.hash head.header) := by
  obtain ⟨hidle, -⟩ | ⟨found, head, hother, hrest⟩ := hphase
  · exact absurd (hidle source) hbusy
  · obtain rfl | rfl := source_cases found source
    · exact ⟨head, hother, hrest⟩
    · exact absurd hother hbusy

/-- A header that is made up while nobody else notifies is linked by the hash that is kept. -/
theorem extends_currentBlock (hinv : Inv b s)
    (hkept : Fresh s ∨ s.previousHeaderHash = b.hash s.newHead.header) :
    Extends b { s with pointers := s.pointers + 1 }
      (b.currentBlock s.ctx s.previousHeaderHash s.pointers) := by
  cases hctx : s.ctx with
  | none =>
    refine ⟨.inl (hinv.zero hctx).symm, ?_, fun _ => rfl⟩
    exact Nat.succ_pos s.pointers
  | some ctx =>
    refine ⟨.inr ⟨hinv.pointer_lt.ne', ?_⟩, Nat.lt_succ_self s.pointers, nofun⟩
    obtain ⟨-, hhead, -, hfar⟩ | hhash := hkept
    · right
      have hfar := hfar ctx hctx
      change 64 < ((s.newHead.header.number : ℤ) - (ctx.height : ℤ)).natAbs
      rw [hhead]
      change 64 < ((0 : ℕ) - (ctx.height : ℤ)).natAbs
      omega
    · exact .inl hhash.symm

theorem fetch_newReset {oldHead newHead : Head}
    (hlinked : b.Follows oldHead newHead ∨ Deep oldHead newHead) :
    (b.newReset oldHead newHead).fetch = .over := if_pos hlinked

/-- The loop starts a reset to a head that is next to the last one, or has nothing to do. -/
theorem inv_tryReset (hcalm : s.panicked = false) (hidle : s.reset = none) (hnext : Next b s.oldHead s.newHead)
    (hlt : s.newHead.pointer < s.pointers) (hzero : s.ctx = none → s.newHead = zeroHead) (hphase : Phase b s) :
    Inv b (b.tryReset s) := by
  unfold Blockchain.tryReset
  split_ifs with hstart
  · have hlinked := (hnext.resolve_left fun heq => hstart.1 (congrArg Head.pointer heq)).2
    refine ⟨⟨hcalm, ?_, ?_⟩, nofun, ?_, hlt, hzero, hphase⟩
    · rintro reset ⟨⟩
      exact hlinked
    · rintro reset ⟨⟩
      exact fetch_newReset hlinked
    · rintro reset ⟨⟩
      exact .inl rfl
  · refine ⟨⟨hcalm, ?_, ?_⟩, fun _ => ?_, ?_, hlt, hzero, hphase⟩
    · simp [hidle]
    · simp [hidle]
    · by_contra hne
      exact hstart ⟨fun heq => hne (hnext.eq_of_pointer heq), hidle⟩
    · simp [hidle]

theorem call_eq (hcall : s.call source = some t) :
    ∃ announced events, t = { s with announced, events } := by
  cases source with
  | endBlock =>
    simp only [State.call] at hcall
    split_ifs at hcall
    cases hcall
    exact ⟨true, s.events, rfl⟩
  | eventBus =>
    simp only [State.call] at hcall
    split_ifs at hcall
    cases hcall
    exact ⟨s.announced, s.events - 1, rfl⟩

theorem notifier_setNotifier_self (notifier : Notifier) :
    (s.setNotifier source notifier).notifier source = notifier := if_pos rfl

theorem notifier_setNotifier_other (notifier : Notifier) :
    (s.setNotifier source notifier).notifier source.other = s.notifier source.other := by
  refine if_neg ?_
  cases source <;> exact nofun

theorem inv_make (hinv : Inv b s) (hother : s.notifier source.other = .idle)
    (hstep : b.step s (.make source) = some t) : Inv b t := by
  simp only [Blockchain.step] at hstep
  split at hstep
  · next hidle =>
    obtain ⟨called, hcall, hmade⟩ := Option.bind_eq_some_iff.mp hstep
    obtain ⟨announced, events, rfl⟩ := call_eq hcall
    cases hmade
    have hkept : Fresh s ∨ s.previousHeaderHash = b.hash s.newHead.header := by
      obtain ⟨-, hkept⟩ | ⟨found, head, hfound, -, hbusy⟩ := hinv.phase
      · exact hkept
      · have hnone : s.notifier found = .idle := by
          obtain rfl | rfl := source_cases source found
          · exact hidle
          · exact hother
        rw [hnone] at hbusy
        simp at hbusy
    obtain ⟨hnext, hlt, hzero⟩ := extends_currentBlock hinv hkept
    refine ⟨⟨hinv.calm, hinv.follows, hinv.fetch⟩, hinv.idle, hinv.waiting, Nat.lt_succ_of_lt hinv.pointer_lt,
      hinv.zero, .inr ⟨source, _, ?_, ⟨hnext, hlt, hzero⟩, .inl (notifier_setNotifier_self _)⟩⟩
    exact (notifier_setNotifier_other _).trans hother
  · cases hstep

theorem inv_keep (hinv : Inv b s) (hstep : b.step s (.keep source) = some t) : Inv b t := by
  simp only [Blockchain.step] at hstep
  split at hstep
  · next made hmade =>
    cases hstep
    obtain ⟨head, hother, ⟨hnext, hlt, hzero⟩, hbusy⟩ := hinv.phase.of_busy (by rw [hmade]; exact nofun)
    obtain rfl : made = head := by
      rw [hmade] at hbusy
      simpa using hbusy
    refine ⟨⟨hinv.calm, hinv.follows, hinv.fetch⟩, hinv.idle, hinv.waiting, hinv.pointer_lt, hinv.zero,
      .inr ⟨source, made, ?_, ⟨hnext, hlt, hzero⟩, .inr ⟨notifier_setNotifier_self _, rfl⟩⟩⟩
    exact (notifier_setNotifier_other _).trans hother
  · cases hstep

theorem inv_send (hinv : Inv b s) (hscheduled : Scheduled s (.send source))
    (hstep : b.step s (.send source) = some t) : Inv b t := by
  obtain ⟨hsubscribed, hwaits⟩ := hscheduled
  simp only [Blockchain.step] at hstep
  split at hstep
  · next sent hsending =>
    rw [if_pos hsubscribed] at hstep
    cases hstep
    obtain ⟨head, hother, ⟨hnext, hlt, hzero⟩, hbusy⟩ := hinv.phase.of_busy (by rw [hsending]; exact nofun)
    rw [hsending] at hbusy
    obtain ⟨rfl, hhash⟩ : sent = head ∧ s.previousHeaderHash = b.hash head.header := by simpa using hbusy
    have hphase : Phase b ({ s with newHead := sent }.setNotifier source .idle) := by
      refine .inl ⟨fun found => ?_, .inr hhash⟩
      obtain rfl | rfl := source_cases source found
      · exact notifier_setNotifier_self _
      · exact (notifier_setNotifier_other _).trans hother
    by_cases hreset : s.reset = none
    · rw [hinv.idle hreset] at hnext
      exact inv_tryReset hinv.calm hreset hnext hlt hzero hphase
    · have hbusy : b.tryReset ({ s with newHead := sent }.setNotifier source .idle) =
          { s with newHead := sent }.setNotifier source .idle := if_neg fun hstart => hreset hstart.2
      rw [hbusy]
      refine ⟨⟨hinv.calm, hinv.follows, hinv.fetch⟩, fun hnone => absurd hnone hreset, fun reset hsome => ?_, hlt,
        hzero, hphase⟩
      -- the head before this one is the one that the reset goes to
      rw [(hinv.waiting reset hsome).eq_of_pointer (hwaits reset hsome)] at hnext
      exact hnext
  · cases hstep

theorem inv_fetch (hinv : Inv b s) (hstep : b.step s .fetch = some t) : Inv b t := by
  simp only [Blockchain.step] at hstep
  split at hstep
  · cases hstep
  · next reset hreset =>
    -- the reset needs no block, so that it stays where it is
    have hover := hinv.fetch reset hreset
    rw [hover] at hstep
    cases hstep
    have hsame : s.reset = some { reset with fetch := .over } := by rw [hreset, ← hover]
    refine ⟨⟨hinv.calm, ?_, ?_⟩, nofun, ?_, hinv.pointer_lt, hinv.zero, hinv.phase⟩
    · exact fun other hother => hinv.follows other (hsame.trans hother)
    · exact fun other hother => hinv.fetch other (hsame.trans hother)
    · exact fun other hother => hinv.waiting other (hsame.trans hother)

theorem inv_done (hinv : Inv b s) (hstep : b.step s .done = some t) : Inv b t := by
  simp only [Blockchain.step] at hstep
  split at hstep
  · cases hstep
  · next reset hreset =>
    rw [if_pos (hinv.fetch reset hreset)] at hstep
    cases hstep
    exact inv_tryReset hinv.calm rfl (hinv.waiting reset hreset) hinv.pointer_lt hinv.zero hinv.phase

theorem inv_load {ctx : LatestCtx} (hinv : Inv b s) (hfar : 64 < ctx.height)
    (hstep : b.step s (.load ctx) = some t) : Inv b t := by
  simp only [Blockchain.step] at hstep
  split_ifs at hstep
  cases hstep
  refine ⟨⟨hinv.calm, hinv.follows, hinv.fetch⟩, hinv.idle, hinv.waiting, hinv.pointer_lt, nofun, ?_⟩
  obtain ⟨hidle, hfresh | hhash⟩ | ⟨source, head, hother, ⟨hnext, hlt, -⟩, hbusy⟩ := hinv.phase
  · exact .inl ⟨hidle, .inl ⟨hfresh.1, hfresh.2.1, hfresh.2.2.1, by rintro _ ⟨⟩; exact hfar⟩⟩
  · exact .inl ⟨hidle, .inr hhash⟩
  · exact .inr ⟨source, head, hother, ⟨hnext, hlt, nofun⟩, hbusy⟩

theorem inv_commit {ctx : LatestCtx} (hinv : Inv b s) (hstep : b.step s (.commit ctx) = some t) : Inv b t := by
  simp only [Blockchain.step] at hstep
  split_ifs at hstep with hannounced
  cases hstep
  refine ⟨⟨hinv.calm, hinv.follows, hinv.fetch⟩, hinv.idle, hinv.waiting, hinv.pointer_lt, nofun, ?_⟩
  obtain ⟨hidle, hfresh | hhash⟩ | ⟨source, head, hother, ⟨hnext, hlt, -⟩, hbusy⟩ := hinv.phase
  · -- `EndBlock` has called before the first commit
    cases hfresh.2.2.1.symm.trans hannounced.1
  · exact .inl ⟨hidle, .inr hhash⟩
  · exact .inr ⟨source, head, hother, ⟨hnext, hlt, nofun⟩, hbusy⟩

theorem inv_step {event : Event} (hinv : Inv b s) (hscheduled : Scheduled s event)
    (hstep : b.step s event = some t) : Inv b t := by
  cases event with
  | load ctx => exact inv_load hinv hscheduled hstep
  | commit ctx => exact inv_commit hinv hstep
  | subscribe =>
    cases hstep
    exact ⟨⟨hinv.calm, hinv.follows, hinv.fetch⟩, hinv.idle, hinv.waiting, hinv.pointer_lt, hinv.zero, hinv.phase⟩
  | make source => exact inv_make hinv hscheduled hstep
  | keep source => exact inv_keep hinv hstep
  | send source => exact inv_send hinv hscheduled hstep
  | fetch => exact inv_fetch hinv hstep
  | done => exact inv_done hinv hstep

theorem inv_run {events : List Event} (hinv : Inv b s) (horderly : Orderly b s events)
    (hrun : b.run s events = some t) : Inv b t := by
  induction events generalizing s with
  | nil =>
    cases hrun
    exact hinv
  | cons event rest ih =>
    simp only [Blockchain.run] at hrun
    rw [if_neg (by simp [hinv.calm])] at hrun
    obtain ⟨next, hstep, hrest⟩ := Option.bind_eq_some_iff.mp hrun
    exact ih (inv_step hinv horderly.1 hstep) (horderly.2 next hstep) hrest

theorem inv_start (b : Blockchain) : Inv b (b.start none) := by
  have hreset : (b.start none).reset = none := rfl
  refine ⟨⟨rfl, by simp [hreset], by simp [hreset]⟩, fun _ => rfl, by simp [hreset], Nat.two_pos, fun _ => rfl,
    .inl ⟨fun _ => rfl, .inl ⟨rfl, rfl, rfl, nofun⟩⟩⟩

end Invariant

/-- From a start without a context, in every run that keeps to the schedule, no reset asks for a block: the hash that
`NotifyNewBlock` keeps links each head to the one before it, and the loop takes them one after the other. -/
theorem linked_of_orderly (b : Blockchain) (events : List Event) (s : State)
    (horderly : Orderly b (b.start none) events) (hrun : b.run (b.start none) events = some s) : Linked b s :=
  (inv_run (inv_start b) horderly hrun).toLinked

def countingChain : Blockchain where
  blockGasLimit := 100000000
  isLondon := fun _ => false
  hash := fun header => bytesToHash (lowByte (header.number + 1) :: header.parentHash.bytes.take 31)

def ctxAt (height : ℕ) : LatestCtx := ⟨height, 0, 0, zeroHash, none⟩

def notify (source : Source) : List Event := [.make source, .keep source, .send source]

def firstBlocks : List Event :=
  .subscribe :: notify .endBlock ++ [.commit (ctxAt 1)] ++ notify .eventBus ++ [.done] ++ notify .endBlock ++
    [.done, .commit (ctxAt 2)] ++ notify .eventBus

theorem linked_firstBlocks : ∃ s reset, countingChain.run (countingChain.start none) firstBlocks = some s ∧
    s.reset = some reset ∧ reset.newHead.header.number = 2 ∧ Linked countingChain s := by
  obtain ⟨s, hrun, reset, hreset, hnumber⟩ :
      ∃ s ∈ countingChain.run (countingChain.start none) firstBlocks, ∃ reset ∈ s.reset,
        reset.newHead.header.number = 2 := by decide +kernel
  exact ⟨s, reset, hrun, hreset, hnumber,
    linked_of_orderly countingChain firstBlocks s (by decide +kernel) hrun⟩

/-- The node panics when it is started again at height five, at its first head, and also on a new chain, when the
reset to the head of block 1 is not over until block 2 is there. -/
theorem head_panics :
    (countingChain.run (countingChain.start none)
      (.subscribe :: .load (ctxAt 5) :: notify .endBlock ++ [.fetch])).map State.panicked = some true ∧
    (countingChain.run (countingChain.start none)
      (.subscribe :: notify .endBlock ++ [.commit (ctxAt 1)] ++ notify .eventBus ++ notify .endBlock ++
        [.commit (ctxAt 2)] ++ notify .eventBus ++ [.done, .fetch])).map State.panicked = some true := by
  decide +kernel

end CosmosEvm.Mempool.ChainHead
