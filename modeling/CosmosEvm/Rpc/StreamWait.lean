import CosmosEvm.Lib.Transition
import CosmosEvm.Rpc.Stream

namespace CosmosEvm.Rpc.StreamWait

variable {ι V : Type}

/-- Where a goroutine stands: what it does next. The first ones are `ReadBlocking` with `Cond.Wait`, the
others `Add` with `Cond.Broadcast`. -/
inductive Phase (V : Type) where
  | idle
  | rLock (offset : ℤ)
  | read (offset : ℤ)
  | rUnlock (offset : ℤ)
  | condLock (offset : ℤ)
  | capture (offset : ℤ)
  | condUnlock (offset : ℤ) (ch : ℕ)
  | select (offset : ℤ) (ch : ℕ)
  | rRelock (offset : ℤ) (signaled : Bool)
  | leave (items : List V) (offset : ℤ)
  | returned (items : List V) (offset : ℤ)
  | lock (vs : List V)
  | append (vs : List V)
  | broadcastLock
  | close
  | broadcastUnlock
  | unlock
deriving DecidableEq

/-- Nothing was found to read, and the channel is not taken yet. -/
def Phase.inWindow : Phase V → Bool
  | .condLock _ | .capture _ => true
  | _ => false

/-- The stream and its locks, the channel of the condition, and the goroutines with their contexts. Channels
are numbered in the order they are made, so that all but the last one are closed. -/
structure State (ι V : Type) where
  stream : Stream V
  writer : Option ι
  readers : Finset ι
  condHolder : Option ι
  channel : ℕ
  threads : ι → Phase V
  canceled : ι → Bool

inductive Move (V : Type) where
  | readBlocking (offset : ℤ)
  | add (vs : List V)
  | cancel
  | next
  | done
deriving DecidableEq

namespace State

def start (stream : Stream V) : State ι V := ⟨stream, none, ∅, none, 0, fun _ => .idle, fun _ => false⟩

section Moves

variable [DecidableEq ι] (s : State ι V) (i : ι)

def goto (phase : Phase V) : State ι V := { s with threads := Function.update s.threads i phase }

def next : Option (State ι V) :=
  match s.threads i with
  | .idle | .returned _ _ => none
  | .rLock offset =>
    if s.writer = none then some { s.goto i (.read offset) with readers := insert i s.readers } else none
  | .read offset =>
    match s.stream.doRead offset with
    | .error _ => none
    | .ok ([], offset) => some (s.goto i (.rUnlock offset))
    | .ok (items, offset) => some (s.goto i (.leave items offset))
  | .rUnlock offset => some { s.goto i (.condLock offset) with readers := s.readers.erase i }
  | .condLock offset =>
    if s.condHolder = none then some { s.goto i (.capture offset) with condHolder := some i } else none
  | .capture offset => some (s.goto i (.condUnlock offset s.channel))
  | .condUnlock offset ch => some { s.goto i (.select offset ch) with condHolder := none }
  | .select offset ch => if ch < s.channel then some (s.goto i (.rRelock offset true)) else none
  | .rRelock offset signaled =>
    if s.writer = none then
      some { s.goto i (if signaled then .read offset else .leave [] 0) with readers := insert i s.readers }
    else none
  | .leave items offset => some { s.goto i (.returned items offset) with readers := s.readers.erase i }
  | .lock vs =>
    if s.writer = none ∧ s.readers = ∅ then some { s.goto i (.append vs) with writer := some i } else none
  | .append vs =>
    match vs.foldlM Stream.addItem s.stream with
    | .error _ => none
    | .ok stream => some { s.goto i .broadcastLock with stream }
  | .broadcastLock => if s.condHolder = none then some { s.goto i .close with condHolder := some i } else none
  | .close => some { s.goto i .broadcastUnlock with channel := s.channel + 1 }
  | .broadcastUnlock => some { s.goto i .unlock with condHolder := none }
  | .unlock => some { s.goto i (.returned [] s.stream.lastID) with writer := none }

def free : Bool :=
  match s.threads i with
  | .idle | .returned _ _ => true
  | _ => false

def exec : Move V → Option (State ι V)
  | .readBlocking offset =>
    if s.free i then some { s.goto i (.rLock offset) with canceled := Function.update s.canceled i false }
    else none
  | .add vs =>
    if s.free i then some (s.goto i (if vs.length = 0 then .returned [] 0 else .lock vs)) else none
  | .cancel => some { s with canceled := Function.update s.canceled i true }
  | .next => s.next i
  | .done =>
    match s.threads i with
    | .select offset _ => if s.canceled i then some (s.goto i (.rRelock offset false)) else none
    | _ => none

end Moves

def Pending (s : State ι V) : Prop := ∃ i, s.threads i = .broadcastLock ∨ s.threads i = .close

/-- A reader that waits on an open channel, with a context that is not canceled, has everything that is in the
stream and announced. -/
def NoLostWakeup (s : State ι V) : Prop :=
  ∀ i offset ch, s.threads i = .select offset ch → ch = s.channel → s.canceled i = false →
    ¬ s.Pending → s.stream.lastID ≤ offset

/-- The move announces nothing while a reader, with a context that is not canceled, is about to wait. -/
def Quiet (s : State ι V) (i : ι) (move : Move V) : Prop :=
  s.threads i = .close → move = .next → ∀ k, (s.threads k).inWindow = true → s.canceled k = true

def Step [DecidableEq ι] (allowed : State ι V → ι → Move V → Prop) (s t : State ι V) : Prop :=
  ∃ i move, s.exec i move = some t ∧ allowed s i move

def run [DecidableEq ι] (allowed : State ι V → ι → Move V → Prop)
    [∀ s i move, Decidable (allowed s i move)] : State ι V → List (ι × Move V) → Option (State ι V)
  | s, [] => some s
  | s, (i, move) :: moves =>
    if allowed s i move then (s.exec i move).bind fun s => run allowed s moves else none

instance [Fintype ι] [DecidableEq V] (s : State ι V) (i : ι) (move : Move V) : Decidable (s.Quiet i move) :=
  inferInstanceAs (Decidable (_ → _ → ∀ _, _ → _))

/-- What is known of a goroutine in a phase: the lock it holds, and that a reader on its way to the channel,
or waiting on the open one, has everything that is announced. -/
def Fits (s : State ι V) (i : ι) : Phase V → Prop
  | .read _ | .leave _ _ => i ∈ s.readers
  | .rUnlock offset => i ∈ s.readers ∧ s.stream.lastID ≤ offset
  | .condLock offset | .capture offset => s.canceled i = false → s.stream.lastID ≤ offset ∨ s.Pending
  | .condUnlock offset ch | .select offset ch => ch ≤ s.channel ∧
      (ch = s.channel → s.canceled i = false → s.stream.lastID ≤ offset ∨ s.Pending)
  | .append _ | .broadcastLock | .close | .broadcastUnlock | .unlock => s.writer = some i
  | .idle | .rLock _ | .rRelock _ _ | .returned _ _ | .lock _ => True

structure Sound (s : State ι V) : Prop where
  excl : ∀ i, s.writer = some i → s.readers = ∅
  fits : ∀ i, s.Fits i (s.threads i)

theorem Sound.writer_ne {s : State ι V} (hsound : s.Sound) {i : ι} (hmem : i ∈ s.readers) (j : ι) :
    s.writer ≠ some j := by
  intro hwriter
  rw [hsound.excl j hwriter] at hmem
  exact Finset.notMem_empty i hmem

theorem sound_start (stream : Stream V) : (start stream : State ι V).Sound where
  excl i hwriter := absurd hwriter (by simp [start])
  fits _ := trivial

theorem Sound.noLostWakeup {s : State ι V} (hsound : s.Sound) : s.NoLostWakeup := by
  intro i offset ch hphase hch hopen hdone
  have hfits := hsound.fits i
  rw [hphase] at hfits
  exact (hfits.2 hch hopen).resolve_right hdone

section Frame

variable {s t : State ι V} {i : ι} {phase : Phase V}

theorem Fits.frame {k : ι} (hfits : s.Fits k phase) (hstream : t.stream = s.stream)
    (hchannel : t.channel = s.channel) (hcanceled : t.canceled k = s.canceled k)
    (hreaders : k ∈ s.readers → k ∈ t.readers) (hwriter : s.writer = some k → t.writer = some k)
    (hpending : s.Pending → t.Pending) : t.Fits k phase := by
  cases phase with
  | read _ | leave _ _ => exact hreaders hfits
  | rUnlock offset => exact ⟨hreaders hfits.1, hstream ▸ hfits.2⟩
  | condLock offset | capture offset =>
    intro hopen
    rw [hstream]
    exact (hfits (hcanceled ▸ hopen)).imp_right hpending
  | condUnlock offset ch | select offset ch =>
    refine ⟨hchannel ▸ hfits.1, fun hch hopen => ?_⟩
    rw [hstream]
    exact (hfits.2 (hchannel ▸ hch) (hcanceled ▸ hopen)).imp_right hpending
  | append _ | broadcastLock | close | broadcastUnlock | unlock => exact hwriter hfits
  | idle | rLock _ | rRelock _ _ | returned _ _ | lock _ => trivial

variable [DecidableEq ι]

theorem sound_of_update (hsound : s.Sound) (hthreads : t.threads = Function.update s.threads i phase)
    (hexcl : ∀ j, t.writer = some j → t.readers = ∅) (hself : t.Fits i phase)
    (hothers : ∀ k, k ≠ i → s.Fits k (s.threads k) → t.Fits k (s.threads k)) : t.Sound := by
  refine ⟨hexcl, fun k => ?_⟩
  rw [hthreads]
  by_cases heq : k = i
  · subst heq
    rw [Function.update_self]
    exact hself
  · rw [Function.update_of_ne heq]
    exact hothers k heq (hsound.fits k)

theorem pending_of_update (hthreads : t.threads = Function.update s.threads i phase)
    (hself : s.threads i = .broadcastLock ∨ s.threads i = .close → phase = .broadcastLock ∨ phase = .close)
    (hpending : s.Pending) : t.Pending := by
  obtain ⟨j, hj⟩ := hpending
  refine ⟨j, ?_⟩
  rw [hthreads]
  by_cases heq : j = i
  · subst heq
    rw [Function.update_self]
    exact hself hj
  · rw [Function.update_of_ne heq]
    exact hj

section

variable (hsound : s.Sound) (hthreads : t.threads = Function.update s.threads i phase)
  (hstream : t.stream = s.stream) (hchannel : t.channel = s.channel)
  (hcanceled : ∀ k, k ≠ i → t.canceled k = s.canceled k)

include hsound hthreads hstream hchannel hcanceled

theorem sound_of_local (hreaders : ∀ k, k ≠ i → k ∈ s.readers → k ∈ t.readers)
    (hwriter : ∀ k, k ≠ i → s.writer = some k → t.writer = some k)
    (hdue : s.threads i = .broadcastLock ∨ s.threads i = .close → phase = .broadcastLock ∨ phase = .close)
    (hexcl : ∀ j, t.writer = some j → t.readers = ∅) (hself : t.Fits i phase) : t.Sound :=
  sound_of_update hsound hthreads hexcl hself fun k hne hfits =>
    hfits.frame hstream hchannel (hcanceled k hne) (hreaders k hne) (hwriter k hne)
      (pending_of_update hthreads hdue)

theorem sound_of_goto (hreaders : t.readers = s.readers) (hwriter : t.writer = s.writer)
    (hdue : s.threads i = .broadcastLock ∨ s.threads i = .close → phase = .broadcastLock ∨ phase = .close)
    (hself : t.Fits i phase) : t.Sound := by
  refine sound_of_local hsound hthreads hstream hchannel hcanceled (fun k _ => ?_) (fun k _ => ?_) hdue ?_ hself
  · rw [hreaders]
    exact id
  · rw [hwriter]
    exact id
  · rw [hreaders, hwriter]
    exact hsound.excl

end

end Frame

variable [DecidableEq ι] {s t : State ι V} {i : ι}

theorem doRead_nil {stream : Stream V} {offset offset' : ℤ} (hread : stream.doRead offset = .ok ([], offset')) :
    offset' = stream.lastID := by
  unfold Stream.doRead at hread
  split at hread
  · exact (Prod.mk.inj (Except.ok.inj hread)).2.symm
  split at hread
  · exact (Prod.mk.inj (Except.ok.inj hread)).2.symm
  dsimp only at hread
  split at hread
  · exact (Prod.mk.inj (Except.ok.inj hread)).2.symm
  split at hread
  · cases hread
  split at hread
  · exact (Prod.mk.inj (Except.ok.inj hread)).2.symm
  · rename_i hne
    exact absurd (Prod.mk.inj (Except.ok.inj hread)).1 hne

section Phases

variable (hsound : s.Sound) (hnext : s.next i = some t)

include hsound hnext

theorem Sound.next_rLock {offset : ℤ} (hphase : s.threads i = .rLock offset) : t.Sound := by
  unfold State.next at hnext
  rw [hphase] at hnext
  obtain ⟨hfree, hnext⟩ := Option.ite_none_right_eq_some.mp hnext
  cases hnext
  refine sound_of_local hsound rfl rfl rfl (fun _ _ => rfl) (fun k _ => Finset.mem_insert_of_mem)
    (fun _ _ => id) (by simp [hphase]) (fun j hwriter => ?_) (Finset.mem_insert_self i _)
  exact absurd (hfree.symm.trans hwriter) nofun

theorem Sound.next_read {offset : ℤ} (hphase : s.threads i = .read offset) : t.Sound := by
  have hfits := hsound.fits i
  unfold State.next at hnext
  rw [hphase] at hnext hfits
  dsimp only at hnext
  split at hnext
  · cases hnext
  · rename_i offset' hread
    cases hnext
    refine sound_of_goto hsound rfl rfl rfl (fun _ _ => rfl) rfl rfl (by simp [hphase]) ⟨hfits, ?_⟩
    exact (doRead_nil hread).ge
  · cases hnext
    exact sound_of_goto hsound rfl rfl rfl (fun _ _ => rfl) rfl rfl (by simp [hphase]) hfits

theorem Sound.next_rUnlock {offset : ℤ} (hphase : s.threads i = .rUnlock offset) : t.Sound := by
  have hfits := hsound.fits i
  unfold State.next at hnext
  rw [hphase] at hnext hfits
  cases hnext
  refine sound_of_local hsound rfl rfl rfl (fun _ _ => rfl)
    (fun k hne hmem => Finset.mem_erase.mpr ⟨hne, hmem⟩) (fun _ _ => id) (by simp [hphase])
    (fun j hwriter => ?_) (fun _ => .inl hfits.2)
  exact absurd hwriter (hsound.writer_ne hfits.1 j)

theorem Sound.next_condLock {offset : ℤ} (hphase : s.threads i = .condLock offset) : t.Sound := by
  have hfits := hsound.fits i
  unfold State.next at hnext
  rw [hphase] at hnext hfits
  obtain ⟨-, hnext⟩ := Option.ite_none_right_eq_some.mp hnext
  cases hnext
  refine sound_of_goto hsound rfl rfl rfl (fun _ _ => rfl) rfl rfl (by simp [hphase]) fun hopen => ?_
  exact (hfits hopen).imp_right (pending_of_update rfl (by simp [hphase]))

theorem Sound.next_capture {offset : ℤ} (hphase : s.threads i = .capture offset) : t.Sound := by
  have hfits := hsound.fits i
  unfold State.next at hnext
  rw [hphase] at hnext hfits
  cases hnext
  refine sound_of_goto hsound rfl rfl rfl (fun _ _ => rfl) rfl rfl (by simp [hphase])
    ⟨le_rfl, fun _ hopen => ?_⟩
  exact (hfits hopen).imp_right (pending_of_update rfl (by simp [hphase]))

theorem Sound.next_condUnlock {offset : ℤ} {ch : ℕ} (hphase : s.threads i = .condUnlock offset ch) : t.Sound := by
  have hfits := hsound.fits i
  unfold State.next at hnext
  rw [hphase] at hnext hfits
  cases hnext
  refine sound_of_goto hsound rfl rfl rfl (fun _ _ => rfl) rfl rfl (by simp [hphase])
    ⟨hfits.1, fun hch hopen => ?_⟩
  exact (hfits.2 hch hopen).imp_right (pending_of_update rfl (by simp [hphase]))

theorem Sound.next_select {offset : ℤ} {ch : ℕ} (hphase : s.threads i = .select offset ch) : t.Sound := by
  unfold State.next at hnext
  rw [hphase] at hnext
  obtain ⟨-, hnext⟩ := Option.ite_none_right_eq_some.mp hnext
  cases hnext
  exact sound_of_goto hsound rfl rfl rfl (fun _ _ => rfl) rfl rfl (by simp [hphase]) trivial

theorem Sound.next_rRelock {offset : ℤ} {signaled : Bool}
    (hphase : s.threads i = .rRelock offset signaled) : t.Sound := by
  unfold State.next at hnext
  rw [hphase] at hnext
  obtain ⟨hfree, hnext⟩ := Option.ite_none_right_eq_some.mp hnext
  cases hnext
  refine sound_of_local hsound rfl rfl rfl (fun _ _ => rfl) (fun k _ => Finset.mem_insert_of_mem)
    (fun _ _ => id) (by simp [hphase]) (fun j hwriter => ?_) ?_
  · exact absurd (hfree.symm.trans hwriter) nofun
  · cases signaled <;> exact Finset.mem_insert_self i _

theorem Sound.next_leave {items : List V} {offset : ℤ} (hphase : s.threads i = .leave items offset) : t.Sound := by
  have hfits := hsound.fits i
  unfold State.next at hnext
  rw [hphase] at hnext hfits
  cases hnext
  refine sound_of_local hsound rfl rfl rfl (fun _ _ => rfl)
    (fun k hne hmem => Finset.mem_erase.mpr ⟨hne, hmem⟩) (fun _ _ => id) (by simp [hphase])
    (fun j hwriter => ?_) trivial
  exact absurd hwriter (hsound.writer_ne hfits j)

theorem Sound.next_lock {vs : List V} (hphase : s.threads i = .lock vs) : t.Sound := by
  unfold State.next at hnext
  rw [hphase] at hnext
  obtain ⟨⟨hfree, hnone⟩, hnext⟩ := Option.ite_none_right_eq_some.mp hnext
  cases hnext
  refine sound_of_local hsound rfl rfl rfl (fun _ _ => rfl) (fun _ _ => id)
    (fun k _ hwriter => ?_) (by simp [hphase]) (fun _ _ => hnone) rfl
  exact absurd (hfree.symm.trans hwriter) nofun

/-- No reader has the lock while items are appended, and whoever waits is owed the announcement. -/
theorem Sound.next_append {vs : List V} (hphase : s.threads i = .append vs) : t.Sound := by
  have hfits := hsound.fits i
  unfold State.next at hnext
  rw [hphase] at hnext hfits
  dsimp only at hnext
  split at hnext
  · cases hnext
  rename_i stream _
  cases hnext
  have hunread : ∀ k, k ∉ s.readers := fun k hmem => hsound.writer_ne hmem i hfits
  have hdue : ({ s.goto i .broadcastLock with stream := stream } : State ι V).Pending :=
    ⟨i, .inl (Function.update_self i _ _)⟩
  refine sound_of_update hsound rfl hsound.excl hfits fun k hne hother => ?_
  cases hk : s.threads k with
  | read _ | leave _ _ =>
    rw [hk] at hother
    exact absurd hother (hunread k)
  | rUnlock _ =>
    rw [hk] at hother
    exact absurd hother.1 (hunread k)
  | condLock _ | capture _ => exact fun _ => .inr hdue
  | condUnlock _ _ | select _ _ =>
    rw [hk] at hother
    exact ⟨hother.1, fun _ _ => .inr hdue⟩
  | append _ | broadcastLock | close | broadcastUnlock | unlock =>
    rw [hk] at hother
    exact hother
  | idle | rLock _ | rRelock _ _ | returned _ _ | lock _ => trivial

theorem Sound.next_broadcastLock (hphase : s.threads i = .broadcastLock) : t.Sound := by
  have hfits := hsound.fits i
  unfold State.next at hnext
  rw [hphase] at hnext hfits
  obtain ⟨-, hnext⟩ := Option.ite_none_right_eq_some.mp hnext
  cases hnext
  exact sound_of_goto hsound rfl rfl rfl (fun _ _ => rfl) rfl rfl (fun _ => .inr rfl) hfits

/-- Whoever waits has a channel that is closed now, and nobody is about to take the new one. -/
theorem Sound.next_close (hphase : s.threads i = .close)
    (hquiet : ∀ k, (s.threads k).inWindow = true → s.canceled k = true) : t.Sound := by
  have hfits := hsound.fits i
  unfold State.next at hnext
  rw [hphase] at hnext hfits
  cases hnext
  have hclosed : ∀ k, (s.threads k).inWindow = true → ¬ s.canceled k = false := fun k hwindow hopen => by
    simp [hquiet k hwindow] at hopen
  refine sound_of_update hsound rfl hsound.excl hfits fun k hne hother => ?_
  cases hk : s.threads k with
  | condLock _ | capture _ => exact fun hopen => (hclosed k (by rw [hk]; rfl) hopen).elim
  | condUnlock offset ch | select offset ch =>
    rw [hk] at hother
    refine ⟨hother.1.trans (Nat.le_succ _), fun hch => ?_⟩
    have hlt := hother.1
    change ch = s.channel + 1 at hch
    omega
  | read _ | leave _ _ | rUnlock _ | append _ | broadcastLock | close | broadcastUnlock | unlock =>
    rw [hk] at hother
    exact hother
  | idle | rLock _ | rRelock _ _ | returned _ _ | lock _ => trivial

theorem Sound.next_broadcastUnlock (hphase : s.threads i = .broadcastUnlock) : t.Sound := by
  have hfits := hsound.fits i
  unfold State.next at hnext
  rw [hphase] at hnext hfits
  cases hnext
  exact sound_of_goto hsound rfl rfl rfl (fun _ _ => rfl) rfl rfl (by simp [hphase]) hfits

theorem Sound.next_unlock (hphase : s.threads i = .unlock) : t.Sound := by
  have hfits := hsound.fits i
  unfold State.next at hnext
  rw [hphase] at hnext hfits
  cases hnext
  refine sound_of_local hsound rfl rfl rfl (fun _ _ => rfl) (fun _ _ => id) (fun k hne hwriter => ?_)
    (by simp [hphase]) (fun j hwriter => by cases hwriter) trivial
  exact absurd (Option.some.inj (hfits.symm.trans hwriter)) hne.symm

end Phases

theorem Sound.next (hsound : s.Sound)
    (hquiet : s.threads i = .close → ∀ k, (s.threads k).inWindow = true → s.canceled k = true)
    (hnext : s.next i = some t) : t.Sound := by
  cases hphase : s.threads i with
  | idle | returned _ _ =>
    unfold State.next at hnext
    rw [hphase] at hnext
    cases hnext
  | rLock _ => exact hsound.next_rLock hnext hphase
  | read _ => exact hsound.next_read hnext hphase
  | rUnlock _ => exact hsound.next_rUnlock hnext hphase
  | condLock _ => exact hsound.next_condLock hnext hphase
  | capture _ => exact hsound.next_capture hnext hphase
  | condUnlock _ _ => exact hsound.next_condUnlock hnext hphase
  | select _ _ => exact hsound.next_select hnext hphase
  | rRelock _ _ => exact hsound.next_rRelock hnext hphase
  | leave _ _ => exact hsound.next_leave hnext hphase
  | lock _ => exact hsound.next_lock hnext hphase
  | append _ => exact hsound.next_append hnext hphase
  | broadcastLock => exact hsound.next_broadcastLock hnext hphase
  | close => exact hsound.next_close hnext hphase (hquiet hphase)
  | broadcastUnlock => exact hsound.next_broadcastUnlock hnext hphase
  | unlock => exact hsound.next_unlock hnext hphase

/-- A move of one goroutine keeps what is known of the others. -/
theorem Sound.exec {move : Move V} (hsound : s.Sound) (hquiet : s.Quiet i move)
    (hexec : s.exec i move = some t) : t.Sound := by
  have hidle : s.free i = true → ¬ (s.threads i = .broadcastLock ∨ s.threads i = .close) := by
    unfold free
    intro hfree hdue
    rcases hdue with hphase | hphase <;> simp [hphase] at hfree
  cases move with
  | readBlocking offset =>
    obtain ⟨hfree, hexec⟩ := Option.ite_none_right_eq_some.mp hexec
    cases hexec
    refine sound_of_goto hsound rfl rfl rfl (fun k hne => ?_) rfl rfl (fun hdue => absurd hdue (hidle hfree))
      trivial
    exact Function.update_of_ne hne _ _
  | add vs =>
    obtain ⟨hfree, hexec⟩ := Option.ite_none_right_eq_some.mp hexec
    cases hexec
    refine sound_of_goto hsound rfl rfl rfl (fun _ _ => rfl) rfl rfl (fun hdue => absurd hdue (hidle hfree)) ?_
    split <;> trivial
  | cancel =>
    cases hexec
    have hsame : s.threads = Function.update s.threads i (s.threads i) := (Function.update_eq_self i _).symm
    refine sound_of_goto hsound hsame rfl rfl (fun k hne => Function.update_of_ne hne _ _) rfl rfl id ?_
    have hfits := hsound.fits i
    -- a canceled context asks for nothing
    cases hphase : s.threads i with
    | condLock _ | capture _ => exact fun hopen => absurd hopen (by simp)
    | condUnlock _ _ | select _ _ =>
      rw [hphase] at hfits
      exact ⟨hfits.1, fun _ hopen => absurd hopen (by simp)⟩
    | _ =>
      rw [hphase] at hfits
      exact hfits
  | next => exact hsound.next (fun hphase => hquiet hphase rfl) hexec
  | done =>
    simp only [State.exec] at hexec
    split at hexec
    · rename_i offset ch hphase
      obtain ⟨-, hexec⟩ := Option.ite_none_right_eq_some.mp hexec
      cases hexec
      exact sound_of_goto hsound rfl rfl rfl (fun _ _ => rfl) rfl rfl (by simp [hphase]) trivial
    · cases hexec

theorem reflTransGen_of_run {allowed : State ι V → ι → Move V → Prop}
    [∀ s i move, Decidable (allowed s i move)] {moves : List (ι × Move V)}
    (hrun : s.run allowed moves = some t) : Relation.ReflTransGen (Step allowed) s t := by
  induction moves generalizing s with
  | nil =>
    cases hrun
    exact .refl
  | cons first moves ih =>
    obtain ⟨i, move⟩ := first
    obtain ⟨hallowed, hrun⟩ := Option.ite_none_right_eq_some.mp hrun
    obtain ⟨middle, hexec, hrest⟩ := Option.bind_eq_some_iff.mp hrun
    exact .head ⟨i, move, hexec, hallowed⟩ (ih hrest)

/-- In every run that announces items only when no reader is about to wait, no reader waits for what is in
the stream and announced. -/
theorem noLostWakeup_of_quiet {stream : Stream V}
    (hrun : Relation.ReflTransGen (Step Quiet) (start stream) t) : t.NoLostWakeup := by
  refine Sound.noLostWakeup (Transition.invariant Sound (fun s t hsound hstep => ?_) hrun (sound_start stream))
  obtain ⟨i, move, hexec, hquiet⟩ := hstep
  exact hsound.exec hquiet hexec

def wokenSchedule : List (Fin 2 × Move ℕ) :=
  (0, .readBlocking 0) :: List.replicate 6 (0, .next) ++ (1, .add [7, 8]) :: List.replicate 6 (1, .next) ++
    List.replicate 4 (0, .next) ++ (0, .readBlocking 2) :: List.replicate 6 (0, .next)

theorem noLostWakeup_woken : ∃ t, (start ⟨[], 2, 3, 0⟩).run Quiet wokenSchedule = some t ∧
    t.threads 0 = .select 2 1 ∧ t.NoLostWakeup := by
  have hreader : ((start ⟨[], 2, 3, 0⟩).run Quiet wokenSchedule).map (·.threads 0) =
      some (.select 2 1) := by
    decide +kernel
  obtain ⟨t, hrun, hwaits⟩ := Option.map_eq_some_iff.mp hreader
  exact ⟨t, hrun, hwaits, noLostWakeup_of_quiet (reflTransGen_of_run hrun)⟩

/-- The announcement that a reader misses: it has given up the lock of the stream and not yet taken the
channel when an item is added, and it then waits with that item in the stream. -/
theorem lostWakeup : ∃ t : State (Fin 2) ℕ,
    Relation.ReflTransGen (Step fun _ _ _ => True) (start ⟨[], 2, 3, 0⟩) t ∧ ¬ t.NoLostWakeup := by
  have hend : ((start ⟨[], 2, 3, 0⟩ : State (Fin 2) ℕ).run (fun _ _ _ => True)
      ([(0, .readBlocking 0)] ++ List.replicate 3 (0, .next) ++ [(1, .add [7])] ++
        List.replicate 6 (1, .next) ++ List.replicate 3 (0, .next))).map
      (fun t => (t.threads 0, t.threads 1, t.channel, t.canceled 0, t.stream.lastID)) =
      some (.select 0 1, .returned [] 1, 1, false, 1) := by
    decide +kernel
  obtain ⟨t, hrun, heq⟩ := Option.map_eq_some_iff.mp hend
  simp only [Prod.mk.injEq] at heq
  obtain ⟨hreader, hadder, hchannel, hopen, hlast⟩ := heq
  refine ⟨t, reflTransGen_of_run hrun, fun hnone => ?_⟩
  have hdone : ¬ t.Pending := by
    rw [Pending, Fin.exists_fin_two, hreader, hadder]
    simp
  have hread := hnone 0 0 1 hreader hchannel.symm hopen hdone
  omega

end State

end CosmosEvm.Rpc.StreamWait
