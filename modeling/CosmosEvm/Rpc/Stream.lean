import CosmosEvm.Lib.Result
import CosmosEvm.Sdk.Keepers
import Mathlib.Tactic.Ring

/-!
# Streams

A stream keeps the last items that were added to it in segments of one size, and drops the oldest segment
when there are too many.
-/

namespace CosmosEvm.Rpc

open Result

structure Stream (V : Type) where
  segments : List (List V)
  segmentSize : ℤ
  maxSegments : ℤ
  segmentOffset : ℕ

namespace Stream

variable {V : Type}

def newStream (segmentSize capacity : ℤ) : Except Err (Stream V) :=
  if segmentSize = 0 then .error (.panicked "integer divide by zero")
  else
    let maxSegments := (capacity + segmentSize - 1).tdiv segmentSize
    if maxSegments < 1 then .error (.panicked "capacity is too small")
    else .ok ⟨[], segmentSize, maxSegments, 0⟩

variable (s : Stream V)

/-- A new segment in `Add`, which takes the place of the oldest one where there are too many. -/
def openSegment : Except Err (Stream V) :=
  if s.maxSegments < s.segments.length then
    .ok { s with segments := s.segments.tail ++ [[]], segmentOffset := s.segmentOffset + 1 }
  else if s.segmentSize < 0 then .error (.panicked "makeslice: cap out of range")
  else .ok { s with segments := s.segments ++ [[]] }

def push (v : V) : Stream V :=
  { s with segments := s.segments.dropLast ++ [s.segments.getLast?.getD [] ++ [v]] }

def addItem (v : V) : Except Err (Stream V) :=
  match s.segments.getLast? with
  | none => do
    let s ← s.openSegment
    .ok (s.push v)
  | some tail =>
    if (tail.length : ℤ) = s.segmentSize then do
      let s ← s.openSegment
      .ok (s.push v)
    else .ok (s.push v)

def lastID : ℤ :=
  match s.segments.getLast? with
  | none => 0
  | some tail => (s.segmentOffset + s.segments.length - 1) * s.segmentSize + tail.length

def add (vs : List V) : Except Err (Stream V × ℤ) :=
  if vs.length = 0 then .ok (s, 0)
  else do
    let s ← vs.foldlM addItem s
    .ok (s, s.lastID)

def targetSegment (offset : ℤ) : ℤ :=
  let segment := offset.tdiv s.segmentSize
  if (s.segmentOffset : ℤ) ≤ segment then segment - s.segmentOffset else 0

def doRead (offset : ℤ) : Except Err (List V × ℤ) :=
  if s.segments.length = 0 then .ok ([], s.lastID)
  else if offset < 0 then .ok ([], s.lastID)
  else
    let segment := s.targetSegment offset
    match s.segments[segment.toNat]? with
    | none => .ok ([], s.lastID)
    | some seg =>
      let position := offset.tmod s.segmentSize
      if (seg.length : ℤ) < position then .error (.panicked "slice bounds out of range")
      else if seg.drop position.toNat = [] then .ok ([], s.lastID)
      else .ok (seg.drop position.toNat, (s.segmentOffset + segment) * s.segmentSize + seg.length)

def readNonBlocking (offset : ℤ) : Except Err (List V × ℤ) := s.doRead offset

structure Holds (s : Stream V) (n : ℕ) (pruned : List V) (full : List (List V)) (tail : List V) : Prop where
  size : s.segmentSize = n
  pos : 0 < n
  segments : s.segments = full ++ [tail]
  full_length : ∀ seg ∈ full, seg.length = n
  tail_ne_nil : tail ≠ []
  tail_le : tail.length ≤ n
  pruned_length : pruned.length = s.segmentOffset * n
  full_le : (full.length : ℤ) ≤ s.maxSegments
  room : s.segmentOffset = 0 ∨ (full.length : ℤ) = s.maxSegments

inductive Retains (s : Stream V) : List V → Prop where
  | empty (hsegments : s.segments = []) (hoffset : s.segmentOffset = 0) : Retains s []
  | holds {n : ℕ} {pruned : List V} {full : List (List V)} {tail : List V}
      (hholds : Holds s n pruned full tail) : Retains s (pruned ++ (full.flatten ++ tail))

structure Sized (s : Stream V) (segmentSize capacity : ℤ) : Prop where
  size : s.segmentSize = segmentSize
  size_ne_zero : segmentSize ≠ 0
  one_le : 1 ≤ s.maxSegments
  capacity_le : 0 < segmentSize → capacity ≤ s.maxSegments * segmentSize

variable {s} {s' : Stream V} {n : ℕ} {pruned log : List V} {full : List (List V)} {tail : List V} {v : V}
  {segmentSize capacity : ℤ}

theorem sized_newStream (hnew : newStream segmentSize capacity = .ok s) :
    s.Sized segmentSize capacity ∧ s.Retains [] := by
  unfold newStream at hnew
  rw [ite_error_eq_ok_iff] at hnew
  obtain ⟨hsize, hnew⟩ := hnew
  dsimp only at hnew
  rw [ite_error_eq_ok_iff] at hnew
  obtain ⟨hmax, hnew⟩ := hnew
  cases hnew
  refine ⟨⟨rfl, hsize, by simpa using hmax, ?_⟩, .empty rfl rfl⟩
  intro hpos
  have hnonneg : 0 ≤ capacity + segmentSize - 1 := by
    by_contra hneg
    have hquotient : 0 ≤ (-(capacity + segmentSize - 1)).tdiv segmentSize :=
      Int.tdiv_nonneg (by omega) hpos.le
    rw [Int.neg_tdiv] at hquotient
    omega
  dsimp only
  rw [Int.tdiv_eq_ediv_of_nonneg hnonneg]
  have hdiv := Int.mul_ediv_add_emod (capacity + segmentSize - 1) segmentSize
  have hlt := Int.emod_lt_of_pos (capacity + segmentSize - 1) hpos
  rw [mul_comm]
  omega

theorem openSegment_eq_ok (hopen : s.openSegment = .ok s') :
    (s.maxSegments < s.segments.length ∧
      s' = { s with segments := s.segments.tail ++ [[]], segmentOffset := s.segmentOffset + 1 }) ∨
    (s.segments.length ≤ s.maxSegments ∧ 0 ≤ s.segmentSize ∧
      s' = { s with segments := s.segments ++ [[]] }) := by
  unfold openSegment at hopen
  split at hopen
  · next hfull => exact .inl ⟨hfull, (Except.ok.inj hopen).symm⟩
  · next hroom =>
      rw [ite_error_eq_ok_iff] at hopen
      exact .inr ⟨by omega, by omega, (Except.ok.inj hopen.2).symm⟩

theorem push_of_segments (init : List (List V)) (last : List V) (hsegments : s.segments = init ++ [last])
    (v : V) : s.push v = { s with segments := init ++ [last ++ [v]] } := by
  unfold push
  rw [hsegments, List.dropLast_concat, List.getLast?_concat]
  rfl

theorem addItem_cases (hadd : s.addItem v = .ok s') :
    (∃ last, s.segments.getLast? = some last ∧ (last.length : ℤ) ≠ s.segmentSize ∧ s' = s.push v) ∨
      ((∀ last, s.segments.getLast? = some last → (last.length : ℤ) = s.segmentSize) ∧
        ∃ opened, s.openSegment = .ok opened ∧ s' = opened.push v) := by
  unfold addItem at hadd
  cases hlast : s.segments.getLast? with
  | none =>
    rw [hlast] at hadd
    obtain ⟨opened, hopen, hpush⟩ := bind_eq_ok_iff.mp hadd
    exact .inr ⟨nofun, opened, hopen, (Except.ok.inj hpush).symm⟩
  | some last =>
    rw [hlast] at hadd
    dsimp only at hadd
    split at hadd
    · next hfull =>
        obtain ⟨opened, hopen, hpush⟩ := bind_eq_ok_iff.mp hadd
        refine .inr ⟨?_, opened, hopen, (Except.ok.inj hpush).symm⟩
        rintro _ ⟨⟩
        exact hfull
    · next hroom => exact .inl ⟨last, rfl, hroom, (Except.ok.inj hadd).symm⟩

theorem Sized.addItem (hsized : s.Sized segmentSize capacity) (hadd : s.addItem v = .ok s') :
    s'.Sized segmentSize capacity := by
  rcases addItem_cases hadd with ⟨-, -, -, rfl⟩ | ⟨-, opened, hopen, rfl⟩
  · exact ⟨hsized.size, hsized.size_ne_zero, hsized.one_le, hsized.capacity_le⟩
  · rcases openSegment_eq_ok hopen with ⟨-, rfl⟩ | ⟨-, -, rfl⟩
    · exact ⟨hsized.size, hsized.size_ne_zero, hsized.one_le, hsized.capacity_le⟩
    · exact ⟨hsized.size, hsized.size_ne_zero, hsized.one_le, hsized.capacity_le⟩

namespace Holds

variable (hholds : s.Holds n pruned full tail)

include hholds

theorem getLast? : s.segments.getLast? = some tail := by
  rw [hholds.segments, List.getLast?_concat]

theorem length_segments : s.segments.length = full.length + 1 := by
  rw [hholds.segments, List.length_append, List.length_singleton]

theorem length_flatten_take (j : ℕ) : (full.take j).flatten.length = (full.take j).length * n := by
  have hlength : ∀ seg ∈ full.take j, seg.length = n := fun seg hmem =>
    hholds.full_length seg (List.mem_of_mem_take hmem)
  rw [List.length_flatten, List.map_congr_left hlength, List.map_const', List.sum_replicate_nat]

theorem length_flatten : full.flatten.length = full.length * n := by
  have hlength := hholds.length_flatten_take full.length
  rwa [List.take_length] at hlength

/-- The segments are consecutive pieces of the log, and only the last may be short. -/
theorem segment {j : ℕ} {seg : List V} (hseg : s.segments[j]? = some seg) :
    (∃ rest, (pruned ++ (full.flatten ++ tail)).drop ((s.segmentOffset + j) * n) = seg ++ rest) ∧
      (seg.length < n → (s.segmentOffset + j) * n + seg.length =
        (pruned ++ (full.flatten ++ tail)).length) := by
  have hsegments := hholds.segments
  have hle : j ≤ full.length := by
    obtain ⟨hlt, -⟩ := List.getElem?_eq_some_iff.mp hseg
    rw [hholds.length_segments] at hlt
    omega
  have htake : s.segments.take j = full.take j := by
    rw [hsegments, List.take_append_of_le_length hle]
  have hdrop : s.segments.drop j = seg :: s.segments.drop (j + 1) := by
    obtain ⟨hlt, hget⟩ := List.getElem?_eq_some_iff.mp hseg
    rw [List.drop_eq_getElem_cons hlt, hget]
  have hflatten : full.flatten ++ tail =
      (full.take j).flatten ++ (seg ++ (s.segments.drop (j + 1)).flatten) := by
    calc
      full.flatten ++ tail = s.segments.flatten := by
        rw [hsegments, List.flatten_append, List.flatten_cons, List.flatten_nil, List.append_nil]
      _ = (s.segments.take j ++ s.segments.drop j).flatten := by rw [List.take_append_drop]
      _ = _ := by rw [List.flatten_append, htake, hdrop, List.flatten_cons]
  have hbase : pruned.length + (full.take j).flatten.length = (s.segmentOffset + j) * n := by
    rw [hholds.pruned_length, hholds.length_flatten_take, List.length_take_of_le hle, Nat.add_mul]
  refine ⟨⟨(s.segments.drop (j + 1)).flatten, ?_⟩, ?_⟩
  · rw [hflatten, ← List.append_assoc, ← hbase, ← List.length_append, List.drop_left]
  · intro hshort
    -- only the last segment is short
    have hlast : j = full.length := by
      by_contra hne
      have hmem : seg ∈ full := by
        rw [hsegments, List.getElem?_append_left (by omega)] at hseg
        exact List.mem_of_getElem? hseg
      rw [hholds.full_length seg hmem] at hshort
      exact lt_irrefl n hshort
    subst hlast
    have hnone : s.segments.drop (full.length + 1) = [] := by
      rw [hsegments]
      exact List.drop_of_length_le (by rw [List.length_append, List.length_singleton])
    rw [hflatten, hnone, List.flatten_nil, List.append_nil, ← List.append_assoc, List.length_append,
      List.length_append, hbase]

theorem extend (hroom : tail.length < n) (v : V) : (s.push v).Holds n pruned full (tail ++ [v]) := by
  rw [push_of_segments full tail hholds.segments]
  refine ⟨hholds.size, hholds.pos, rfl, hholds.full_length, by simp, ?_, hholds.pruned_length,
    hholds.full_le, hholds.room⟩
  rw [List.length_append, List.length_singleton]
  exact hroom

theorem full_length_concat (htail : tail.length = n) : ∀ seg ∈ full ++ [tail], seg.length = n := by
  intro seg hmem
  rcases List.mem_append.mp hmem with hmem | hmem
  · exact hholds.full_length seg hmem
  · rw [List.mem_singleton.mp hmem, htail]

theorem grow (htail : tail.length = n) (hle : (s.segments.length : ℤ) ≤ s.maxSegments) (v : V) :
    ({ s with segments := s.segments ++ [[]] }.push v).Holds n pruned (full ++ [tail]) [v] := by
  have hlength := hholds.length_segments
  rw [push_of_segments s.segments [] rfl]
  refine ⟨hholds.size, hholds.pos, ?_, hholds.full_length_concat htail, List.cons_ne_nil _ _, hholds.pos,
    hholds.pruned_length, ?_, ?_⟩
  · dsimp only
    rw [hholds.segments]
    rfl
  · rw [List.length_append, List.length_singleton, ← hlength]
    exact hle
  · refine .inl (hholds.room.resolve_right ?_)
    omega

theorem rotate {first : List V} {rest : List (List V)} (hfull : full = first :: rest)
    (htail : tail.length = n) (hmax : (full.length : ℤ) = s.maxSegments) (v : V) :
    ({ s with segments := s.segments.tail ++ [[]], segmentOffset := s.segmentOffset + 1 }.push v).Holds n
      (pruned ++ first) (rest ++ [tail]) [v] := by
  subst hfull
  have hsegments : s.segments.tail = rest ++ [tail] := by rw [hholds.segments]; rfl
  rw [push_of_segments s.segments.tail [] rfl]
  refine ⟨hholds.size, hholds.pos, ?_, ?_, List.cons_ne_nil _ _, hholds.pos, ?_, ?_, .inr ?_⟩
  · dsimp only
    rw [hsegments]
    rfl
  · intro seg hmem
    exact hholds.full_length_concat htail seg (List.mem_cons_of_mem _ hmem)
  · dsimp only
    rw [List.length_append, hholds.pruned_length, hholds.full_length first List.mem_cons_self,
      Nat.add_mul, Nat.one_mul]
  · rw [List.length_append, List.length_singleton]
    exact hmax.le
  · rw [List.length_append, List.length_singleton]
    exact hmax

end Holds

theorem holds_first (hsized : s.Sized segmentSize capacity) (hsegments : s.segments = [])
    (hoffset : s.segmentOffset = 0) (hnonneg : 0 ≤ s.segmentSize) (v : V) :
    ({ s with segments := s.segments ++ [[]] }.push v).Holds s.segmentSize.toNat [] [] [v] := by
  have hne : s.segmentSize ≠ 0 := hsized.size ▸ hsized.size_ne_zero
  have hone := hsized.one_le
  rw [push_of_segments s.segments [] rfl]
  refine ⟨(Int.toNat_of_nonneg hnonneg).symm, by omega, ?_, nofun, List.cons_ne_nil _ _, ?_, ?_, ?_,
    .inl hoffset⟩
  · dsimp only
    rw [hsegments]
    rfl
  · rw [List.length_singleton]
    omega
  · dsimp only
    rw [hoffset, Nat.zero_mul, List.length_nil]
  · rw [List.length_nil, Nat.cast_zero]
    exact zero_le_one.trans hone

/-- Either the last segment takes the item, or a new one pushes the oldest out. -/
theorem Retains.addItem (hsized : s.Sized segmentSize capacity) (hretains : s.Retains log)
    (hadd : s.addItem v = .ok s') : s'.Retains (log ++ [v]) := by
  have hone := hsized.one_le
  cases hretains with
  | empty hsegments hoffset =>
    rcases addItem_cases hadd with ⟨last, hlast, -⟩ | ⟨-, opened, hopen, rfl⟩
    · rw [hsegments] at hlast
      cases hlast
    · rcases openSegment_eq_ok hopen with ⟨hlt, -⟩ | ⟨-, hnonneg, rfl⟩
      · rw [hsegments, List.length_nil, Nat.cast_zero] at hlt
        omega
      · exact .holds (holds_first hsized hsegments hoffset hnonneg v)
  | @holds n pruned full tail hholds =>
    rcases addItem_cases hadd with ⟨last, hlast, hroom, rfl⟩ | ⟨hlast, opened, hopen, rfl⟩
    · cases hholds.getLast?.symm.trans hlast
      have hlt : tail.length < n := by
        have hle := hholds.tail_le
        rw [hholds.size] at hroom
        omega
      have hnext := Retains.holds (hholds.extend hlt v)
      simpa only [List.append_assoc] using hnext
    · have htail : tail.length = n := by
        have hfull := hlast tail hholds.getLast?
        rw [hholds.size] at hfull
        omega
      rcases openSegment_eq_ok hopen with ⟨hlt, rfl⟩ | ⟨hle, -, rfl⟩
      · have hmax : (full.length : ℤ) = s.maxSegments := by
          have hlength := hholds.length_segments
          have hle := hholds.full_le
          omega
        cases full with
        | nil =>
          rw [List.length_nil, Nat.cast_zero] at hmax
          omega
        | cons first rest =>
          have hnext := Retains.holds (hholds.rotate rfl htail hmax v)
          simpa only [List.flatten_append, List.flatten_cons, List.flatten_nil, List.append_assoc,
            List.append_nil] using hnext
      · have hnext := Retains.holds (hholds.grow htail hle v)
        simpa only [List.flatten_append, List.flatten_cons, List.flatten_nil, List.append_assoc,
          List.append_nil] using hnext

theorem Retains.addItems (hsized : s.Sized segmentSize capacity) (hretains : s.Retains log) {vs : List V}
    (hadd : vs.foldlM Stream.addItem s = .ok s') :
    s'.Retains (log ++ vs) ∧ s'.Sized segmentSize capacity := by
  induction vs generalizing s log with
  | nil =>
    cases hadd
    rw [List.append_nil]
    exact ⟨hretains, hsized⟩
  | cons v vs ih =>
    rw [List.foldlM_cons] at hadd
    obtain ⟨next, hitem, hrest⟩ := bind_eq_ok_iff.mp hadd
    have hnext := ih (hsized.addItem hitem) (hretains.addItem hsized hitem) hrest
    rwa [List.append_assoc] at hnext

theorem Retains.add (hsized : s.Sized segmentSize capacity) (hretains : s.Retains log) {vs : List V}
    {last : ℤ} (hadd : s.add vs = .ok (s', last)) :
    s'.Retains (log ++ vs) ∧ s'.Sized segmentSize capacity := by
  unfold Stream.add at hadd
  split at hadd
  · next hnone =>
      cases hadd
      rw [List.eq_nil_of_length_eq_zero hnone, List.append_nil]
      exact ⟨hretains, hsized⟩
  · obtain ⟨next, hitems, hlast⟩ := bind_eq_ok_iff.mp hadd
    cases hlast
    exact hretains.addItems hsized hitems

theorem Retains.lastID (hretains : s.Retains log) : s.lastID = log.length := by
  unfold Stream.lastID
  cases hretains with
  | empty hsegments hoffset =>
    rw [hsegments]
    rfl
  | @holds n pruned full tail hholds =>
    rw [hholds.getLast?]
    simp only [hholds.length_segments, hholds.size, List.length_append, hholds.pruned_length,
      hholds.length_flatten]
    push_cast
    ring

/-- What a read with a received offset gives: the run of items after the offset and the pruned ones, with
the number of its last item, and the number of the last item of all where there is none. -/
structure Reads (log : List V) (pruned : ℕ) (offset : ℕ) (items : List V) (next : ℤ) : Prop where
  run : ∃ last : ℕ, next = last ∧ last ≤ log.length ∧
    items = (log.take last).drop (max offset pruned)
  found : max offset pruned < log.length → items ≠ [] ∧ (max offset pruned : ℤ) < next
  ended : log.length ≤ max offset pruned → items = [] ∧ next = log.length

/-- The offset is not inside a pruned segment, nor past the last item inside the last segment. -/
def Aligned (s : Stream V) (log : List V) (offset : ℤ) : Prop :=
  (offset < s.segmentOffset * s.segmentSize → s.segmentSize ∣ offset) ∧
    (log.length < offset → (s.segmentOffset + s.segments.length) * s.segmentSize ≤ offset)

instance (s : Stream V) (log : List V) (offset : ℤ) : Decidable (s.Aligned log offset) :=
  inferInstanceAs (Decidable ((_ → _) ∧ (_ → _)))

theorem targetSegment_natCast (hsize : s.segmentSize = n) (offset : ℕ) :
    s.targetSegment offset = ((offset / n - s.segmentOffset : ℕ) : ℤ) := by
  unfold targetSegment
  rw [hsize, ← Int.ofNat_tdiv]
  dsimp only
  split
  · omega
  · omega

theorem reads_of_segment {base position pruned offset : ℕ} {seg rest : List V}
    (hseg : log.drop base = seg ++ rest) (hstart : max offset pruned = base + position)
    (hitems : seg.drop position ≠ []) :
    Reads log pruned offset (seg.drop position) ((base + seg.length : ℕ) : ℤ) := by
  have hlength : base + seg.length ≤ log.length := by
    have hcount := congrArg List.length hseg
    rw [List.length_drop, List.length_append] at hcount
    have hne : seg.length ≠ 0 := fun hzero => by
      rw [List.eq_nil_of_length_eq_zero hzero] at hitems
      simp at hitems
    omega
  have hposition : position < seg.length := by
    by_contra hle
    exact hitems (List.drop_of_length_le (by omega))
  refine ⟨⟨base + seg.length, rfl, hlength, ?_⟩, fun _ => ⟨hitems, ?_⟩, fun hended => ?_⟩
  · rw [hstart, ← List.drop_drop, List.drop_take, hseg, Nat.add_sub_cancel_left, List.take_left]
  · push_cast
    omega
  · omega

theorem reads_end {pruned offset : ℕ} (hend : log.length ≤ max offset pruned) :
    Reads log pruned offset [] (log.length : ℤ) := by
  refine ⟨⟨log.length, rfl, le_rfl, ?_⟩, fun hfound => absurd hfound (Nat.not_lt.mpr hend),
    fun _ => ⟨rfl, rfl⟩⟩
  rw [List.take_length, List.drop_of_length_le hend]

namespace Holds

variable (hholds : s.Holds n pruned full tail) {offset : ℕ}

include hholds

theorem length_log : (pruned ++ (full.flatten ++ tail)).length =
    (s.segmentOffset + full.length) * n + tail.length := by
  rw [List.length_append, List.length_append, hholds.pruned_length, hholds.length_flatten]
  ring

theorem length_log_le (hfuture : s.segmentOffset + s.segments.length ≤ offset / n) :
    (pruned ++ (full.flatten ++ tail)).length ≤ offset := by
  have htail := hholds.tail_le
  rw [hholds.length_segments] at hfuture
  calc
    (pruned ++ (full.flatten ++ tail)).length = (s.segmentOffset + full.length) * n + tail.length :=
      hholds.length_log
    _ ≤ (s.segmentOffset + (full.length + 1)) * n := by
      rw [← Nat.add_assoc, Nat.add_mul _ 1, Nat.one_mul]
      omega
    _ ≤ offset / n * n := Nat.mul_le_mul_right n hfuture
    _ ≤ offset := Nat.div_mul_le_self offset n

theorem start (haligned : offset < s.segmentOffset * n → n ∣ offset) :
    max offset pruned.length =
      (s.segmentOffset + (offset / n - s.segmentOffset)) * n + offset % n := by
  have hdivmod := Nat.div_add_mod' offset n
  rw [hholds.pruned_length]
  by_cases hpruned : offset / n < s.segmentOffset
  · have hlt : offset < s.segmentOffset * n := (Nat.div_lt_iff_lt_mul hholds.pos).mp hpruned
    rw [Nat.sub_eq_zero_of_le hpruned.le, Nat.add_zero, Nat.mod_eq_zero_of_dvd (haligned hlt),
      Nat.add_zero]
    exact max_eq_right hlt.le
  · have hle : s.segmentOffset ≤ offset / n := Nat.le_of_not_lt hpruned
    rw [Nat.add_sub_cancel' hle, hdivmod]
    exact max_eq_left ((Nat.le_div_iff_mul_le hholds.pos).mp hle)

theorem doRead (haligned : s.Aligned (pruned ++ (full.flatten ++ tail)) offset) :
    ∃ items next, s.doRead offset = .ok (items, next) ∧
      Reads (pruned ++ (full.flatten ++ tail)) pruned.length offset items next := by
  have hlastID := (Retains.holds hholds).lastID
  have hlength := hholds.length_segments
  have hmod := Nat.mod_lt offset hholds.pos
  obtain ⟨hpruned, hfuture⟩ := haligned
  rw [hholds.size] at hpruned hfuture
  norm_cast at hpruned hfuture
  have hstart := hholds.start hpruned
  unfold Stream.doRead
  rw [if_neg (by omega), if_neg (by omega), targetSegment_natCast hholds.size]
  dsimp only
  rw [Int.toNat_natCast, hholds.size, ← Int.ofNat_tmod, Int.toNat_natCast]
  cases hseg : s.segments[offset / n - s.segmentOffset]? with
  | none =>
    have hge := List.getElem?_eq_none_iff.mp hseg
    have hend : (pruned ++ (full.flatten ++ tail)).length ≤ offset := hholds.length_log_le (by omega)
    exact ⟨[], _, rfl, hlastID ▸ reads_end (hend.trans (le_max_left _ _))⟩
  | some seg =>
    obtain ⟨⟨rest, hdrop⟩, hshort⟩ := hholds.segment hseg
    dsimp only
    have hposition : offset % n ≤ seg.length := by
      by_contra hlt
      have htotal := hshort (by omega)
      obtain ⟨hj, -⟩ := List.getElem?_eq_some_iff.mp hseg
      have hpast : (pruned ++ (full.flatten ++ tail)).length < max offset pruned.length := by omega
      have hoffset : (pruned ++ (full.flatten ++ tail)).length < offset := by
        rcases lt_max_iff.mp hpast with hlt | hlt
        · exact hlt
        · rw [List.length_append] at hlt
          omega
      have hsegment := (Nat.le_div_iff_mul_le hholds.pos).mpr (hfuture hoffset)
      omega
    rw [if_neg (by omega)]
    by_cases hitems : seg.drop (offset % n) = []
    · rw [if_pos hitems]
      have hle := List.drop_eq_nil_iff.mp hitems
      have htotal := hshort (by omega)
      exact ⟨[], _, rfl, hlastID ▸ reads_end (by omega)⟩
    · rw [if_neg hitems]
      refine ⟨_, _, rfl, ?_⟩
      have hreads := reads_of_segment hdrop hstart hitems
      push_cast at hreads
      exact hreads

end Holds

def prunedCount (s : Stream V) : ℕ := s.segmentOffset * s.segmentSize.toNat

theorem Holds.prunedCount_eq (hholds : s.Holds n pruned full tail) : s.prunedCount = pruned.length := by
  rw [prunedCount, hholds.size, Int.toNat_natCast, hholds.pruned_length]

theorem Retains.flatten (hsized : s.Sized segmentSize capacity) (hretains : s.Retains log) :
    s.segments.flatten = log.drop s.prunedCount ∧
      (s.prunedCount = 0 ∨ capacity ≤ (log.drop s.prunedCount).length) := by
  cases hretains with
  | empty hsegments hoffset =>
    rw [hsegments]
    exact ⟨List.drop_nil.symm, .inl (by rw [prunedCount, hoffset, Nat.zero_mul])⟩
  | @holds n pruned full tail hholds =>
    have hflatten : s.segments.flatten = full.flatten ++ tail := by
      rw [hholds.segments, List.flatten_append, List.flatten_cons, List.flatten_nil, List.append_nil]
    rw [hholds.prunedCount_eq, List.drop_left]
    refine ⟨hflatten, ?_⟩
    rcases hholds.room with hnone | hmax
    · rw [hholds.pruned_length, hnone, Nat.zero_mul]
      exact .inl rfl
    · right
      have hpos : 0 < segmentSize := by
        rw [← hsized.size, hholds.size]
        exact_mod_cast hholds.pos
      have hcapacity := hsized.capacity_le hpos
      rw [← hmax, ← hsized.size, hholds.size] at hcapacity
      rw [List.length_append, hholds.length_flatten]
      push_cast
      omega

theorem Retains.readNonBlocking_of_neg (hretains : s.Retains log) {offset : ℤ} (hneg : offset < 0) :
    s.readNonBlocking offset = .ok ([], (log.length : ℤ)) := by
  unfold Stream.readNonBlocking Stream.doRead
  rw [if_pos hneg, ite_self, hretains.lastID]

theorem Retains.readNonBlocking (hretains : s.Retains log) {offset : ℕ}
    (haligned : s.Aligned log offset) :
    ∃ items next, s.readNonBlocking offset = .ok (items, next) ∧ Reads log s.prunedCount offset items next := by
  unfold Stream.readNonBlocking
  cases hretains with
  | empty hsegments hoffset =>
    have hlastID := (Retains.empty hsegments hoffset).lastID
    unfold Stream.doRead
    rw [hsegments, List.length_nil, if_pos rfl, hlastID]
    exact ⟨[], _, rfl, reads_end (Nat.zero_le _)⟩
  | holds hholds =>
    rw [hholds.prunedCount_eq]
    exact hholds.doRead haligned

def numbered (items : List V) (last : ℤ) : List (ℤ × V) :=
  items.mapIdx fun k v => (last - items.length + 1 + k, v)

structure Session (V : Type) where
  stream : Stream V
  log : List V
  offset : ℤ
  seen : List (ℤ × V)

/-- What a reader gets to that gives back the offset of its last read, while items are added. An offset that
is given is negative or aligned. -/
inductive Session.Reaches (start : Session V) : Session V → Prop where
  | refl : Reaches start start
  | add {σ : Session V} {vs : List V} {s' : Stream V} {last : ℤ} :
      Reaches start σ → σ.stream.add vs = .ok (s', last) →
        Reaches start { σ with stream := s', log := σ.log ++ vs }
  | read {σ : Session V} {items : List V} {next : ℤ} :
      Reaches start σ → (0 ≤ σ.offset → σ.stream.Aligned σ.log σ.offset) →
        σ.stream.readNonBlocking σ.offset = .ok (items, next) →
          Reaches start { σ with offset := next, seen := σ.seen ++ numbered items next }

theorem mem_numbered_iff {items : List V} {last id : ℤ} :
    (id, v) ∈ numbered items last ↔ ∃ k : ℕ, items[k]? = some v ∧ id = last - items.length + 1 + k := by
  unfold numbered
  rw [List.mem_mapIdx]
  constructor
  · rintro ⟨k, hk, heq⟩
    cases heq
    exact ⟨k, List.getElem?_eq_getElem hk, rfl⟩
  · rintro ⟨k, hget, rfl⟩
    obtain ⟨hk, hv⟩ := List.getElem?_eq_some_iff.mp hget
    exact ⟨k, hk, by rw [hv]⟩

theorem pairwise_numbered (items : List V) (last : ℤ) :
    (numbered items last).Pairwise fun left right => left.1 < right.1 := by
  unfold numbered
  rw [List.pairwise_iff_getElem]
  intro i j hi hj hlt
  simp only [List.getElem_mapIdx]
  omega

theorem Reads.mem_numbered_iff {pruned offset : ℕ} {items : List V} {next : ℤ}
    (hreads : Reads log pruned offset items next) {id : ℤ} :
    (id, v) ∈ numbered items next ↔
      (offset : ℤ) < id ∧ (pruned : ℤ) < id ∧ id ≤ next ∧ log[(id - 1).toNat]? = some v := by
  obtain ⟨last, rfl, hle, rfl⟩ := hreads.run
  have hlength : ((log.take last).drop (max offset pruned)).length = last - max offset pruned := by
    rw [List.length_drop, List.length_take_of_le hle]
  have hget : ∀ k : ℕ, ((log.take last).drop (max offset pruned))[k]? =
      if max offset pruned + k < last then log[max offset pruned + k]? else none := by
    intro k
    rw [List.getElem?_drop, List.getElem?_take]
  rw [Stream.mem_numbered_iff]
  simp only [hlength, hget]
  constructor
  · rintro ⟨k, hv, rfl⟩
    split at hv
    · next hlt =>
        refine ⟨by omega, by omega, by omega, ?_⟩
        have hindex : ((last : ℤ) - (last - max offset pruned : ℕ) + 1 + k - 1).toNat =
            max offset pruned + k := by omega
        rw [hindex]
        exact hv
    · cases hv
  · rintro ⟨hoffset, hpruned, hid, hv⟩
    refine ⟨(id - 1).toNat - max offset pruned, ?_, by omega⟩
    have hindex : max offset pruned + ((id - 1).toNat - max offset pruned) = (id - 1).toNat := by omega
    rw [hindex, if_pos (by omega)]
    exact hv

structure Session.Orderly (σ : Session V) : Prop where
  sorted : σ.seen.Pairwise fun left right => left.1 < right.1
  seen : ∀ id v, (id, v) ∈ σ.seen → 1 ≤ id ∧ id ≤ σ.offset ∧ σ.log[(id - 1).toNat]? = some v

theorem Session.Orderly.id_le {σ : Session V} (horderly : σ.Orderly) {id : ℤ} {v : V}
    (hmem : (id, v) ∈ σ.seen) : id ≤ σ.log.length := by
  obtain ⟨hone, -, hget⟩ := horderly.seen id v hmem
  obtain ⟨hlt, -⟩ := List.getElem?_eq_some_iff.mp hget
  omega

theorem Session.Orderly.add {σ : Session V} (horderly : σ.Orderly) (s' : Stream V) (vs : List V) :
    Session.Orderly { σ with stream := s', log := σ.log ++ vs } where
  sorted := horderly.sorted
  seen id v hmem := by
    obtain ⟨hone, hle, hget⟩ := horderly.seen id v hmem
    obtain ⟨hlt, -⟩ := List.getElem?_eq_some_iff.mp hget
    exact ⟨hone, hle, (List.getElem?_append_left hlt).trans hget⟩

theorem Session.Orderly.read_of_reads {σ : Session V} (horderly : σ.Orderly) {offset pruned : ℕ}
    {items : List V} {next : ℤ} (hoffset : σ.offset = offset)
    (hreads : Reads σ.log pruned offset items next) :
    Session.Orderly { σ with offset := next, seen := σ.seen ++ numbered items next } := by
  have hold : ∀ id v, (id, v) ∈ σ.seen → id ≤ next := by
    intro id v hmem
    have hle := (horderly.seen id v hmem).2.1
    by_cases hmore : max offset pruned < σ.log.length
    · have hnext := (hreads.found hmore).2
      omega
    · have hnext := (hreads.ended (by omega)).2
      have hid := horderly.id_le hmem
      omega
  constructor
  · rw [List.pairwise_append]
    refine ⟨horderly.sorted, pairwise_numbered items next, ?_⟩
    rintro ⟨id, v⟩ hmem ⟨id', v'⟩ hmem'
    have hle := (horderly.seen id v hmem).2.1
    have hlt := (hreads.mem_numbered_iff.mp hmem').1
    dsimp only
    omega
  · intro id v hmem
    rcases List.mem_append.mp hmem with hmem | hmem
    · obtain ⟨hone, -, hget⟩ := horderly.seen id v hmem
      exact ⟨hone, hold id v hmem, hget⟩
    · obtain ⟨hlt, -, hle, hget⟩ := hreads.mem_numbered_iff.mp hmem
      exact ⟨by omega, hle, hget⟩

theorem Session.Reaches.invariant {start σ : Session V} (hsized : start.stream.Sized segmentSize capacity)
    (hretains : start.stream.Retains start.log) (horderly : start.Orderly)
    (hreaches : start.Reaches σ) :
    σ.stream.Retains σ.log ∧ σ.stream.Sized segmentSize capacity ∧ σ.Orderly := by
  induction hreaches with
  | refl => exact ⟨hretains, hsized, horderly⟩
  | @add σ vs s' last _ hadd ih =>
    obtain ⟨hretains, hsized, horderly⟩ := ih
    obtain ⟨hretains', hsized'⟩ := hretains.add hsized hadd
    exact ⟨hretains', hsized', horderly.add s' vs⟩
  | @read σ items next _ haligned hread ih =>
    obtain ⟨hretains, hsized, horderly⟩ := ih
    refine ⟨hretains, hsized, ?_⟩
    by_cases hneg : σ.offset < 0
    · rw [hretains.readNonBlocking_of_neg hneg] at hread
      cases hread
      refine ⟨?_, ?_⟩
      · simpa [numbered] using horderly.sorted
      · intro id v hmem
        have hmem : (id, v) ∈ σ.seen := by simpa [numbered] using hmem
        obtain ⟨hone, -, hget⟩ := horderly.seen id v hmem
        exact ⟨hone, horderly.id_le hmem, hget⟩
    · obtain ⟨offset, hoffset⟩ := Int.eq_ofNat_of_zero_le (not_lt.mp hneg)
      have haligned := haligned (not_lt.mp hneg)
      rw [hoffset] at haligned hread
      obtain ⟨items', next', hread', hreads⟩ := hretains.readNonBlocking haligned
      cases hread.symm.trans hread'
      exact horderly.read_of_reads hoffset hreads

theorem exists_addItem (hnonneg : 0 ≤ s.segmentSize) (v : V) : ∃ s', s.addItem v = .ok s' := by
  have hopen : ∃ opened, s.openSegment = .ok opened := by
    unfold openSegment
    split
    · exact ⟨_, rfl⟩
    · rw [if_neg (not_lt.mpr hnonneg)]
      exact ⟨_, rfl⟩
  obtain ⟨opened, hopen⟩ := hopen
  unfold addItem
  rw [hopen]
  split
  · exact ⟨_, rfl⟩
  · split
    · exact ⟨_, rfl⟩
    · exact ⟨_, rfl⟩

theorem exists_add (hsized : s.Sized segmentSize capacity) (hpos : 0 < segmentSize) (vs : List V) :
    ∃ s' last, s.add vs = .ok (s', last) := by
  have hitems : ∃ s', vs.foldlM addItem s = .ok s' := by
    induction vs generalizing s with
    | nil => exact ⟨s, rfl⟩
    | cons v vs ih =>
      obtain ⟨next, hnext⟩ := exists_addItem (hsized.size ▸ hpos.le) v
      obtain ⟨s', hrest⟩ := ih (hsized.addItem hnext)
      exact ⟨s', by rw [List.foldlM_cons, hnext]; exact hrest⟩
  obtain ⟨s', hitems⟩ := hitems
  unfold add
  split
  · exact ⟨_, _, rfl⟩
  · rw [hitems]
    exact ⟨_, _, rfl⟩

/-- A new stream and a reader that begins anywhere. Along every run the stream keeps the end of the log, all
of it or as much as its capacity; a negative offset reads from the end; an aligned one gives the run of kept
items after it; and the reader sees the items of the log in order, none twice. -/
theorem stream_refines_log (segmentSize capacity : ℤ) (s₀ : Stream V)
    (hnew : newStream segmentSize capacity = .ok s₀) (start : ℤ) (σ : Session V)
    (hreaches : Session.Reaches ⟨s₀, [], start, []⟩ σ) :
    (σ.stream.segments.flatten = σ.log.drop σ.stream.prunedCount ∧
      (σ.stream.prunedCount = 0 ∨ capacity ≤ (σ.log.drop σ.stream.prunedCount).length)) ∧
    (0 < segmentSize → ∀ vs, ∃ s' last, σ.stream.add vs = .ok (s', last)) ∧
    (∀ offset < 0, σ.stream.readNonBlocking offset = .ok ([], (σ.log.length : ℤ))) ∧
    (∀ offset : ℕ, σ.stream.Aligned σ.log offset → ∃ items next,
      σ.stream.readNonBlocking offset = .ok (items, next) ∧
        Reads σ.log σ.stream.prunedCount offset items next ∧
          ∀ id v, (id, v) ∈ numbered items next ↔ (offset : ℤ) < id ∧ (σ.stream.prunedCount : ℤ) < id ∧
            id ≤ next ∧ σ.log[(id - 1).toNat]? = some v) ∧
    σ.Orderly := by
  obtain ⟨hsized, hempty⟩ := sized_newStream hnew
  obtain ⟨hretains, hsized, horderly⟩ :=
    hreaches.invariant hsized hempty ⟨List.Pairwise.nil, fun _ _ hmem => absurd hmem List.not_mem_nil⟩
  refine ⟨hretains.flatten hsized, exists_add hsized, fun _ => hretains.readNonBlocking_of_neg, ?_,
    horderly⟩
  intro offset haligned
  obtain ⟨items, next, hread, hreads⟩ := hretains.readNonBlocking haligned
  exact ⟨items, next, hread, hreads, fun _ _ => hreads.mem_numbered_iff⟩

/-- A reader that reads twice before the first segment is dropped, and goes on in the middle of the next one. -/
theorem stream_of_seven :
    (newStream 2 3 : Except Err (Stream ℕ)) = .ok ⟨[], 2, 2, 0⟩ ∧
      Session.Orderly (⟨⟨[[30, 40], [50, 60], [70]], 2, 2, 1⟩, [10, 20, 30, 40, 50, 60, 70], 7,
        [(1, 10), (2, 20), (3, 30), (4, 40), (5, 50), (6, 60), (7, 70)]⟩ : Session ℕ) := by
  have hadd : (⟨[], 2, 2, 0⟩ : Stream ℕ).add [10, 20, 30] = .ok (⟨[[10, 20], [30]], 2, 2, 0⟩, 3) := rfl
  have hadd' : (⟨[[10, 20], [30]], 2, 2, 0⟩ : Stream ℕ).add [40, 50, 60, 70] =
      .ok (⟨[[30, 40], [50, 60], [70]], 2, 2, 1⟩, 7) := rfl
  have hstart : Session.Reaches (⟨⟨[], 2, 2, 0⟩, [], 0, []⟩ : Session ℕ) ⟨⟨[], 2, 2, 0⟩, [], 0, []⟩ := .refl
  have hthree := ((hstart.add hadd).read (fun _ => by decide) rfl).read (fun _ => by decide) rfl
  have hseven := (((hthree.add hadd').read (fun _ => by decide) rfl).read (fun _ => by decide) rfl).read
    (fun _ => by decide) rfl
  obtain ⟨-, -, -, -, horderly⟩ := stream_refines_log 2 3 ⟨[], 2, 2, 0⟩ rfl 0 _ hseven
  exact ⟨rfl, horderly⟩

/-- A read with a negative offset gives no items, though all of them are greater than it. -/
theorem negative_offset_reads_nothing :
    ∃ s₀ s : Stream ℕ, newStream 2 3 = .ok s₀ ∧ s₀.add [1, 2, 3] = .ok (s, 3) ∧
      s.segments.flatten = [1, 2, 3] ∧ s.readNonBlocking (-1) = .ok ([], 3) :=
  ⟨⟨[], 2, 2, 0⟩, ⟨[[1, 2], [3]], 2, 2, 0⟩, rfl, rfl, rfl, rfl⟩

end Stream

end CosmosEvm.Rpc
