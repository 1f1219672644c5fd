import CosmosEvm.Rpc.FeeHistory

namespace CosmosEvm.Rpc.FeeHistory

open Relation Transition

def Fetcher.weight : Fetcher → ℕ
  | .running => 2
  | .sending _ => 1
  | .finished => 0

def Main.weight : Main → ℕ
  | .launching => 4
  | .selecting => 2
  | .returned _ _ => 0

def Waiter.weight : Waiter → ℕ
  | .waiting => 1
  | _ => 0

/-- What is left to do: the later batches, the fetchers not started yet, and the goroutines. -/
def measure (plan : Plan) (s : State) : ℕ :=
  20 * (plan.blocks - s.batch) + 3 * (plan.batchSize s.batch - s.fetchers.length) +
    (s.fetchers.map Fetcher.weight).sum + s.main.weight + s.waiter.weight

theorem sum_weight_set {fetchers : List Fetcher} {i : ℕ} {old : Fetcher} (hold : fetchers[i]? = some old)
    (new : Fetcher) :
    ((fetchers.set i new).map Fetcher.weight).sum + old.weight =
      (fetchers.map Fetcher.weight).sum + new.weight := by
  induction fetchers generalizing i with
  | nil => simp at hold
  | cons fetcher rest ih =>
    cases i with
    | zero =>
      obtain rfl : fetcher = old := by simpa using hold
      simp only [List.set_cons_zero, List.map_cons, List.sum_cons]
      omega
    | succ i =>
      have hrest := ih (i := i) (by simpa using hold)
      simp only [List.set_cons_succ, List.map_cons, List.sum_cons]
      omega

section Runs

variable {plan : Plan} {rewardCount : ℕ} {fetched : ℕ → Fetched} {s t : State}

theorem measure_nextBatch_le (plan : Plan) (rewardCount : ℕ) (s : State) :
    measure plan (plan.nextBatch rewardCount s) ≤ 20 * (plan.blocks - s.batch) +
      3 * (plan.batchSize s.batch - s.fetchers.length) + (s.fetchers.map Fetcher.weight).sum + s.waiter.weight +
      4 * min 1 (plan.blocks - s.batch) := by
  unfold Plan.nextBatch measure
  split_ifs
  · simp only [Main.weight]
    omega
  · simp only [Main.weight]
    omega

/-- Every step uses up some of what is left to do. -/
theorem measure_lt_of_step (hstep : Step plan rewardCount fetched s t) : measure plan t < measure plan s := by
  cases hstep with
  | launch hmain hlt hvalue =>
    simp only [measure, List.length_append, List.map_append, List.sum_append, List.length_singleton,
      List.map_singleton, List.sum_singleton, Fetcher.weight]
    omega
  | overflow hmain hlt hvalue =>
    simp only [measure, hmain, Main.weight]
    omega
  | await hmain hfull =>
    simp only [measure, hmain, Main.weight, Waiter.weight]
    omega
  | @finish i fees hrunning hfetched =>
    have hsum := sum_weight_set hrunning .finished
    simp only [measure, State.setFetcher, State.copy, List.length_set, Fetcher.weight] at hsum ⊢
    omega
  | @fail i err hrunning hfetched =>
    have hsum := sum_weight_set hrunning (.sending err)
    simp only [measure, State.setFetcher, List.length_set, Fetcher.weight] at hsum ⊢
    omega
  | @receive i err hmain hsending =>
    have hsum := sum_weight_set hsending .finished
    simp only [measure, State.setFetcher, List.length_set, Fetcher.weight, hmain, Main.weight] at hsum ⊢
    omega
  | close hwaiter hall =>
    simp only [measure, hwaiter, Waiter.weight]
    omega
  | advance hmain hclosed =>
    refine (measure_nextBatch_le plan rewardCount _).trans_lt ?_
    simp only [measure, hmain, Main.weight, Plan.batchSize, maxBlockFetchers, List.map_nil, List.sum_nil,
      List.length_nil, Waiter.weight]
    omega

theorem ends (plan : Plan) (rewardCount : ℕ) (fetched : ℕ → Fetched) (s : State) :
    Ends (Step plan rewardCount fetched) s :=
  ends_of_measure (measure plan) (fun _ _ => measure_lt_of_step) s

end Runs

def Fetched.IsDone (fetched : Fetched) : Prop := ∃ fees, fetched = .done fees

def State.Filled (s : State) (i : ℕ) : Prop := ∃ fee, s.baseFee[i]? = some (some fee)

def State.Written (plan : Plan) (s : State) (i : ℕ) : Prop :=
  s.Filled i ∧ (i + 1 = plan.blocks → s.Filled (i + 1))

def Clean (fetched : ℕ → Fetched) (s : State) : Prop :=
  ∀ i : ℕ, s.fetchers[i]? = some .finished → (fetched (s.batch + i)).IsDone

structure Took (fetched : ℕ → Fetched) (s : State) (i : ℕ) (err : Option String) : Prop where
  finished : s.fetchers[i]? = some .finished
  failed : fetched (s.batch + i) = .failed err
  others : ∀ j : ℕ, s.fetchers[j]? = some .finished → j = i ∨ (fetched (s.batch + j)).IsDone

def Phase (plan : Plan) (rewardCount : ℕ) (fetched : ℕ → Fetched) (s : State) : Prop :=
  match s.main with
  | .launching => s.batch < plan.blocks ∧ s.waiter = .absent ∧ Clean fetched s
  | .selecting =>
    s.batch < plan.blocks ∧ s.waiter ≠ .absent ∧ s.fetchers.length = plan.batchSize s.batch ∧ Clean fetched s
  | .returned (some result) err =>
    plan.blocks ≤ s.batch ∧ s.waiter = .absent ∧ s.fetchers = [] ∧ err = none ∧
      result = plan.result rewardCount s
  | .returned none err =>
    s.batch < plan.blocks ∧ s.waiter ≠ .absent ∧ s.fetchers.length = plan.batchSize s.batch ∧
      ∃ i, Took fetched s i err

structure Fetching (plan : Plan) (fetched : ℕ → Fetched) (s : State) : Prop where
  aligned : s.batch % maxBlockFetchers = 0
  earlier : ∀ i < s.batch, i < plan.blocks → (fetched i).IsDone
  size : s.fetchers.length ≤ plan.batchSize s.batch
  sending : ∀ (i : ℕ) (err : Option String), s.fetchers[i]? = some (.sending err) →
    fetched (s.batch + i) = .failed err
  closed : s.waiter = .closed → ∀ fetcher ∈ s.fetchers, fetcher = .finished

structure Slots (plan : Plan) (fetched : ℕ → Fetched) (s : State) : Prop where
  baseFees : s.baseFee.length = plan.blocks + 1
  gasUsedRatios : s.gasUsedRatio.length = plan.blocks
  earlier : ∀ i < s.batch, i < plan.blocks → s.Written plan i
  current : ∀ i : ℕ, s.fetchers[i]? = some .finished → (fetched (s.batch + i)).IsDone → s.Written plan (s.batch + i)

structure Inv (plan : Plan) (rewardCount : ℕ) (fetched : ℕ → Fetched) (s : State) : Prop where
  fetching : Fetching plan fetched s
  slots : Slots plan fetched s
  phase : Phase plan rewardCount fetched s

section Invariant

variable {plan : Plan} {rewardCount : ℕ} {fetched : ℕ → Fetched} {s t : State}

theorem getElem?_set_cases {fetchers : List Fetcher} {i j : ℕ} {new fetcher : Fetcher}
    (hget : (fetchers.set i new)[j]? = some fetcher) :
    (j = i ∧ fetcher = new) ∨ (j ≠ i ∧ fetchers[j]? = some fetcher) := by
  rw [List.getElem?_set] at hget
  split_ifs at hget with heq hlt
  · exact .inl ⟨heq.symm, (Option.some.inj hget).symm⟩
  · exact .inr ⟨fun hij => heq hij.symm, hget⟩

theorem getElem?_launch_cases {fetchers : List Fetcher} {j : ℕ} {fetcher : Fetcher}
    (hget : (fetchers ++ [.running])[j]? = some fetcher) :
    fetcher = .running ∨ fetchers[j]? = some fetcher := by
  rcases lt_or_ge j fetchers.length with hlt | hge
  · rw [List.getElem?_append_left hlt] at hget
    exact .inr hget
  · rw [List.getElem?_append_right hge] at hget
    exact .inl (List.mem_singleton.mp (List.mem_of_getElem? hget))

theorem nextBatch_eq (plan : Plan) (rewardCount : ℕ) (s : State) :
    ∃ main, plan.nextBatch rewardCount s = { s with main := main } := by
  unfold Plan.nextBatch
  split_ifs
  · exact ⟨_, rfl⟩
  · exact ⟨_, rfl⟩

theorem earlier_of_advance (hinv : Inv plan rewardCount fetched s) (hmain : s.main = .selecting)
    (hclosed : s.waiter = .closed) :
    ∀ i < s.batch + maxBlockFetchers, i < plan.blocks → (fetched i).IsDone ∧ s.Written plan i := by
  have hphase := hinv.phase
  unfold Phase at hphase
  rw [hmain] at hphase
  obtain ⟨-, -, hsize, hclean⟩ := hphase
  intro i hlt hblocks
  rcases lt_or_ge i s.batch with hearlier | hcurrent
  · exact ⟨hinv.fetching.earlier i hearlier hblocks, hinv.slots.earlier i hearlier hblocks⟩
  · obtain ⟨j, rfl⟩ := Nat.exists_eq_add_of_le hcurrent
    have hj : j < s.fetchers.length := by
      rw [hsize]
      unfold Plan.batchSize
      omega
    have hfinished : s.fetchers[j]? = some .finished := by
      rw [List.getElem?_eq_getElem hj, hinv.fetching.closed hclosed _ (List.getElem_mem hj)]
    exact ⟨hclean j hfinished, hinv.slots.current j hfinished (hclean j hfinished)⟩

/-- A batch is left only when every fetch of it was done. -/
theorem fetching_step (hinv : Inv plan rewardCount fetched s) (hstep : Step plan rewardCount fetched s t) :
    Fetching plan fetched t := by
  obtain ⟨haligned, hearlier, hsize, hsending, hclosed⟩ := hinv.fetching
  have hphase := hinv.phase
  unfold Phase at hphase
  cases hstep with
  | launch hmain hlt hvalue =>
    rw [hmain] at hphase
    refine ⟨haligned, hearlier, ?_, ?_, ?_⟩
    · rw [List.length_append, List.length_singleton]
      exact hlt
    · intro i err hget
      exact hsending i err ((getElem?_launch_cases hget).resolve_left nofun)
    · intro hwaiter
      exact absurd (hphase.2.1.symm.trans hwaiter) nofun
  | overflow hmain hlt hvalue => exact ⟨haligned, hearlier, hsize, hsending, hclosed⟩
  | await hmain hfull => exact ⟨haligned, hearlier, hsize, hsending, nofun⟩
  | @finish i fees hrunning hfetched =>
    refine ⟨haligned, hearlier, by simpa [State.setFetcher, State.copy] using hsize, ?_, ?_⟩
    · intro j err hget
      obtain ⟨-, hnew⟩ | ⟨-, hold⟩ := getElem?_set_cases hget
      · exact absurd hnew nofun
      · exact hsending j err hold
    · intro hwaiter
      exact absurd (hclosed hwaiter _ (List.mem_of_getElem? hrunning)) nofun
  | @fail i err hrunning hfetched =>
    refine ⟨haligned, hearlier, by simpa [State.setFetcher] using hsize, ?_, ?_⟩
    · intro j other hget
      obtain ⟨rfl, hnew⟩ | ⟨-, hold⟩ := getElem?_set_cases hget
      · rw [Fetcher.sending.inj hnew]
        exact hfetched
      · exact hsending j other hold
    · intro hwaiter
      exact absurd (hclosed hwaiter _ (List.mem_of_getElem? hrunning)) nofun
  | @receive i err hmain hget =>
    refine ⟨haligned, hearlier, by simpa [State.setFetcher] using hsize, ?_, ?_⟩
    · intro j other hother
      obtain ⟨-, hnew⟩ | ⟨-, hold⟩ := getElem?_set_cases hother
      · exact absurd hnew nofun
      · exact hsending j other hold
    · intro hwaiter
      exact absurd (hclosed hwaiter _ (List.mem_of_getElem? hget)) nofun
  | close hwaiter hall => exact ⟨haligned, hearlier, hsize, hsending, fun _ => hall⟩
  | advance hmain hclosed' =>
    obtain ⟨main, heq⟩ := nextBatch_eq plan rewardCount
      { s with batch := s.batch + maxBlockFetchers, fetchers := [], waiter := .absent }
    rw [heq]
    refine ⟨?_, ?_, Nat.zero_le _, nofun, nofun⟩
    · rw [Nat.add_mod_right]
      exact haligned
    · intro i hlt hblocks
      exact (earlier_of_advance hinv hmain hclosed' i hlt hblocks).1

theorem filled_set {fees : List (Option ℤ)} {i j : ℕ} {fee : ℤ}
    (hfilled : ∃ old, fees[j]? = some (some old)) : ∃ new, (fees.set i (some fee))[j]? = some (some new) := by
  obtain ⟨old, hold⟩ := hfilled
  have hlt : j < fees.length := (List.getElem?_eq_some_iff.mp hold).1
  rw [List.getElem?_set]
  split_ifs with heq hi
  · exact ⟨fee, rfl⟩
  · exact absurd (heq ▸ hlt) hi
  · exact ⟨old, hold⟩

theorem filled_copy (rewardCount i : ℕ) (fees : BlockFees) {j : ℕ} (hfilled : s.Filled j) :
    (s.copy rewardCount i fees).Filled j := by
  unfold State.Filled State.copy
  dsimp only
  split_ifs
  · exact filled_set (filled_set hfilled)
  · exact filled_set hfilled

theorem written_copy (rewardCount i : ℕ) (fees : BlockFees) {j : ℕ} (hwritten : s.Written plan j) :
    (s.copy rewardCount i fees).Written plan j :=
  ⟨filled_copy rewardCount i fees hwritten.1, fun hlast => filled_copy rewardCount i fees (hwritten.2 hlast)⟩

theorem written_copy_self (rewardCount : ℕ) (fees : BlockFees) {i : ℕ} (hlength : s.baseFee.length = plan.blocks + 1)
    (hlt : i < plan.blocks) : (s.copy rewardCount i fees).Written plan i := by
  have hset : ∃ fee, (s.baseFee.set i (some fees.baseFee))[i]? = some (some fee) :=
    ⟨fees.baseFee, by rw [List.getElem?_set_self (by omega)]⟩
  refine ⟨?_, ?_⟩
  · unfold State.Filled State.copy
    dsimp only
    split_ifs
    · exact filled_set hset
    · exact hset
  · intro hlast
    unfold State.Filled State.copy
    dsimp only
    rw [if_pos (by omega)]
    exact ⟨fees.nextBaseFee, by rw [List.getElem?_set_self (by rw [List.length_set]; omega)]⟩

/-- The slots of a block are written by the time its fetcher has finished. -/
theorem slots_step (hinv : Inv plan rewardCount fetched s) (hstep : Step plan rewardCount fetched s t) :
    Slots plan fetched t := by
  obtain ⟨hbaseFees, hratios, hearlier, hcurrent⟩ := hinv.slots
  cases hstep with
  | launch hmain hlt hvalue =>
    refine ⟨hbaseFees, hratios, hearlier, ?_⟩
    intro i hget hdone
    exact hcurrent i ((getElem?_launch_cases hget).resolve_left nofun) hdone
  | overflow hmain hlt hvalue => exact ⟨hbaseFees, hratios, hearlier, hcurrent⟩
  | await hmain hfull => exact ⟨hbaseFees, hratios, hearlier, hcurrent⟩
  | @finish i fees hrunning hfetched =>
    have hi : s.batch + i < plan.blocks := by
      have hlt : i < s.fetchers.length := (List.getElem?_eq_some_iff.mp hrunning).1
      have hsize := hinv.fetching.size
      unfold Plan.batchSize at hsize
      omega
    refine ⟨?_, ?_, ?_, ?_⟩
    · simp only [State.setFetcher, State.copy]
      split_ifs <;> simpa using hbaseFees
    · simpa [State.setFetcher, State.copy] using hratios
    · intro j hj hblocks
      exact written_copy rewardCount _ fees (hearlier j hj hblocks)
    · intro j hget hdone
      obtain ⟨rfl, -⟩ | ⟨-, hold⟩ := getElem?_set_cases hget
      · exact written_copy_self rewardCount fees hbaseFees hi
      · exact written_copy rewardCount _ fees (hcurrent j hold hdone)
  | @fail i err hrunning hfetched =>
    refine ⟨hbaseFees, hratios, hearlier, ?_⟩
    intro j hget hdone
    obtain ⟨-, hnew⟩ | ⟨-, hold⟩ := getElem?_set_cases hget
    · exact absurd hnew nofun
    · exact hcurrent j hold hdone
  | @receive i err hmain hsending =>
    refine ⟨hbaseFees, hratios, hearlier, ?_⟩
    intro j hget hdone
    obtain ⟨rfl, -⟩ | ⟨-, hold⟩ := getElem?_set_cases hget
    · obtain ⟨fees, hfees⟩ := hdone
      exact absurd ((hinv.fetching.sending j err hsending).symm.trans hfees) nofun
    · exact hcurrent j hold hdone
  | close hwaiter hall => exact ⟨hbaseFees, hratios, hearlier, hcurrent⟩
  | advance hmain hclosed =>
    obtain ⟨main, heq⟩ := nextBatch_eq plan rewardCount
      { s with batch := s.batch + maxBlockFetchers, fetchers := [], waiter := .absent }
    rw [heq]
    refine ⟨hbaseFees, hratios, ?_, nofun⟩
    intro i hlt hblocks
    exact (earlier_of_advance hinv hmain hclosed i hlt hblocks).2

structure Moved (fetched : ℕ → Fetched) (s t : State) (i : ℕ) (new : Fetcher) : Prop where
  running : s.fetchers[i]? = some .running
  fetchers : t.fetchers = s.fetchers.set i new
  batch : t.batch = s.batch
  waiter : t.waiter = s.waiter
  main : t.main = s.main
  done : new = .finished → (fetched (s.batch + i)).IsDone

theorem Moved.length_eq {i : ℕ} {new : Fetcher} (hmoved : Moved fetched s t i new) :
    t.fetchers.length = s.fetchers.length := by
  rw [hmoved.fetchers, List.length_set]

theorem Moved.clean {i : ℕ} {new : Fetcher} (hmoved : Moved fetched s t i new) (hclean : Clean fetched s) :
    Clean fetched t := by
  intro j hget
  rw [hmoved.fetchers] at hget
  rw [hmoved.batch]
  obtain ⟨rfl, hfinished⟩ | ⟨-, hold⟩ := getElem?_set_cases hget
  · exact hmoved.done hfinished.symm
  · exact hclean j hold

theorem Moved.took {i j : ℕ} {err : Option String} {new : Fetcher} (hmoved : Moved fetched s t j new)
    (htook : Took fetched s i err) : Took fetched t i err := by
  have hne : j ≠ i := by
    rintro rfl
    exact absurd (hmoved.running.symm.trans htook.finished) nofun
  refine ⟨?_, ?_, ?_⟩
  · rw [hmoved.fetchers, List.getElem?_set_ne hne]
    exact htook.finished
  · rw [hmoved.batch]
    exact htook.failed
  · intro k hget
    rw [hmoved.fetchers] at hget
    rw [hmoved.batch]
    obtain ⟨rfl, hfinished⟩ | ⟨-, hold⟩ := getElem?_set_cases hget
    · exact .inr (hmoved.done hfinished.symm)
    · exact htook.others k hold

theorem Moved.phase {i : ℕ} {new : Fetcher} (hmoved : Moved fetched s t i new)
    (hphase : Phase plan rewardCount fetched s) : Phase plan rewardCount fetched t := by
  unfold Phase at hphase ⊢
  rw [hmoved.main, hmoved.batch, hmoved.waiter, hmoved.length_eq]
  cases hmain : s.main with
  | launching =>
    rw [hmain] at hphase
    exact ⟨hphase.1, hphase.2.1, hmoved.clean hphase.2.2⟩
  | selecting =>
    rw [hmain] at hphase
    exact ⟨hphase.1, hphase.2.1, hphase.2.2.1, hmoved.clean hphase.2.2.2⟩
  | returned result err =>
    rw [hmain] at hphase
    cases result with
    | none =>
      obtain ⟨hbatch, hwaiter, hsize, k, htook⟩ := hphase
      exact ⟨hbatch, hwaiter, hsize, k, hmoved.took htook⟩
    | some result =>
      have hrunning := hmoved.running
      rw [hphase.2.2.1] at hrunning
      exact absurd hrunning nofun

theorem phase_close (hphase : Phase plan rewardCount fetched s) (hwaiter : s.waiter = .waiting) :
    Phase plan rewardCount fetched { s with waiter := .closed } := by
  unfold Phase at hphase ⊢
  dsimp only
  cases hmain : s.main with
  | launching =>
    rw [hmain] at hphase
    exact absurd (hwaiter.symm.trans hphase.2.1) nofun
  | selecting =>
    rw [hmain] at hphase
    exact ⟨hphase.1, nofun, hphase.2.2⟩
  | returned result err =>
    rw [hmain] at hphase
    cases result with
    | none =>
      obtain ⟨hbatch, -, hsize, k, htook⟩ := hphase
      exact ⟨hbatch, nofun, hsize, k, htook.finished, htook.failed, htook.others⟩
    | some result => exact absurd (hwaiter.symm.trans hphase.2.1) nofun

theorem phase_nextBatch (hwaiter : s.waiter = .absent) (hfetchers : s.fetchers = []) :
    Phase plan rewardCount fetched (plan.nextBatch rewardCount s) := by
  unfold Plan.nextBatch
  split_ifs with hmore
  · refine ⟨hmore, hwaiter, ?_⟩
    intro i hget
    rw [hfetchers] at hget
    exact absurd hget nofun
  · exact ⟨not_lt.mp hmore, hwaiter, hfetchers, rfl, rfl⟩

theorem phase_step (hsmall : plan.blocks < 2 ^ 31) (hinv : Inv plan rewardCount fetched s)
    (hstep : Step plan rewardCount fetched s t) : Phase plan rewardCount fetched t := by
  have hphase := hinv.phase
  cases hstep with
  | launch hmain hlt hvalue =>
    unfold Phase at hphase ⊢
    rw [hmain] at hphase
    simp only [hmain]
    refine ⟨hphase.1, hphase.2.1, ?_⟩
    intro i hget
    exact hphase.2.2 i ((getElem?_launch_cases hget).resolve_left nofun)
  | overflow hmain hlt hvalue =>
    unfold Plan.batchSize at hlt
    omega
  | await hmain hfull =>
    unfold Phase at hphase
    rw [hmain] at hphase
    exact ⟨hphase.1, nofun, hfull, hphase.2.2⟩
  | @finish i fees hrunning hfetched =>
    exact Moved.phase ⟨hrunning, rfl, rfl, rfl, rfl, fun _ => ⟨fees, hfetched⟩⟩ hphase
  | @fail i err hrunning hfetched => exact Moved.phase ⟨hrunning, rfl, rfl, rfl, rfl, nofun⟩ hphase
  | @receive i err hmain hsending =>
    unfold Phase at hphase
    rw [hmain] at hphase
    obtain ⟨hbatch, hwaiter, hsize, hclean⟩ := hphase
    have hlt : i < s.fetchers.length := (List.getElem?_eq_some_iff.mp hsending).1
    refine ⟨hbatch, hwaiter, List.length_set.trans hsize, i, ?_, hinv.fetching.sending i err hsending, ?_⟩
    · exact List.getElem?_set_self hlt
    · intro j hget
      obtain ⟨rfl, -⟩ | ⟨-, hold⟩ := getElem?_set_cases hget
      · exact .inl rfl
      · exact .inr (hclean j hold)
  | close hwaiter hall => exact phase_close hphase hwaiter
  | advance hmain hclosed => exact phase_nextBatch rfl rfl

theorem inv_step (hsmall : plan.blocks < 2 ^ 31) (s t : State) (hinv : Inv plan rewardCount fetched s)
    (hstep : Step plan rewardCount fetched s t) : Inv plan rewardCount fetched t :=
  ⟨fetching_step hinv hstep, slots_step hinv hstep, phase_step hsmall hinv hstep⟩

theorem inv_initial (plan : Plan) (rewardCount : ℕ) (fetched : ℕ → Fetched) :
    Inv plan rewardCount fetched (plan.initial rewardCount) := by
  refine ⟨?_, ?_, phase_nextBatch rfl rfl⟩
  all_goals
    obtain ⟨main, heq⟩ := nextBatch_eq plan rewardCount
      { batch := 0, fetchers := [], waiter := .absent, main := .launching,
        reward := List.replicate plan.blocks (List.replicate rewardCount none),
        baseFee := List.replicate (plan.blocks + 1) none, gasUsedRatio := List.replicate plan.blocks 0 }
    rw [Plan.initial, heq]
  · exact ⟨rfl, nofun, Nat.zero_le _, nofun, nofun⟩
  · exact ⟨List.length_replicate, List.length_replicate, nofun, nofun⟩

end Invariant

section Stuck

variable {plan : Plan} {rewardCount : ℕ} {fetched : ℕ → Fetched} {s : State}

theorem not_running_of_stuck (hstuck : Stuck (Step plan rewardCount fetched) s) (i : ℕ) :
    s.fetchers[i]? ≠ some .running := by
  intro hrunning
  cases hfetched : fetched (s.batch + i) with
  | done fees => exact hstuck _ (.finish hrunning hfetched)
  | failed err => exact hstuck _ (.fail hrunning hfetched)

theorem returned_of_stuck (hinv : Inv plan rewardCount fetched s)
    (hstuck : Stuck (Step plan rewardCount fetched) s) : ∃ result err, s.main = .returned result err := by
  have hphase := hinv.phase
  unfold Phase at hphase
  cases hmain : s.main with
  | launching =>
    exfalso
    rcases hinv.fetching.size.lt_or_eq with hlt | hfull
    · rcases lt_or_ge (s.batch + s.fetchers.length) (2 ^ 31) with hvalue | hvalue
      · exact hstuck _ (.launch hmain hlt hvalue)
      · exact hstuck _ (.overflow hmain hlt hvalue)
    · exact hstuck _ (.await hmain hfull)
  | selecting =>
    exfalso
    rw [hmain] at hphase
    cases hwaiter : s.waiter with
    | absent => exact hphase.2.1 hwaiter
    | closed => exact hstuck _ (.advance hmain hwaiter)
    | waiting =>
      -- nobody runs and nobody sends, so that the waiter can go on
      apply hstuck _ (.close hwaiter _)
      intro fetcher hmem
      obtain ⟨i, hget⟩ := List.getElem?_of_mem hmem
      cases fetcher with
      | running => exact absurd hget (not_running_of_stuck hstuck i)
      | sending err => exact absurd (.receive hmain hget) (hstuck _)
      | finished => rfl
  | returned result err => exact ⟨result, err, rfl⟩

theorem waiter_ne_waiting (hstuck : Stuck (Step plan rewardCount fetched) s)
    (hall : ∀ fetcher ∈ s.fetchers, fetcher = .finished) : s.waiter ≠ .waiting := fun hwaiter =>
  hstuck _ (.close hwaiter hall)

structure Settled (s : State) : Prop where
  returned : ∃ result err, s.main = .returned result err ∧ (result = none → err ≠ none)
  shape : ∀ result err, s.main = .returned (some result) err →
    result.baseFee.length = result.gasUsedRatio.length + 1 ∧ none ∉ result.baseFee
  fetchers : ∀ fetcher ∈ s.fetchers, fetcher = .finished
  waiter : s.waiter ≠ .waiting

def Fetched.Fails (fetched : Fetched) : Prop := ∃ err, fetched = .failed err

theorem Fetched.not_fails_of_isDone {fetched : Fetched} (hdone : fetched.IsDone) : ¬ fetched.Fails := by
  rintro ⟨err, hfailed⟩
  obtain ⟨fees, hfees⟩ := hdone
  exact absurd (hfailed.symm.trans hfees) nofun

/-- In the first batch with a failed fetch there is no other one, and it has an error to send. -/
def Isolated (plan : Plan) (fetched : ℕ → Fetched) : Prop :=
  ∀ i < plan.blocks, (fetched i).Fails →
    (∀ j < plan.blocks, j / maxBlockFetchers < i / maxBlockFetchers → ¬ (fetched j).Fails) →
    fetched i ≠ .failed none ∧
      ∀ j < plan.blocks, j / maxBlockFetchers = i / maxBlockFetchers → (fetched j).Fails → j = i

theorem index_div {batch i : ℕ} (haligned : batch % maxBlockFetchers = 0) (hi : i < maxBlockFetchers) :
    (batch + i) / maxBlockFetchers = batch / maxBlockFetchers := by
  unfold maxBlockFetchers at *
  omega

theorem shape_of_inv (hinv : Inv plan rewardCount fetched s) (hblocks : 0 < plan.blocks)
    {result : FeeHistoryResult} {err : Option String} (hmain : s.main = .returned (some result) err) :
    result.baseFee.length = result.gasUsedRatio.length + 1 ∧ none ∉ result.baseFee := by
  obtain ⟨hbaseFees, hratios, hearlier, -⟩ := hinv.slots
  have hphase := hinv.phase
  unfold Phase at hphase
  rw [hmain] at hphase
  obtain ⟨hbatch, -, -, -, rfl⟩ := hphase
  refine ⟨?_, ?_⟩
  · rw [Plan.result, hbaseFees, hratios]
  · intro hmem
    obtain ⟨i, hget⟩ := List.getElem?_of_mem hmem
    have hfilled : s.Filled i := by
      have hlt : i < s.baseFee.length := (List.getElem?_eq_some_iff.mp hget).1
      rcases lt_or_ge i plan.blocks with hblock | hnext
      · exact (hearlier i (by omega) hblock).1
      · -- the last fetcher fills in the base fee of the next block
        obtain rfl : i = plan.blocks - 1 + 1 := by omega
        exact (hearlier (plan.blocks - 1) (by omega) (by omega)).2 (by omega)
    obtain ⟨fee, hfee⟩ := hfilled
    exact absurd (hget.symm.trans hfee) nofun

/-- A lone error finds its receiver, and the other fetchers of the batch end. -/
theorem settled_of_isolated (hinv : Inv plan rewardCount fetched s)
    (hstuck : Stuck (Step plan rewardCount fetched) s) (hblocks : 0 < plan.blocks)
    (hisolated : Isolated plan fetched) : Settled s := by
  obtain ⟨result, err, hmain⟩ := returned_of_stuck hinv hstuck
  have hphase := hinv.phase
  unfold Phase at hphase
  rw [hmain] at hphase
  cases result with
  | some result =>
    have hall : ∀ fetcher ∈ s.fetchers, fetcher = .finished := by
      rw [hphase.2.2.1]
      exact nofun
    refine ⟨⟨_, _, hmain, nofun⟩, ?_, hall, waiter_ne_waiting hstuck hall⟩
    intro result' err' hmain'
    exact shape_of_inv hinv hblocks hmain'
  | none =>
    obtain ⟨hbatch, -, hsize, i, htook⟩ := hphase
    have hi : i < s.fetchers.length := (List.getElem?_eq_some_iff.mp htook.finished).1
    unfold Plan.batchSize at hsize
    obtain ⟨herr, halone⟩ := hisolated (s.batch + i) (by omega) ⟨err, htook.failed⟩ (by
      intro j hj hlt
      rw [index_div hinv.fetching.aligned (by omega)] at hlt
      exact Fetched.not_fails_of_isDone
        (hinv.fetching.earlier j (lt_of_not_ge fun hge => hlt.not_ge (Nat.div_le_div_right hge)) hj))
    have hall : ∀ fetcher ∈ s.fetchers, fetcher = .finished := by
      intro fetcher hmem
      obtain ⟨j, hget⟩ := List.getElem?_of_mem hmem
      have hj : j < s.fetchers.length := (List.getElem?_eq_some_iff.mp hget).1
      cases fetcher with
      | running => exact absurd hget (not_running_of_stuck hstuck j)
      | finished => rfl
      | sending other =>
        have hfails : (fetched (s.batch + j)).Fails := ⟨other, hinv.fetching.sending j other hget⟩
        have heq := halone (s.batch + j) (by omega) (by
          rw [index_div hinv.fetching.aligned (by omega), index_div hinv.fetching.aligned (by omega)]) hfails
        obtain rfl : j = i := by omega
        exact absurd (hget.symm.trans htook.finished) nofun
    refine ⟨⟨_, _, hmain, ?_⟩, ?_, hall, waiter_ne_waiting hstuck hall⟩
    · rintro - rfl
      exact herr htook.failed
    · intro result' err' hmain'
      exact absurd (hmain.symm.trans hmain') nofun

theorem eq_of_fails (hinv : Inv plan rewardCount fetched s) {i : ℕ} {err : Option String}
    (htook : Took fetched s i err) (hsize : s.fetchers.length = plan.batchSize s.batch)
    (hall : ∀ fetcher ∈ s.fetchers, fetcher = .finished) {k : ℕ} (hk : k < plan.blocks)
    (hdiv : k / maxBlockFetchers = s.batch / maxBlockFetchers) (hfails : (fetched k).Fails) :
    k = s.batch + i := by
  have haligned := hinv.fetching.aligned
  unfold Plan.batchSize maxBlockFetchers at hsize
  unfold maxBlockFetchers at hdiv haligned
  obtain ⟨j, rfl⟩ : ∃ j, k = s.batch + j := ⟨k - s.batch, by omega⟩
  have hj : j < s.fetchers.length := by omega
  have hfinished : s.fetchers[j]? = some .finished := by
    rw [List.getElem?_eq_getElem hj, hall _ (List.getElem_mem hj)]
  rcases htook.others j hfinished with rfl | hdone
  · rfl
  · exact absurd hfails (Fetched.not_fails_of_isDone hdone)

/-- A second error has no receiver left, and its fetcher stays. -/
theorem isolated_of_settled (hinv : Inv plan rewardCount fetched s) (hsettled : Settled s) :
    Isolated plan fetched := by
  obtain ⟨result, err, hmain, herr⟩ := hsettled.returned
  have hphase := hinv.phase
  unfold Phase at hphase
  rw [hmain] at hphase
  intro k hk hfails hfirst
  cases result with
  | some result =>
    exact absurd hfails (Fetched.not_fails_of_isDone
      (hinv.fetching.earlier k (hk.trans_le hphase.1) hk))
  | none =>
    obtain ⟨hbatch, -, hsize, i, htook⟩ := hphase
    have hi : i < s.fetchers.length := (List.getElem?_eq_some_iff.mp htook.finished).1
    have hi' : i < maxBlockFetchers ∧ s.batch + i < plan.blocks := by
      unfold Plan.batchSize at hsize
      omega
    have hdiv : k / maxBlockFetchers = s.batch / maxBlockFetchers := by
      apply le_antisymm
      · rw [← index_div hinv.fetching.aligned hi'.1]
        by_contra hlt
        exact hfirst (s.batch + i) hi'.2 (not_le.mp hlt) ⟨err, htook.failed⟩
      · apply Nat.div_le_div_right
        by_contra hlt
        exact Fetched.not_fails_of_isDone (hinv.fetching.earlier k (not_le.mp hlt) hk) hfails
    have heq := eq_of_fails hinv htook hsize hsettled.fetchers hk hdiv hfails
    refine ⟨?_, ?_⟩
    · rw [heq, htook.failed]
      intro hnone
      exact herr rfl (Fetched.failed.inj hnone)
    · intro j hj hsame hfails'
      rw [heq]
      exact eq_of_fails hinv htook hsize hsettled.fetchers hj (hsame.trans hdiv) hfails'

end Stuck

def Quiet (plan : Plan) (rewardCount : ℕ) (fetched : ℕ → Fetched) : Prop :=
  Ends (Step plan rewardCount fetched) (plan.initial rewardCount) ∧
    ∀ s, ReflTransGen (Step plan rewardCount fetched) (plan.initial rewardCount) s →
      Stuck (Step plan rewardCount fetched) s → Settled s

theorem not_quiet_of_no_blocks {plan : Plan} (hblocks : plan.blocks = 0) (rewardCount : ℕ)
    (fetched : ℕ → Fetched) : ¬ Quiet plan rewardCount fetched := by
  rintro ⟨-, hsettled⟩
  have hinitial : plan.initial rewardCount =
      { batch := 0, fetchers := [], waiter := .absent,
        main := .returned (some ⟨plan.blockStart, [], [none], []⟩) none,
        reward := [], baseFee := [none], gasUsedRatio := [] } := by
    simp [Plan.initial, Plan.nextBatch, Plan.result, hblocks]
  have hstuck : Stuck (Step plan rewardCount fetched) (plan.initial rewardCount) := by
    rw [hinitial]
    intro t hstep
    cases hstep with
    | launch hmain => exact nomatch hmain
    | overflow hmain => exact nomatch hmain
    | await hmain => exact nomatch hmain
    | finish hrunning => exact nomatch hrunning
    | fail hrunning => exact nomatch hrunning
    | receive hmain => exact nomatch hmain
    | close hwaiter => exact nomatch hwaiter
    | advance hmain => exact nomatch hmain
  have hshape := (hsettled _ .refl hstuck).shape
  rw [hinitial] at hshape
  exact (hshape _ _ rfl).2 List.mem_cons_self

theorem quiet_iff {plan : Plan} (hsmall : plan.blocks < 2 ^ 31) (rewardCount : ℕ) (fetched : ℕ → Fetched) :
    Quiet plan rewardCount fetched ↔ 0 < plan.blocks ∧ Isolated plan fetched := by
  have hinv : ∀ s, ReflTransGen (Step plan rewardCount fetched) (plan.initial rewardCount) s →
      Inv plan rewardCount fetched s := fun s hrun =>
    invariant _ (inv_step hsmall) hrun (inv_initial plan rewardCount fetched)
  constructor
  · intro hquiet
    obtain ⟨s, hrun, hstuck⟩ := exists_stuck hquiet.1
    refine ⟨Nat.pos_of_ne_zero fun hzero => not_quiet_of_no_blocks hzero rewardCount fetched hquiet, ?_⟩
    exact isolated_of_settled (hinv s hrun) (hquiet.2 s hrun hstuck)
  · rintro ⟨hblocks, hisolated⟩
    refine ⟨ends plan rewardCount fetched _, ?_⟩
    intro s hrun hstuck
    exact settled_of_isolated (hinv s hrun) hstuck hblocks hisolated

section Request

variable {B E R : Type} (b : Backend B E R) (userBlockCount : UInt64) (lastBlock : ℤ)
  (rewardPercentiles : List Float)

/-- `FeeHistory` returns without a panic, and everything settles. -/
def Total : Prop :=
  match prepare b userBlockCount lastBlock rewardPercentiles with
  | .refused _ => True
  | .panicked _ => False
  | .started plan => Quiet plan rewardPercentiles.length (fetch b rewardPercentiles plan.blockStart)

/-- The request is refused with an error: for its percentiles, without a head, beyond the head, or for more blocks
than the cap. -/
def Refused : Prop :=
  (∃ err, checkPercentiles 0 none rewardPercentiles = .error err) ∨
  (∃ err, b.blockNumber .feeHistory = .error err) ∨
  ∃ head, b.blockNumber .feeHistory = .ok head ∧
    ((head.toNat : ℤ) < blockEnd b head.toNat lastBlock ∨ b.feeHistoryCap.toInt < userBlockCount.toInt64.toInt)

def request (head : UInt64) : Plan :=
  let last := blockEnd b head.toNat lastBlock
  let blocks := min userBlockCount.toInt64.toInt (last + 1)
  ⟨last + 1 - blocks, blocks.toNat⟩

variable {b userBlockCount lastBlock rewardPercentiles}

theorem prepare_of_refused (hrefused : Refused b userBlockCount lastBlock rewardPercentiles) :
    ∃ err, prepare b userBlockCount lastBlock rewardPercentiles = .refused err := by
  unfold prepare
  cases hpercentiles : checkPercentiles 0 none rewardPercentiles with
  | error err => exact ⟨err, rfl⟩
  | ok =>
    cases hhead : b.blockNumber .feeHistory with
    | error err => exact ⟨err, rfl⟩
    | ok head =>
      unfold Refused at hrefused
      rw [hpercentiles, hhead] at hrefused
      obtain ⟨err, herr⟩ | ⟨err, herr⟩ | ⟨other, hother, hrefused⟩ := hrefused
      · exact nomatch herr
      · exact nomatch herr
      · cases hother
        dsimp only
        rcases hrefused with hbeyond | hcap
        · rw [if_pos hbeyond]
          exact ⟨_, rfl⟩
        · split_ifs
          · exact ⟨_, rfl⟩
          · exact ⟨_, rfl⟩

theorem blockEnd_nonneg (head : UInt64) : 0 ≤ blockEnd b head.toNat lastBlock := by
  unfold blockEnd
  split_ifs
  · exact le_rfl
  · exact Int.natCast_nonneg _
  · omega

theorem prepare_of_not_refused (hrefused : ¬ Refused b userBlockCount lastBlock rewardPercentiles)
    (hhead : ∀ head, b.blockNumber .feeHistory = .ok head → head.toNat + 4 < 2 ^ 63) :
    ∃ head, b.blockNumber .feeHistory = .ok head ∧
      userBlockCount.toInt64.toInt ≤ b.feeHistoryCap.toInt ∧
      prepare b userBlockCount lastBlock rewardPercentiles =
        makeSlices (blockEnd b head.toNat lastBlock)
          (min userBlockCount.toInt64.toInt (blockEnd b head.toNat lastBlock + 1)) := by
  obtain ⟨hpercentiles, hnumber, hrange⟩ : _ ∧ _ ∧ _ := ⟨fun h => hrefused (.inl h),
    fun h => hrefused (.inr (.inl h)), fun h => hrefused (.inr (.inr h))⟩
  cases hcheck : checkPercentiles 0 none rewardPercentiles with
  | error err => exact absurd ⟨err, hcheck⟩ hpercentiles
  | ok =>
    cases hblock : b.blockNumber .feeHistory with
    | error err => exact absurd ⟨err, hblock⟩ hnumber
    | ok head =>
      have hwidth := hhead head hblock
      have hlast := not_or.mp fun h => hrange ⟨head, hblock, h⟩
      obtain ⟨hbeyond, hcap⟩ := hlast
      refine ⟨head, rfl, not_lt.mp hcap, ?_⟩
      unfold prepare
      rw [hcheck, hblock]
      dsimp only
      rw [if_neg hbeyond, if_neg hcap]
      congr 1
      split_ifs with hless
      · omega
      · omega

/-- `eth_feeHistory` returns, and leaves nothing running, exactly where it refuses the request, or where it is
asked for a block at least and the first batch with a failed fetch has no other, which has an error to send. -/
theorem feeHistory_total_iff {B E R : Type} (b : Backend B E R) (userBlockCount : UInt64) (lastBlock : ℤ)
    (rewardPercentiles : List Float)
    (hhead : ∀ head, b.blockNumber .feeHistory = .ok head → head.toNat + 4 < 2 ^ 63) :
    Total b userBlockCount lastBlock rewardPercentiles ↔
      Refused b userBlockCount lastBlock rewardPercentiles ∨
        (0 < userBlockCount.toInt64.toInt ∧ ∀ head, b.blockNumber .feeHistory = .ok head →
          Isolated (request b userBlockCount lastBlock head)
            (fetch b rewardPercentiles (request b userBlockCount lastBlock head).blockStart)) := by
  by_cases hrefused : Refused b userBlockCount lastBlock rewardPercentiles
  · obtain ⟨err, hprepare⟩ := prepare_of_refused hrefused
    refine iff_of_true ?_ (.inl hrefused)
    unfold Total
    rw [hprepare]
    trivial
  · obtain ⟨head, hblock, hcap, hprepare⟩ := prepare_of_not_refused hrefused hhead
    have hlast : 0 ≤ blockEnd b head.toNat lastBlock := blockEnd_nonneg head
    have hcap' : b.feeHistoryCap.toInt < 2 ^ 31 := Int32.toInt_lt b.feeHistoryCap
    have hforall : (∀ head', b.blockNumber .feeHistory = .ok head' →
        Isolated (request b userBlockCount lastBlock head')
          (fetch b rewardPercentiles (request b userBlockCount lastBlock head').blockStart)) ↔
        Isolated (request b userBlockCount lastBlock head)
          (fetch b rewardPercentiles (request b userBlockCount lastBlock head).blockStart) := by
      refine ⟨fun hall => hall head hblock, ?_⟩
      intro hone head' hblock'
      obtain rfl := Except.ok.inj (hblock.symm.trans hblock')
      exact hone
    rw [or_iff_right hrefused, hforall]
    unfold Total makeSlices at *
    rw [hprepare]
    split_ifs with hneg
    · exact iff_of_false id fun hpos => by omega
    · have hsmall : (request b userBlockCount lastBlock head).blocks < 2 ^ 31 := by
        simp only [request]
        omega
      have hpos : 0 < (request b userBlockCount lastBlock head).blocks ↔ 0 < userBlockCount.toInt64.toInt := by
        simp only [request]
        omega
      rw [← hpos]
      exact quiet_iff hsmall rewardPercentiles.length _

def answering (answer : ℤ → Call (Option ℤ)) : Backend ℤ Unit Unit where
  height := id
  blockNumber := fun _ => .ok 10
  clientBlock := fun _ => answer
  clientBlockResults := fun _ _ => .returns (some ()) none
  rpcBlockFromCometBlock := fun _ _ => .returns (some ()) none
  processBlocker := fun _ _ _ _ => .returns (some ⟨⟨7, 8⟩, [], 0⟩) none
  feeHistoryCap := 100
  earliestBlockNumber := -5

def nineTimesOut (height : ℤ) : Call (Option ℤ) :=
  if height = 9 then .returns none (some "timeout") else .returns (some (some height)) none

theorem feeHistory_total_of_one_timeout : Total (answering nineTimesOut) 3 (-2) [] := by
  have hone : fetch (answering nineTimesOut) [] 8 1 = .failed (some "timeout") := rfl
  have honly : ∀ i < 3, (fetch (answering nineTimesOut) [] 8 i).Fails → i = 1 := by
    intro i hi hfails
    match i, hi, hfails with
    | 0, _, hfails => exact absurd hfails (Fetched.not_fails_of_isDone ⟨_, rfl⟩)
    | 1, _, _ => rfl
    | 2, _, hfails => exact absurd hfails (Fetched.not_fails_of_isDone ⟨_, rfl⟩)
  apply (feeHistory_total_iff (answering nineTimesOut) 3 (-2) [] ?_).2
  · refine .inr ⟨by decide, ?_⟩
    intro head hhead
    cases hhead
    have hrequest : request (answering nineTimesOut) 3 (-2) 10 = ⟨8, 3⟩ := by decide +kernel
    rw [hrequest]
    intro i hi hfails _
    obtain rfl := honly i hi hfails
    refine ⟨?_, fun j hj _ hfails' => honly j hj hfails'⟩
    rw [hone]
    exact nofun
  · intro head hhead
    cases hhead
    decide

/-- What goes wrong: a count of `2 ^ 63` panics, a count of zero gives a nil base fee, a block that is missing
without an error gives nothing at all, and two timeouts leave a fetcher and the waiter behind. -/
theorem feeHistory_not_total :
    ¬ Total (answering nineTimesOut) (2 ^ 63) (-2) [] ∧
    ¬ Total (answering nineTimesOut) 0 (-2) [] ∧
    ¬ Total (answering fun _ => .returns (some none) none) 1 (-2) [] ∧
    ¬ Total (answering fun _ => .returns none (some "timeout")) 2 (-2) [] := by
  have hpanics : prepare (answering nineTimesOut) (2 ^ 63) (-2) [] =
      .panicked "runtime error: makeslice: len out of range" := by decide +kernel
  have hzero : prepare (answering nineTimesOut) 0 (-2) [] = .started ⟨11, 0⟩ := by decide +kernel
  have hone : prepare (answering fun _ => .returns (some none) none) 1 (-2) [] = .started ⟨10, 1⟩ := by
    decide +kernel
  have htwo : prepare (answering fun _ => .returns none (some "timeout")) 2 (-2) [] = .started ⟨9, 2⟩ := by
    decide +kernel
  unfold Total
  rw [hpanics, hzero, hone, htwo]
  dsimp only
  refine ⟨id, not_quiet_of_no_blocks rfl _ _, ?_, ?_⟩
  · intro hquiet
    have hisolated := ((quiet_iff (by decide) _ _).1 hquiet).2
    exact (hisolated 0 (by decide) ⟨none, rfl⟩ nofun).1 rfl
  · intro hquiet
    have hisolated := ((quiet_iff (by decide) _ _).1 hquiet).2
    exact absurd ((hisolated 0 (by decide) ⟨_, rfl⟩ nofun).2 1 (by decide) rfl ⟨_, rfl⟩) (by decide)

end Request

end CosmosEvm.Rpc.FeeHistory
