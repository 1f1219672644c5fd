import Mathlib.Tactic.Common

/-!
# Calls that may fail

How a chain of fallible calls succeeds: `bind` takes each step's value on, `mapError` rewrites only
failures, and a run over a list of calls keeps what each of them keeps.
-/

namespace CosmosEvm.Result

variable {ε ε' α β : Type}

theorem bind_eq_ok_iff {call : Except ε α} {next : α → Except ε β} {result : β} :
    (call >>= next) = .ok result ↔ ∃ value, call = .ok value ∧ next value = .ok result := by
  cases call with
  | error err => simp [bind, Except.bind]
  | ok value => simp [bind, Except.bind]

theorem seq_eq_ok_iff {first : Except ε Unit} {next : Unit → Except ε β} {result : β} :
    (first >>= next) = .ok result ↔ first = .ok () ∧ next () = .ok result := by
  rw [bind_eq_ok_iff]
  exact ⟨fun ⟨_, hfirst, hnext⟩ => ⟨hfirst, hnext⟩, fun ⟨hfirst, hnext⟩ => ⟨(), hfirst, hnext⟩⟩

theorem pure_eq_ok_iff {value result : α} :
    (pure value : Except ε α) = .ok result ↔ value = result := by
  simp [pure, Except.pure]

theorem exists_bind_eq_ok_iff {call : Except ε α} {next : α → Except ε β} :
    (∃ result, (call >>= next) = .ok result) ↔
      ∃ value, call = .ok value ∧ ∃ result, next value = .ok result := by
  simp only [bind_eq_ok_iff]
  constructor
  · rintro ⟨result, value, hcall, hnext⟩
    exact ⟨value, hcall, result, hnext⟩
  · rintro ⟨value, hcall, result, hnext⟩
    exact ⟨result, value, hcall, hnext⟩

theorem map_eq_ok_iff {change : α → β} {call : Except ε α} {result : β} :
    call.map change = .ok result ↔ ∃ value, call = .ok value ∧ change value = result := by
  cases call <;> simp [Except.map]

theorem mapError_eq_ok_iff {rewrite : ε → ε'} {call : Except ε α} {result : α} :
    call.mapError rewrite = .ok result ↔ call = .ok result := by
  cases call <;> simp [Except.mapError]

theorem ite_eq_ok_iff {condition : Prop} [Decidable condition] {call : Except ε α} {value result : α} :
    (if condition then call else .ok value) = .ok result ↔
      (condition ∧ call = .ok result) ∨ (¬ condition ∧ value = result) := by
  by_cases hcondition : condition <;> simp [hcondition]

theorem ite_error_eq_ok_iff {condition : Prop} [Decidable condition] {err : ε} {call : Except ε α}
    {result : α} :
    (if condition then .error err else call) = .ok result ↔ ¬ condition ∧ call = .ok result := by
  by_cases hcondition : condition <;> simp [hcondition]

def ensure (condition : Prop) [Decidable condition] (err : ε) : Except ε Unit :=
  if condition then .ok () else .error err

theorem ensure_eq_ok_iff {condition : Prop} [Decidable condition] {err : ε} {result : Unit} :
    ensure condition err = .ok result ↔ condition := by
  unfold ensure
  by_cases hcondition : condition <;> simp [hcondition]

def FailsWith (kind : ε → Prop) (call : Except ε α) : Prop := ∀ err, call = .error err → kind err

section FailsWith

variable {kind : ε → Prop} {kind' : ε' → Prop} {call : Except ε α}

theorem FailsWith.ok (value : α) : FailsWith kind (.ok value : Except ε α) := nofun

theorem FailsWith.of_exists_ok (hok : ∃ result, call = .ok result) : FailsWith kind call := by
  obtain ⟨result, rfl⟩ := hok
  exact .ok result

theorem FailsWith.bind {next : α → Except ε β} (hcall : FailsWith kind call)
    (hnext : ∀ value, call = .ok value → FailsWith kind (next value)) : FailsWith kind (call >>= next) := by
  cases call with
  | error err =>
    intro other hother
    cases hother
    exact hcall err rfl
  | ok value => exact hnext value rfl

theorem FailsWith.mapError {rewrite : ε → ε'} (hcall : FailsWith kind call)
    (hrewrite : ∀ err, kind err → kind' (rewrite err)) : FailsWith kind' (call.mapError rewrite) := by
  cases call with
  | error err =>
    intro other hother
    cases hother
    exact hrewrite err (hcall err rfl)
  | ok value => exact .ok value

theorem FailsWith.ite {condition : Prop} [Decidable condition] {other : Except ε α}
    (hcall : condition → FailsWith kind call) (hother : ¬ condition → FailsWith kind other) :
    FailsWith kind (if condition then call else other) := by
  by_cases hcondition : condition
  · rw [if_pos hcondition]
    exact hcall hcondition
  · rw [if_neg hcondition]
    exact hother hcondition

end FailsWith

theorem toOption_eq_some_iff {call : Except ε α} {result : α} :
    call.toOption = some result ↔ call = .ok result := by
  cases call <;> simp [Except.toOption]

theorem exists_eq_ok_of_isSome {call : Except ε α} (hsome : call.toOption.isSome = true) :
    ∃ result, call = .ok result := by
  cases call with
  | error err => simp [Except.toOption] at hsome
  | ok result => exact ⟨result, rfl⟩

def run (exec : α → β → Except ε α) : α → List β → Except ε α
  | state, [] => .ok state
  | state, call :: calls => exec state call >>= fun state => run exec state calls

theorem run_invariant {exec : α → β → Except ε α} {allowed : β → Prop} {invariant : α → Prop}
    (hstep : ∀ {state call state'}, allowed call → invariant state →
      exec state call = .ok state' → invariant state')
    {calls : List β} (hallowed : ∀ call ∈ calls, allowed call) {state state' : α}
    (hstart : invariant state) (hrun : run exec state calls = .ok state') : invariant state' := by
  induction calls generalizing state with
  | nil =>
    simp only [run, Except.ok.injEq] at hrun
    exact hrun ▸ hstart
  | cons call calls ih =>
    rw [run, bind_eq_ok_iff] at hrun
    obtain ⟨middle, hcall, hrest⟩ := hrun
    have hmiddle := hstep (hallowed call List.mem_cons_self) hstart hcall
    exact ih (fun other hother => hallowed other (List.mem_cons_of_mem call hother)) hmiddle hrest

end CosmosEvm.Result
