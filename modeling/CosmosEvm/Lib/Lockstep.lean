import Mathlib.Data.List.Basic

/-!
# Two machines in lockstep

Each machine takes the same calls in its own state. A call that fails leaves the state as it was.
-/

namespace CosmosEvm.Lockstep

variable {α σ τ ε ε' : Type*}

structure Agree (related : σ → τ → Prop) (left : Except ε σ) (right : Except ε' τ) : Prop where
  ok_iff : (∃ s, left = .ok s) ↔ ∃ t, right = .ok t
  related : ∀ {s t}, left = .ok s → right = .ok t → related s t

def attempt (exec : σ → α → Except ε σ) (s : σ) (call : α) : σ × Bool :=
  match exec s call with
  | .ok s' => (s', true)
  | .error _ => (s, false)

def attempts (exec : σ → α → Except ε σ) (s : σ) : List α → σ × List Bool
  | [] => (s, [])
  | call :: calls =>
    let (s, outcome) := attempt exec s call
    let (s, outcomes) := attempts exec s calls
    (s, outcome :: outcomes)

variable {exec : σ → α → Except ε σ} {exec' : τ → α → Except ε' τ} {related : σ → τ → Prop}

theorem attempt_agree {s : σ} {t : τ} {call : α} (hrelated : related s t)
    (hagree : Agree related (exec s call) (exec' t call)) :
    related (attempt exec s call).1 (attempt exec' t call).1 ∧
      (attempt exec s call).2 = (attempt exec' t call).2 := by
  unfold attempt
  cases hleft : exec s call with
  | ok s' =>
    obtain ⟨t', hright⟩ := hagree.ok_iff.mp ⟨s', hleft⟩
    rw [hright]
    exact ⟨hagree.related hleft hright, rfl⟩
  | error err =>
    cases hright : exec' t call with
    | ok t' =>
      obtain ⟨s', hok⟩ := hagree.ok_iff.mpr ⟨t', hright⟩
      rw [hleft] at hok
      cases hok
    | error err' => exact ⟨hrelated, rfl⟩

theorem attempts_agree {admitted : α → Prop}
    (hagree : ∀ {s t call}, admitted call → related s t → Agree related (exec s call) (exec' t call))
    {calls : List α} (hcalls : ∀ call ∈ calls, admitted call) {s : σ} {t : τ} (hrelated : related s t) :
    related (attempts exec s calls).1 (attempts exec' t calls).1 ∧
      (attempts exec s calls).2 = (attempts exec' t calls).2 := by
  induction calls generalizing s t with
  | nil => exact ⟨hrelated, rfl⟩
  | cons call calls ih =>
    obtain ⟨hstep, houtcome⟩ :=
      attempt_agree hrelated (hagree (hcalls call (List.mem_cons_self ..)) hrelated)
    obtain ⟨hrest, houtcomes⟩ := ih (fun other hother => hcalls other (List.mem_cons_of_mem _ hother)) hstep
    exact ⟨hrest, congrArg₂ List.cons houtcome houtcomes⟩

end CosmosEvm.Lockstep
