import Mathlib.Order.Basic

/-!
# Loops

A loop takes one step after another until a step gives a result. It is run with a number of steps, so that a
loop that never ends has no result for any number.
-/

namespace CosmosEvm.Loop

variable {σ α : Type} {step : σ → α ⊕ σ}

def run (step : σ → α ⊕ σ) : ℕ → σ → Option α
  | 0, _ => none
  | n + 1, s =>
    match step s with
    | .inl result => some result
    | .inr next => run step n next

theorem run_succ_of_inl {s : σ} {result : α} (hstep : step s = .inl result) (n : ℕ) :
    run step (n + 1) s = some result := by
  rw [run, hstep]

theorem run_succ_of_inr {s next : σ} (hstep : step s = .inr next) (n : ℕ) :
    run step (n + 1) s = run step n next := by
  rw [run, hstep]

theorem of_run_eq_some (inv : σ → Prop) (post : α → Prop)
    (hkept : ∀ s next, inv s → step s = .inr next → inv next)
    (hends : ∀ s result, inv s → step s = .inl result → post result) {n : ℕ} {s : σ} {result : α}
    (hinv : inv s) (hrun : run step n s = some result) : post result := by
  induction n generalizing s with
  | zero => exact nomatch hrun
  | succ n ih =>
    cases hstep : step s with
    | inl ended =>
      rw [run_succ_of_inl hstep] at hrun
      obtain rfl := Option.some.inj hrun
      exact hends s ended hinv hstep
    | inr next =>
      rw [run_succ_of_inr hstep] at hrun
      exact ih (hkept s next hinv hstep) hrun

theorem exists_run_eq_some (inv : σ → Prop) (post : α → Prop) (measure : σ → ℕ)
    (hstep : ∀ s, inv s → (∃ result, step s = .inl result ∧ post result) ∨
      ∃ next, step s = .inr next ∧ inv next ∧ measure next < measure s) {s : σ} (hinv : inv s) :
    ∃ n result, run step n s = some result ∧ post result := by
  induction hmeasure : measure s using Nat.strongRecOn generalizing s with
  | ind m ih =>
    rcases hstep s hinv with ⟨result, hends, hpost⟩ | ⟨next, hnext, hinv', hlt⟩
    · exact ⟨1, result, run_succ_of_inl hends 0, hpost⟩
    · obtain ⟨n, result, hrun, hpost⟩ := ih (measure next) (hmeasure ▸ hlt) hinv' rfl
      exact ⟨n + 1, result, by rw [run_succ_of_inr hnext, hrun], hpost⟩

theorem run_eq_none (inv : σ → Prop) (hstep : ∀ s, inv s → ∃ next, step s = .inr next ∧ inv next) {s : σ}
    (hinv : inv s) (n : ℕ) : run step n s = none := by
  induction n generalizing s with
  | zero => rfl
  | succ n ih =>
    obtain ⟨next, hnext, hinv'⟩ := hstep s hinv
    rw [run_succ_of_inr hnext, ih hinv']

end CosmosEvm.Loop
