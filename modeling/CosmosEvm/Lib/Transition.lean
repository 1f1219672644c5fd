import Mathlib.Order.WellFounded

/-!
# Transition systems

Runs of a step relation that need not be deterministic: goroutines, and whatever schedules them.
-/

namespace CosmosEvm.Transition

open Relation

variable {σ : Type} {step : σ → σ → Prop}

def Stuck (step : σ → σ → Prop) (s : σ) : Prop := ∀ t, ¬ step s t

def Ends (step : σ → σ → Prop) (s : σ) : Prop := Acc (fun t s => step s t) s

theorem invariant (inv : σ → Prop) (hstep : ∀ s t, inv s → step s t → inv t) {s t : σ}
    (hrun : ReflTransGen step s t) (hinv : inv s) : inv t := by
  induction hrun with
  | refl => exact hinv
  | tail _ hlast ih => exact hstep _ _ ih hlast

theorem ends_of_measure (measure : σ → ℕ) (hstep : ∀ s t, step s t → measure t < measure s) (s : σ) :
    Ends step s := by
  induction hmeasure : measure s using Nat.strongRecOn generalizing s with
  | ind m ih => exact Acc.intro s fun t ht => ih (measure t) (hmeasure ▸ hstep s t ht) t rfl

theorem exists_stuck {s : σ} (hends : Ends step s) : ∃ t, ReflTransGen step s t ∧ Stuck step t := by
  induction hends with
  | intro s _ ih =>
    by_cases hstuck : Stuck step s
    · exact ⟨s, .refl, hstuck⟩
    · obtain ⟨t, ht⟩ := not_forall_not.mp hstuck
      obtain ⟨u, hrun, hu⟩ := ih t ht
      exact ⟨u, .head ht hrun, hu⟩

end CosmosEvm.Transition
