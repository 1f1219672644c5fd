import CosmosEvm.Lib.Result
import Mathlib.Algebra.BigOperators.Group.List.Basic
import Mathlib.Tactic.Abel

/-!
# Runs of local calls

A call is local when it changes the state at its own place only. Seen from one place, a run of local calls
at different places is the one call made there.
-/

namespace CosmosEvm.Result

variable {ε State Call Place : Type}

structure Local (exec : State → Call → Except ε State) (place : Call → Place)
    (invariant : State → Prop) (ready : State → Call → Prop) (same : State → State → Place → Prop) :
    Prop where
  refl : ∀ state here, same state state here
  trans : ∀ {first second third here}, same first second here → same second third here →
    same first third here
  ready_of_same : ∀ {state state' call}, same state state' (place call) → ready state call →
    ready state' call
  invariant_step : ∀ {state call state'}, invariant state → ready state call →
    exec state call = .ok state' → invariant state'
  same_step : ∀ {state call state'}, invariant state → ready state call →
    exec state call = .ok state' → ∀ other, other ≠ place call → same state state' other

variable {exec : State → Call → Except ε State} {place : Call → Place} {invariant : State → Prop}
  {ready : State → Call → Prop} {same : State → State → Place → Prop}

structure LocalRun (exec : State → Call → Except ε State) (place : Call → Place)
    (invariant : State → Prop) (ready : State → Call → Prop) (same : State → State → Place → Prop)
    (state : State) (calls : List Call) (state' : State) : Prop where
  invariant_end : invariant state'
  same_elsewhere : ∀ other, other ∉ calls.map place → same state state' other
  called : ∀ call ∈ calls, ∃ before after, invariant before ∧ ready before call ∧
    exec before call = .ok after ∧ same state before (place call) ∧ same after state' (place call)

variable {state state' : State} {calls : List Call}

theorem Local.ready_step (hlocal : Local exec place invariant ready same) {call : Call}
    {middle : State} (hnodup : ((call :: calls).map place).Nodup)
    (hready : ∀ other ∈ call :: calls, ready state other) (hinvariant : invariant state)
    (hcall : exec state call = .ok middle) :
    ∀ other ∈ calls, same state middle (place other) ∧ ready middle other := by
  intro other hother
  have hne : place other ≠ place call := fun heq =>
    (List.nodup_cons.mp hnodup).1 (heq ▸ List.mem_map_of_mem hother)
  have hsame := hlocal.same_step hinvariant (hready call List.mem_cons_self) hcall _ hne
  exact ⟨hsame, hlocal.ready_of_same hsame (hready other (List.mem_cons_of_mem call hother))⟩

section

variable (hlocal : Local exec place invariant ready same) (hnodup : (calls.map place).Nodup)
  (hready : ∀ call ∈ calls, ready state call) (hinvariant : invariant state)
  (hrun : Result.run exec state calls = .ok state')

include hlocal hnodup hready hinvariant hrun

theorem Local.run : LocalRun exec place invariant ready same state calls state' := by
  induction calls generalizing state with
  | nil =>
    simp only [Result.run, Except.ok.injEq] at hrun
    subst hrun
    exact ⟨hinvariant, fun other _ => hlocal.refl state other, by simp⟩
  | cons call calls ih =>
    rw [Result.run, bind_eq_ok_iff] at hrun
    obtain ⟨middle, hcall, hrest⟩ := hrun
    have hfirst := hready call List.mem_cons_self
    have hkept := hlocal.ready_step hnodup hready hinvariant hcall
    have hmiddle := ih (List.nodup_cons.mp hnodup).2 (fun other hother => (hkept other hother).2)
      (hlocal.invariant_step hinvariant hfirst hcall) hrest
    refine ⟨hmiddle.invariant_end, fun other hother => ?_, fun other hother => ?_⟩
    · rw [List.map_cons, List.mem_cons, not_or] at hother
      exact hlocal.trans (hlocal.same_step hinvariant hfirst hcall other hother.1)
        (hmiddle.same_elsewhere other hother.2)
    · rcases List.mem_cons.mp hother with rfl | hother
      · exact ⟨state, middle, hinvariant, hfirst, hcall, hlocal.refl _ _,
          hmiddle.same_elsewhere _ (List.nodup_cons.mp hnodup).1⟩
      · obtain ⟨before, after, hbefore, hexec⟩ := hmiddle.called other hother
        exact ⟨before, after, hbefore, hexec.1, hexec.2.1,
          hlocal.trans (hkept other hother).1 hexec.2.2.1, hexec.2.2.2⟩

theorem Local.run_total (total : State → ℤ) (gain : State → Call → ℤ)
    (htotal : ∀ {state call state'}, invariant state → ready state call →
      exec state call = .ok state' → total state' = total state + gain state call)
    (hgain : ∀ {state state' call}, same state state' (place call) →
      gain state' call = gain state call) : total state' = total state + (calls.map (gain state)).sum := by
  induction calls generalizing state with
  | nil =>
    simp only [Result.run, Except.ok.injEq] at hrun
    simp [hrun]
  | cons call calls ih =>
    rw [Result.run, bind_eq_ok_iff] at hrun
    obtain ⟨middle, hcall, hrest⟩ := hrun
    have hfirst := hready call List.mem_cons_self
    have hkept := hlocal.ready_step hnodup hready hinvariant hcall
    have hmiddle := ih (List.nodup_cons.mp hnodup).2 (fun other hother => (hkept other hother).2)
      (hlocal.invariant_step hinvariant hfirst hcall) hrest
    have hgains : calls.map (gain middle) = calls.map (gain state) :=
      List.map_congr_left fun other hother => hgain (hkept other hother).1
    rw [hmiddle, htotal hinvariant hfirst hcall, hgains, List.map_cons, List.sum_cons]
    abel

end

theorem Local.and_step (hlocal : Local exec place invariant ready same)
    {kept : State → State → Prop} (hrefl : ∀ state, kept state state)
    (htrans : ∀ {first second third}, kept first second → kept second third → kept first third)
    (hstep : ∀ {state call state'}, ready state call → exec state call = .ok state' → invariant state →
      kept state state') :
    Local exec place invariant ready fun state state' here => same state state' here ∧ kept state state' where
  refl state here := ⟨hlocal.refl state here, hrefl state⟩
  trans hfirst hsecond := ⟨hlocal.trans hfirst.1 hsecond.1, htrans hfirst.2 hsecond.2⟩
  ready_of_same hsame := hlocal.ready_of_same hsame.1
  invariant_step := hlocal.invariant_step
  same_step hinvariant hready hok other hother :=
    ⟨hlocal.same_step hinvariant hready hok other hother, hstep hready hok hinvariant⟩

theorem exists_run (hcalls : ∀ done call rest middle, calls = done ++ call :: rest →
      Result.run exec state done = .ok middle → ∃ next, exec middle call = .ok next) :
    ∃ state', Result.run exec state calls = .ok state' := by
  induction calls generalizing state with
  | nil => exact ⟨state, rfl⟩
  | cons call calls ih =>
    obtain ⟨middle, hcall⟩ := hcalls [] call calls state rfl rfl
    obtain ⟨state', hrun⟩ := ih fun done other rest last hsplit hdone => by
      refine hcalls (call :: done) other rest last (by rw [hsplit]; rfl) ?_
      rw [Result.run, bind_eq_ok_iff]
      exact ⟨middle, hcall, hdone⟩
    refine ⟨state', ?_⟩
    rw [Result.run, bind_eq_ok_iff]
    exact ⟨middle, hcall, hrun⟩

theorem Local.exists_run (hlocal : Local exec place invariant ready same)
    (hnodup : (calls.map place).Nodup) (hready : ∀ call ∈ calls, ready state call)
    (hinvariant : invariant state)
    (hcalls : ∀ done call rest middle, calls = done ++ call :: rest →
      Result.run exec state done = .ok middle → ready middle call → ∃ next, exec middle call = .ok next) :
    ∃ state', Result.run exec state calls = .ok state' := by
  refine Result.exists_run fun done call rest middle hsplit hdone => ?_
  refine hcalls done call rest middle hsplit hdone ?_
  subst hsplit
  rw [List.map_append, List.nodup_append] at hnodup
  have hbefore := hlocal.run hnodup.1 (fun other hother => hready other (List.mem_append_left _ hother))
    hinvariant hdone
  have hfresh : place call ∉ done.map place := fun hmem =>
    hnodup.2.2 _ hmem _ List.mem_cons_self rfl
  exact hlocal.ready_of_same (hbefore.same_elsewhere _ hfresh)
    (hready call (List.mem_append_right done List.mem_cons_self))

end CosmosEvm.Result
