import Mathlib.Data.List.Basic

/-!
# Undo logs

A state changes step by step, and each step logs an entry that takes it back.
-/

namespace CosmosEvm.UndoLog

variable {State Entry : Type}

def undoAll (undo : Entry → State → Option State) : List Entry → State → Option State
  | [], s => some s
  | entry :: entries, s => (undoAll undo entries s).bind (undo entry)

inductive History (undo : Entry → State → Option State) (Good : State → Prop) (start : State) :
    List Entry → State → Prop where
  | nil : Good start → History undo Good start [] start
  | snoc {entries : List Entry} {s s' : State} {entry : Entry} :
      History undo Good start entries s → undo entry s' = some s → Good s' →
        History undo Good start (entries ++ [entry]) s'

variable {undo : Entry → State → Option State} {Good : State → Prop} {start s s' : State}
  {entries later : List Entry} {entry : Entry}

theorem undoAll_append_singleton :
    undoAll undo (entries ++ [entry]) s = (undo entry s).bind (undoAll undo entries) := by
  induction entries with
  | nil => simp [undoAll]
  | cons first entries ih => simp [undoAll, ih, Option.bind_assoc]

theorem undoAll_invariant {invariant : State → Prop} {allowed : Entry → Prop}
    (hstep : ∀ {entry s s'}, allowed entry → invariant s → undo entry s = some s' → invariant s')
    (hallowed : ∀ entry ∈ entries, allowed entry) (hstart : invariant s)
    (hundo : undoAll undo entries s = some s') : invariant s' := by
  induction entries generalizing s' with
  | nil =>
    cases hundo
    exact hstart
  | cons entry entries ih =>
    obtain ⟨middle, hlater, hentry⟩ := Option.bind_eq_some_iff.mp hundo
    have hmiddle := ih (fun other hother => hallowed other (List.mem_cons_of_mem entry hother)) hlater
    exact hstep (hallowed entry List.mem_cons_self) hmiddle hentry

theorem History.good (hhistory : History undo Good start entries s) : Good s := by
  cases hhistory with
  | nil hgood => exact hgood
  | snoc _ _ hgood => exact hgood

theorem History.single (hgood : Good s) (hundo : undo entry s' = some s) (hgood' : Good s') :
    History undo Good s [entry] s' :=
  .snoc (.nil hgood) hundo hgood'

theorem History.trans {middle : State} (hfirst : History undo Good start entries middle)
    (hsecond : History undo Good middle later s) : History undo Good start (entries ++ later) s := by
  induction hsecond with
  | nil _ => simpa using hfirst
  | snoc _ hundo hgood ih =>
    rw [← List.append_assoc]
    exact .snoc ih hundo hgood

theorem History.split (hhistory : History undo Good start (entries ++ later) s) :
    ∃ middle, History undo Good start entries middle ∧ History undo Good middle later s := by
  generalize hall : entries ++ later = all at hhistory
  induction hhistory generalizing later with
  | nil hgood =>
    obtain ⟨rfl, rfl⟩ := List.append_eq_nil_iff.mp hall
    exact ⟨start, .nil hgood, .nil hgood⟩
  | snoc hprev hundo hgood ih =>
    rcases List.eq_nil_or_concat later with rfl | ⟨rest, last, rfl⟩
    · rw [List.append_nil] at hall
      subst hall
      exact ⟨_, .snoc hprev hundo hgood, .nil hgood⟩
    · rw [List.concat_eq_append, ← List.append_assoc] at hall
      obtain ⟨hrest, hlast⟩ := List.append_inj' hall rfl
      cases hlast
      obtain ⟨middle, hbefore, hafter⟩ := ih hrest
      refine ⟨middle, hbefore, ?_⟩
      rw [List.concat_eq_append]
      exact .snoc hafter hundo hgood

theorem History.simulate {Impl : Type} (view : Impl → State) (revert : Entry → Impl → Option Impl)
    (Inv : Impl → Prop) (hstep : ∀ {entry i s}, Inv i → undo entry (view i) = some s → Good s →
      ∃ i', revert entry i = some i' ∧ view i' = s ∧ Inv i')
    (hhistory : History undo Good start entries s) {i : Impl} (hview : view i = s) (hinv : Inv i) :
    ∃ i', undoAll revert entries i = some i' ∧ view i' = start ∧ Inv i' := by
  induction hhistory generalizing i with
  | nil _ => exact ⟨i, rfl, hview, hinv⟩
  | snoc hprev hundo _ ih =>
    subst hview
    obtain ⟨middle, hrevert, hmiddle, hinv'⟩ := hstep hinv hundo hprev.good
    obtain ⟨i', hrest, hstart, hinv''⟩ := ih hmiddle hinv'
    refine ⟨i', ?_, hstart, hinv''⟩
    rw [undoAll_append_singleton, hrevert, Option.bind_some, hrest]

end CosmosEvm.UndoLog
