import CosmosEvm.Statedb.Revert
import Mathlib.Data.Nat.Count

namespace CosmosEvm.Statedb

open UndoLog

variable {σ : Type} {env : Env σ} {s s' : StateDB σ}

theorem revertToSnapshot_counter {revid : ℕ} (hrevert : s.revertToSnapshot env revid = some s') :
    s'.precompileCallsCounter = s.precompileCallsCounter := by
  obtain ⟨revision, t, -, -, hundo, rfl⟩ := revertToSnapshot_cases hrevert
  have hstep : ∀ {entry : JournalEntry} {t t' : StateDB σ}, True →
      t.precompileCallsCounter = s.precompileCallsCounter →
        StateDB.undoEntry env entry t = some t' →
          t'.precompileCallsCounter = s.precompileCallsCounter := by
    intro entry t t' _ hsame hundo
    obtain ⟨reverted, hrevert, rfl⟩ := Option.map_eq_some_iff.mp hundo
    rw [(reverted_of_revert hrevert).frame]
    exact hsame
  have hundone := undoAll_invariant hstep (fun _ _ => trivial) rfl hundo
  exact hundone

def Op.isPrecompileCall : Op σ → Bool
  | .precompileCall _ => true
  | _ => false

def precompileCalls (ops : List (Op σ)) : ℕ := ops.countP Op.isPrecompileCall

/-- How many of the calls `AddPrecompileFn` lets through, on the way of a run. -/
def StateDB.acceptedCalls (env : Env σ) (s : StateDB σ) : List (Op σ) → ℕ
  | [] => 0
  | op :: ops =>
    let accepted := op.isPrecompileCall && s.recordPrecompileCall.1.isNone
    (match s.exec env op with
      | none => 0
      | some s => acceptedCalls env s ops) + if accepted then 1 else 0

theorem precompileCall_counter {body : List (CacheOp σ)} (hcall : s.precompileCall body = some s') :
    s'.precompileCallsCounter = s.precompileCallsCounter + 1 := by
  have hrecorded : s.recordPrecompileCall.2.precompileCallsCounter = s.precompileCallsCounter + 1 := by
    unfold StateDB.recordPrecompileCall StateDB.addPrecompileFn
    simp only
    split <;> rfl
  unfold StateDB.precompileCall at hcall
  rcases hrecord : s.recordPrecompileCall with ⟨err, recorded⟩
  rw [hrecord] at hrecorded hcall
  cases err with
  | some err =>
    cases hcall
    exact hrecorded
  | none =>
    obtain ⟨cache, _, rfl⟩ := Option.map_eq_some_iff.mp hcall
    exact hrecorded

theorem exec_counter {op : Op σ} (hexec : s.exec env op = some s') :
    s'.precompileCallsCounter =
      if op.isPrecompileCall then s.precompileCallsCounter + 1 else s.precompileCallsCounter := by
  have hdestructs : op.Destructs → s'.precompileCallsCounter = s.precompileCallsCounter := by
    intro hdestructs
    rcases destructs_cases hdestructs hexec with hmoves | ⟨middle, addr, obj, hmoves, _, rfl⟩
    · exact hmoves.sameTx.counter_eq
    · exact hmoves.sameTx.counter_eq
  cases op with
  | precompileCall body => exact precompileCall_counter hexec
  | revertToSnapshot revid => exact revertToSnapshot_counter hexec
  | snapshot =>
    cases hexec
    rfl
  | selfDestruct _ | selfDestruct6780 _ => exact hdestructs trivial
  | _ =>
    refine SameTx.counter_eq (moves_of_exec ?_ hexec).sameTx
    trivial

theorem recordPrecompileCall_isNone (s : StateDB σ) :
    s.recordPrecompileCall.1.isNone ↔ (s.precompileCallsCounter.toNat + 1) % 256 ≤ 7 := by
  have hcounter : (s.precompileCallsCounter + 1).toNat = (s.precompileCallsCounter.toNat + 1) % 256 := by
    rw [UInt8.toNat_add]
    rfl
  have hlimit : StateDB.maxPrecompileCalls.toNat = 7 := rfl
  unfold StateDB.recordPrecompileCall StateDB.addPrecompileFn
  simp only
  split
  · rename_i hreached
    have hlt := UInt8.lt_iff_toNat_lt.mp hreached
    change _ < (s.precompileCallsCounter + 1).toNat at hlt
    simp
    omega
  · rename_i hwithin
    have hle := mt UInt8.lt_iff_toNat_lt.mpr hwithin
    change ¬ _ < (s.precompileCallsCounter + 1).toNat at hle
    simp
    omega

theorem acceptedCalls_eq {ops : List (Op σ)} (hrun : s.run env ops = some s') :
    s.acceptedCalls env ops =
      Nat.count (fun i => (s.precompileCallsCounter.toNat + 1 + i) % 256 ≤ 7) (precompileCalls ops) := by
  induction ops generalizing s with
  | nil => rfl
  | cons op ops ih =>
    obtain ⟨middle, hexec, hrest⟩ := Option.bind_eq_some_iff.mp hrun
    have hcounter := exec_counter hexec
    simp only [StateDB.acceptedCalls, hexec, ih hrest]
    unfold precompileCalls
    rw [List.countP_cons]
    cases hcall : op.isPrecompileCall with
    | false =>
      rw [hcall] at hcounter
      simp [show middle.precompileCallsCounter = s.precompileCallsCounter from hcounter]
    | true =>
      rw [hcall] at hcounter
      have hnext : middle.precompileCallsCounter.toNat =
          (s.precompileCallsCounter.toNat + 1) % 256 := by
        rw [show middle.precompileCallsCounter = s.precompileCallsCounter + 1 from hcounter,
          UInt8.toNat_add]
        rfl
      have hshift : (fun i => (middle.precompileCallsCounter.toNat + 1 + i) % 256 ≤ 7) =
          fun i => (s.precompileCallsCounter.toNat + 1 + (i + 1)) % 256 ≤ 7 := by
        funext i
        rw [hnext, show (s.precompileCallsCounter.toNat + 1) % 256 + 1 + i =
          (s.precompileCallsCounter.toNat + 1) % 256 + (i + 1) by omega, Nat.mod_add_mod]
      rw [if_pos rfl, Nat.count_succ']
      simp only [Bool.true_and, recordPrecompileCall_isNone, add_zero]
      congr 1
      simp only [hshift]

theorem count_le_limit_iff (n : ℕ) : Nat.count (fun i => (0 + 1 + i) % 256 ≤ 7) n ≤ 7 ↔ n ≤ 255 := by
  have hlast : Nat.count (fun i => (0 + 1 + i) % 256 ≤ 7) 255 = 7 := by decide +kernel
  have hwrapped : Nat.count (fun i => (0 + 1 + i) % 256 ≤ 7) 256 = 8 := by decide +kernel
  constructor
  · intro hle
    by_contra hgt
    have hmono := Nat.count_monotone (fun i => (0 + 1 + i) % 256 ≤ 7) (show 256 ≤ n by omega)
    omega
  · intro hle
    have hmono := Nat.count_monotone (fun i => (0 + 1 + i) % 256 ≤ 7) hle
    omega

theorem Start.counter_eq {ctx : Context σ} (hstart : Start ctx s) : s.precompileCallsCounter = 0 := by
  cases hstart with
  | new txConfig => rfl
  | prepare hprepare =>
    unfold StateDB.prepare at hprepare
    split at hprepare
    · simp at hprepare
    · cases hprepare
      rfl

/-- On a StateDB, whatever is reverted on the way, at most `MaxPrecompileCalls` calls are let through exactly
when no more than 255 are made. -/
theorem acceptedCalls_le_iff {ctx : Context σ} {start : StateDB σ} (hstart : Start ctx start)
    {ops : List (Op σ)} (hrun : start.run env ops = some s) :
    start.acceptedCalls env ops ≤ StateDB.maxPrecompileCalls.toNat ↔ precompileCalls ops ≤ 255 := by
  rw [acceptedCalls_eq hrun, hstart.counter_eq]
  exact count_le_limit_iff _

/-- Nine calls, of which the second is reverted: the last two are rejected. -/
theorem acceptedCalls_le_sample :
    let env := Env.blank ℕ
    let call : Op ℕ := .precompileCall [.write (· + 1)]
    let ops := [call, .snapshot, call, .revertToSnapshot 0] ++ List.replicate 7 call
    let start := new ⟨0, []⟩ ⟨zeroHash, zeroHash, 0, 0⟩
    ∃ s, start.run env ops = some s ∧ start.acceptedCalls env ops ≤ StateDB.maxPrecompileCalls.toNat := by
  intro env call ops start
  have hsome : (start.run env ops).isSome = true := by decide +kernel
  obtain ⟨s, hrun⟩ := Option.isSome_iff_exists.mp hsome
  exact ⟨s, hrun, (acceptedCalls_le_iff (.new _) hrun).mpr (by decide +kernel)⟩

/-- The byte wraps: the 256th call is let through again. -/
theorem acceptedCalls_wraps :
    let env := Env.blank ℕ
    let ops : List (Op ℕ) := List.replicate 256 (.precompileCall [])
    let start := new ⟨0, []⟩ ⟨zeroHash, zeroHash, 0, 0⟩
    (start.run env ops).isSome ∧ start.acceptedCalls env ops = 8 ∧
      ¬ start.acceptedCalls env ops ≤ StateDB.maxPrecompileCalls.toNat := by
  decide +kernel

end CosmosEvm.Statedb
