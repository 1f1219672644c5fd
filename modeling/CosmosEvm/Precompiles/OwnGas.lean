import CosmosEvm.Precompiles.Gas
import Mathlib.Algebra.Order.BigOperators.Group.List

namespace CosmosEvm.Precompiles

def Succeeds (result : Except GasPanic Outcome) : Prop := ∃ outcome, result = .ok outcome ∧ outcome.err = none

def chargedGas (call : Call) : Except GasPanic Outcome → ℕ
  | .ok outcome => call.gas.toNat - outcome.gas
  | .error _ => 0

namespace Call

def storeWork (call : Call) : ℕ := call.charges.sum

def fresh (call : Call) : Call := { call with initialGas := 0 }

structure Clean (p : Precompile) (call : Call) : Prop where
  value : (p.refusesValue && decide (0 < call.value)) = false
  setup : call.setupError = none
  method : call.methodError = none
  balance : call.balanceError = none

structure OwnGas (p : Precompile) (call : Call) : Prop where
  succeeds_fresh : Succeeds (runPrecompile p call) ↔ Succeeds (runPrecompile p call.fresh)
  charged_fresh : chargedGas call (runPrecompile p call) = chargedGas call.fresh (runPrecompile p call.fresh)
  succeeds_iff : Succeeds (runPrecompile p call) ↔ call.storeWork ≤ call.gas.toNat
  charged_eq : Succeeds (runPrecompile p call) → chargedGas call (runPrecompile p call) = call.storeWork

/-- The gas consumed before makes no difference: it fits beside the work, or the gas does not cover the work
anyway and no charge that the contract could pay is the one that fails. -/
def Unaffected (call : Call) : Prop :=
  (call.storeWork ≤ call.gas.toNat → call.initialGas.toNat + call.storeWork ≤ call.gas.toNat) ∧
  (call.gas.toNat < call.storeWork → call.initialGas.toNat ≤ call.gas.toNat →
    ∀ n, (call.charges.take n).sum ≤ call.gas.toNat →
      call.initialGas.toNat + (call.charges.take n).sum < 2 ^ 64 →
        call.initialGas.toNat + (call.charges.take n).sum ≤ call.gas.toNat)

end Call

/-- By induction on the charges, the first that does not fit ends the run. -/
theorem consumeAll_cases {limit consumed : ℕ} (hwithin : consumed ≤ limit) (hlimit : limit < 2 ^ 64)
    (last : ℕ) (charges : List ℕ) :
    let charged := consumeAll ⟨limit, consumed, false⟩ last charges
    (consumed + charges.sum ≤ limit ∧ charged.panic = none ∧
        charged.meter.consumed = consumed + charges.sum) ∨
      ∃ n, limit < consumed + (charges.take n).sum ∧
        (∀ m < n, consumed + (charges.take m).sum ≤ limit) ∧
        (consumed + (charges.take n).sum < 2 ^ 64 ∧ charged.panic = some .outOfGas ∧
            charged.meter.consumed = consumed + (charges.take n).sum ∨
          2 ^ 64 ≤ consumed + (charges.take n).sum ∧ charged.panic = some .gasOverflow) := by
  induction charges generalizing consumed last with
  | nil => exact .inl ⟨hwithin, rfl, rfl⟩
  | cons charge charges ih =>
    by_cases hfits : consumed + charge ≤ limit
    · have hcharge : (GasMeter.mk limit consumed false).consumeGas charge =
          (⟨limit, consumed + charge, false⟩, none) := by
        unfold GasMeter.consumeGas
        rw [if_neg (by simp only; omega), if_neg (by simp only; omega)]
        rfl
      simp only [consumeAll, hcharge, List.sum_cons]
      rcases ih hfits charge with ⟨hsum, hpanic, hconsumed⟩ | ⟨n, hover, hbefore, hends⟩
      · exact .inl ⟨by omega, hpanic, by rw [hconsumed, Nat.add_assoc]⟩
      · refine .inr ⟨n + 1, ?_, ?_, ?_⟩
        · rw [List.take_succ_cons, List.sum_cons]
          omega
        · intro m hm
          cases m with
          | zero => simpa using hwithin
          | succ m =>
            have hm' := hbefore m (by omega)
            rw [List.take_succ_cons, List.sum_cons]
            omega
        · rw [List.take_succ_cons, List.sum_cons, ← Nat.add_assoc]
          exact hends
    · -- the charge at hand is the one that does not fit
      refine .inr ⟨1, ?_, ?_, ?_⟩
      · simpa using hfits
      · intro m hm
        obtain rfl : m = 0 := by omega
        simpa using hwithin
      · have htake : ((charge :: charges).take 1).sum = charge := by simp
        rw [htake]
        by_cases hoverflow : 2 ^ 64 ≤ consumed + charge
        · refine .inr ⟨hoverflow, ?_⟩
          simp only [consumeAll, GasMeter.consumeGas, if_pos hoverflow]
        · refine .inl ⟨by omega, ?_⟩
          simp only [consumeAll, GasMeter.consumeGas, GasMeter.charge, if_neg hoverflow, true_and,
            if_pos (Nat.lt_of_not_le hfits), and_self]

section Clean

variable {p : Precompile} {call : Call}

theorem succeeds_runPrecompile_iff :
    Succeeds (runPrecompile p call) ↔ Succeeds (run p call) := by
  unfold Succeeds runPrecompile
  cases run p call with
  | error panic => simp [Except.map]
  | ok outcome =>
    by_cases hreverts : p.returnsRevertError = true
    · cases herr : outcome.err <;> simp [Except.map, Outcome.seenBy, hreverts, herr]
    · simp [Except.map, Outcome.seenBy, hreverts]

theorem chargedGas_runPrecompile : chargedGas call (runPrecompile p call) = chargedGas call (run p call) := by
  unfold runPrecompile
  cases run p call with
  | error panic => rfl
  | ok outcome =>
    by_cases hreverts : p.returnsRevertError = true
    · simp [Except.map, Outcome.seenBy, hreverts, chargedGas]
    · simp [Except.map, Outcome.seenBy, hreverts]

theorem run_of_clean (hclean : call.Clean p) :
    run p call = if call.initialGas.toNat ≤ call.gas.toNat then
      match call.charged.panic with
      | some panic => handleGasError call call.charged panic
      | none => .ok (chargeContract p call call.charged)
    else .ok ⟨some .outOfGas, call.gas.toNat, 0, 0⟩ := by
  have hinitial := call.initialGas.toNat_lt
  unfold run
  rw [if_neg (by rw [hclean.value]; decide), hclean.setup, hclean.method]
  dsimp only
  split_ifs with hfits
  · have hcharge : (GasMeter.mk call.gas.toNat 0 false).consumeGas call.initialGas.toNat =
        (⟨call.gas.toNat, call.initialGas.toNat, false⟩, none) := by
      unfold GasMeter.consumeGas GasMeter.charge
      simp only [Nat.zero_add]
      rw [if_neg (by omega), if_neg (by omega)]
    rw [hcharge]
    dsimp only
    unfold Call.charged
    split <;> simp_all
  · have hcharge : (GasMeter.mk call.gas.toNat 0 false).consumeGas call.initialGas.toNat =
        (⟨call.gas.toNat, call.initialGas.toNat, false⟩, some .outOfGas) := by
      unfold GasMeter.consumeGas GasMeter.charge
      simp only [Nat.zero_add]
      rw [if_neg (by omega), if_pos ⟨trivial, by omega⟩]
    rw [hcharge]
    simp [handleGasError, Charged.work, useGas]

/-- The gas covers the work, or the charges stop at the first one that it does not cover. -/
theorem clean_cases (hclean : call.Clean p) :
    (call.initialGas.toNat + call.storeWork ≤ call.gas.toNat ∧ Succeeds (runPrecompile p call) ∧
        chargedGas call (runPrecompile p call) = call.storeWork) ∨
      (call.gas.toNat < call.initialGas.toNat + call.storeWork ∧ ¬ Succeeds (runPrecompile p call) ∧
        (call.gas.toNat < call.initialGas.toNat ∧ chargedGas call (runPrecompile p call) = 0 ∨
          ∃ n, call.initialGas.toNat ≤ call.gas.toNat ∧
            call.gas.toNat < call.initialGas.toNat + (call.charges.take n).sum ∧
            (∀ m < n, call.initialGas.toNat + (call.charges.take m).sum ≤ call.gas.toNat) ∧
            chargedGas call (runPrecompile p call) = if (call.charges.take n).sum ≤ call.gas.toNat ∧
                call.initialGas.toNat + (call.charges.take n).sum < 2 ^ 64 then
              (call.charges.take n).sum else 0)) := by
  rw [succeeds_runPrecompile_iff, chargedGas_runPrecompile, run_of_clean hclean]
  by_cases hfits : call.initialGas.toNat ≤ call.gas.toNat
  swap
  · rw [if_neg hfits]
    refine .inr ⟨by omega, ?_, .inl ⟨Nat.lt_of_not_le hfits, Nat.sub_self _⟩⟩
    rintro ⟨outcome, hok, hnone⟩
    cases hok
    cases hnone
  rw [if_pos hfits]
  rcases consumeAll_cases hfits call.gas.toNat_lt 0 call.charges with
    ⟨hsum, hpanic, hconsumed⟩ | ⟨n, hover, hbefore, hends⟩
  · have hwork : call.charged.work call = call.storeWork := by
      unfold Charged.work Call.charged Call.storeWork
      rw [hconsumed, Nat.add_sub_cancel_left]
    have hcovered : call.storeWork ≤ call.gas.toNat := Nat.le_of_add_left_le hsum
    have hcharge : chargeContract p call call.charged =
        ⟨none, call.gas.toNat - call.storeWork, call.storeWork, call.charged.last⟩ := by
      unfold chargeContract useGas
      simp only [hwork, if_neg (Nat.not_lt.mpr hcovered), hclean.balance, ite_self, Option.map_none]
    have hnone : call.charged.panic = none := hpanic
    rw [hnone, hcharge]
    refine .inl ⟨hsum, ⟨_, rfl, rfl⟩, ?_⟩
    exact Nat.sub_sub_self hcovered
  · have hle : (call.charges.take n).sum ≤ call.storeWork :=
      (List.take_sublist n call.charges).sum_le_sum fun _ _ => Nat.zero_le _
    refine .inr ⟨by omega, ?_⟩
    rcases hends with ⟨hlt, hpanic, hconsumed⟩ | ⟨hoverflow, hpanic⟩
    · have hpanic' : call.charged.panic = some .outOfGas := hpanic
      have hwork : call.charged.work call = (call.charges.take n).sum := by
        unfold Charged.work Call.charged
        rw [hconsumed, Nat.add_sub_cancel_left]
      rw [hpanic']
      refine ⟨?_, .inr ⟨n, hfits, hover, hbefore, ?_⟩⟩
      · rintro ⟨outcome, hok, hnone⟩
        cases hok
        cases hnone
      · simp only [handleGasError, chargedGas, hwork, useGas]
        by_cases hpays : (call.charges.take n).sum ≤ call.gas.toNat
        · rw [if_neg (Nat.not_lt.mpr hpays), if_pos ⟨hpays, hlt⟩]
          exact Nat.sub_sub_self hpays
        · rw [if_pos (Nat.lt_of_not_le hpays), if_neg fun h => hpays h.1]
          exact Nat.sub_self _
    · have hpanic' : call.charged.panic = some .gasOverflow := hpanic
      rw [hpanic']
      refine ⟨?_, .inr ⟨n, hfits, hover, hbefore, ?_⟩⟩
      · rintro ⟨outcome, hok, -⟩
        cases hok
      · rw [if_neg fun h => absurd h.2 (Nat.not_lt.mpr hoverflow)]
        rfl

theorem Call.Clean.fresh (hclean : call.Clean p) : call.fresh.Clean p :=
  ⟨hclean.value, hclean.setup, hclean.method, hclean.balance⟩

theorem fresh_cases (hclean : call.Clean p) :
    (call.storeWork ≤ call.gas.toNat ∧ Succeeds (runPrecompile p call.fresh) ∧
        chargedGas call.fresh (runPrecompile p call.fresh) = call.storeWork) ∨
      (call.gas.toNat < call.storeWork ∧ ¬ Succeeds (runPrecompile p call.fresh) ∧
        chargedGas call.fresh (runPrecompile p call.fresh) = 0) := by
  have hzero : call.fresh.initialGas.toNat = 0 := rfl
  have hgas : call.fresh.gas = call.gas := rfl
  have hcharges : call.fresh.charges = call.charges := rfl
  have hwork : call.fresh.storeWork = call.storeWork := rfl
  rcases clean_cases hclean.fresh with ⟨hle, hsucceeds, hcharged⟩ | ⟨hlt, hfails, hends⟩
  · rw [hzero, Nat.zero_add, hwork, hgas] at hle
    exact .inl ⟨hle, hsucceeds, hcharged.trans hwork⟩
  · rw [hzero, Nat.zero_add, hwork, hgas] at hlt
    refine .inr ⟨hlt, hfails, ?_⟩
    rcases hends with ⟨habs, -⟩ | ⟨n, -, hover, -, hcharged⟩
    · rw [hzero] at habs
      exact absurd habs (Nat.not_lt_zero _)
    · rw [hzero, Nat.zero_add, hgas, hcharges] at hover
      rw [hgas, hcharges] at hcharged
      rw [hcharged, if_neg fun h => absurd h.1 (Nat.not_le.mpr hover)]

/-- A run depends on its own gas only exactly where the gas consumed before makes no difference. -/
theorem ownGas_iff_unaffected (hclean : call.Clean p) : call.OwnGas p ↔ call.Unaffected := by
  have hfresh := fresh_cases hclean
  have hcases := clean_cases hclean
  constructor
  · intro hown
    refine ⟨fun hcovered => ?_, fun hshort hinitial n hpays hlt => ?_⟩
    · rcases hcases with ⟨hle, -⟩ | ⟨-, hfails, -⟩
      · exact hle
      · exact absurd (hown.succeeds_iff.mpr hcovered) hfails
    · by_contra hover
      rcases hcases with ⟨hle, -⟩ | ⟨-, -, ⟨habs, -⟩ | ⟨m, -, hfirst, hbefore, hcharged⟩⟩
      · omega
      · omega
      · -- the first charge that fails is no later, so that the contract pays for it
        have hmn : m ≤ n := Nat.le_of_not_lt fun hlt => hover (hbefore n hlt)
        have hsum : (call.charges.take m).sum ≤ (call.charges.take n).sum :=
          (List.take_sublist_take_left hmn).sum_le_sum fun _ _ => Nat.zero_le _
        have hnothing : chargedGas call (runPrecompile p call) = 0 := by
          rcases hfresh with ⟨hle, -⟩ | ⟨-, -, hzero⟩
          · omega
          · rw [hown.charged_fresh, hzero]
        rw [hcharged, if_pos ⟨by omega, by omega⟩] at hnothing
        omega
  · rintro ⟨hcovered, hshort⟩
    rcases hfresh with ⟨hle, hsucceeds, hfreshCharged⟩ | ⟨hlt, hfails, hfreshCharged⟩
    · rcases hcases with ⟨-, hrun, hcharged⟩ | ⟨hover, -⟩
      · exact ⟨iff_of_true hrun hsucceeds, hcharged.trans hfreshCharged.symm, iff_of_true hrun hle,
          fun _ => hcharged⟩
      · have := hcovered hle
        omega
    · rcases hcases with ⟨hle, -⟩ | ⟨-, hrun, hends⟩
      · omega
      · have hnothing : chargedGas call (runPrecompile p call) = 0 := by
          rcases hends with ⟨-, hzero⟩ | ⟨n, hinitial, hover, -, hcharged⟩
          · exact hzero
          · rw [hcharged]
            refine if_neg fun h => ?_
            have := hshort hlt hinitial n h.1 h.2
            omega
        exact ⟨iff_of_false hrun hfails, hnothing.trans hfreshCharged.symm,
          iff_of_false hrun (Nat.not_le.mpr hlt), fun h => absurd h hrun⟩

end Clean

theorem ownGas_delegation :
    let call : Call := ⟨1000, 0, none, 400, [200, 100], none, none⟩
    call.OwnGas .staking ∧ runPrecompile .staking call = .ok ⟨none, 700, 300, 100⟩ := by
  intro call
  refine ⟨(ownGas_iff_unaffected ⟨rfl, rfl, rfl, rfl⟩).mpr ⟨fun _ => by decide, fun hshort => ?_⟩, by decide⟩
  exact absurd hshort (by decide)

/-- The same delegation fails when 800 gas was consumed before, although the contract could pay for it more
than three times. -/
theorem delegation_fails_after_other_work :
    let call : Call := ⟨1000, 0, none, 800, [200, 100], none, none⟩
    runPrecompile .staking call.fresh = .ok ⟨none, 700, 300, 100⟩ ∧
      runPrecompile .staking call = .ok ⟨some .executionReverted, 700, 300, 100⟩ ∧ ¬ call.OwnGas .staking := by
  intro call
  have hrun : runPrecompile .staking call = .ok ⟨some .executionReverted, 700, 300, 100⟩ := by decide
  refine ⟨by decide, hrun, fun hown => ?_⟩
  obtain ⟨outcome, hok, hnone⟩ := hown.succeeds_iff.mpr (by decide)
  rw [hrun] at hok
  cases hok
  cases hnone

end CosmosEvm.Precompiles
