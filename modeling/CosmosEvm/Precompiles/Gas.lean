import CosmosEvm.Lib.Result
import CosmosEvm.Sdk.GasMeter
import CosmosEvm.Sdk.Keepers

/-!
# What a precompile run costs

A run works on a gas meter of its own, limited by the gas of the contract. What was consumed there is taken
from the contract at the end of a successful run, or when the meter panics.
-/

namespace CosmosEvm.Precompiles

structure Charged where
  meter : GasMeter
  last : ℕ
  panic : Option GasPanic
deriving DecidableEq

def consumeAll (meter : GasMeter) (last : ℕ) : List ℕ → Charged
  | [] => ⟨meter, last, none⟩
  | amount :: amounts =>
    match meter.consumeGas amount with
    | (meter, some panic) => ⟨meter, amount, some panic⟩
    | (meter, none) => consumeAll meter amount amounts

def useGas (contractGas gas : ℕ) : Bool × ℕ :=
  if contractGas < gas then (false, contractGas) else (true, contractGas - gas)

inductive Precompile where
  | bank
  | distribution
  | erc20
  | gov
  | ics20
  | slashing
  | staking
  | werc20
deriving DecidableEq

def Precompile.returnsRevertError : Precompile → Bool
  | .bank => false
  | _ => true

def Precompile.refusesValue : Precompile → Bool
  | .erc20 => true
  | _ => false

def Precompile.handlesBalances : Precompile → Bool
  | .bank => false
  | _ => true

inductive RunError where
  | executionReverted
  | outOfGas
  | other (err : Err)
deriving DecidableEq

/-- What decides the cost of a run, with the gas consumed on the meter of `cacheCtx` before it. -/
structure Call where
  gas : UInt64
  value : ℕ
  setupError : Option Err
  initialGas : UInt64
  charges : List ℕ
  methodError : Option Err
  balanceError : Option Err
deriving DecidableEq

structure Outcome where
  err : Option RunError
  gas : ℕ
  work : ℕ
  lastCharge : ℕ
deriving DecidableEq

def errCannotReceiveFunds (value : ℕ) : Err :=
  .wrapped .other s!"cannot receive funds, received: {value}"

def Charged.work (call : Call) (charged : Charged) : ℕ := charged.meter.consumed - call.initialGas.toNat

/-- `HandleGasError`: the panic of a meter that ran out of gas becomes an error, another one goes on. -/
def handleGasError (call : Call) (charged : Charged) : GasPanic → Except GasPanic Outcome
  | .outOfGas =>
    let usedGas := charged.work call
    .ok ⟨some .outOfGas, (useGas call.gas.toNat usedGas).2, usedGas, charged.last⟩
  | .gasOverflow => .error .gasOverflow

variable (p : Precompile)

/-- The end of `run`, once the method has returned without an error. -/
def chargeContract (call : Call) (charged : Charged) : Outcome :=
  let cost := charged.work call
  match useGas call.gas.toNat cost with
  | (false, gas) => ⟨some .outOfGas, gas, cost, charged.last⟩
  | (true, gas) =>
    let err := if p.handlesBalances then call.balanceError else none
    ⟨err.map .other, gas, cost, charged.last⟩

def run (call : Call) : Except GasPanic Outcome :=
  if p.refusesValue && 0 < call.value then
    .ok ⟨some (.other (errCannotReceiveFunds call.value)), call.gas.toNat, 0, 0⟩
  else
    match call.setupError with
    | some err => .ok ⟨some (.other err), call.gas.toNat, 0, 0⟩
    | none =>
      match (GasMeter.mk call.gas.toNat 0 false).consumeGas call.initialGas.toNat with
      -- `RunSetup` handles the panic with the meter from before
      | (_, some panic) => handleGasError call ⟨⟨call.gas.toNat, call.initialGas.toNat, false⟩, 0, none⟩ panic
      | (meter, none) =>
        let charged := consumeAll meter 0 call.charges
        match charged.panic, call.methodError with
        | some panic, _ => handleGasError call charged panic
        | none, some err =>
          .ok ⟨some (.other err), call.gas.toNat, charged.work call, charged.last⟩
        | none, none => .ok (chargeContract p call charged)

def Outcome.seenBy (outcome : Outcome) : Outcome :=
  if p.returnsRevertError then { outcome with err := outcome.err.map fun _ => .executionReverted }
  else outcome

def runPrecompile (call : Call) : Except GasPanic Outcome := (run p call).map (Outcome.seenBy p)

/-- The gas that the EVM gives back after a run: nothing after an error that is no revert. -/
def Outcome.returnedGas (outcome : Outcome) : ℕ :=
  match outcome.err with
  | none | some .executionReverted => outcome.gas
  | some _ => 0

def Outcome.lostGas (call : Call) (outcome : Outcome) : ℕ := call.gas.toNat - outcome.returnedGas

theorem consumeGas_spec (meter : GasMeter) (hbasic : meter.infinite = false) (amount : ℕ) :
    (meter.consumed + amount ≤ meter.limit ∧ meter.consumeGas amount = (meter.charge amount, none)) ∨
    (meter.limit < meter.consumed + amount ∧
      meter.consumeGas amount = (meter.charge amount, some .outOfGas)) ∨
    ∃ after, meter.consumeGas amount = (after, some .gasOverflow) := by
  unfold GasMeter.consumeGas
  by_cases hoverflow : 2 ^ 64 ≤ meter.consumed + amount
  · exact .inr (.inr ⟨_, if_pos hoverflow⟩)
  · rw [if_neg hoverflow]
    by_cases hover : meter.limit < meter.consumed + amount
    · exact .inr (.inl ⟨hover, by rw [if_pos ⟨hbasic, hover⟩]⟩)
    · exact .inl ⟨not_lt.mp hover, by rw [if_neg fun hboth => hover hboth.2]⟩

theorem consumeAll_spec (meter : GasMeter) (hbasic : meter.infinite = false)
    (hwithin : meter.consumed ≤ meter.limit) (last : ℕ) (amounts : List ℕ) :
    (consumeAll meter last amounts).panic = some .gasOverflow ∨
      meter.consumed ≤ (consumeAll meter last amounts).meter.consumed ∧
        ((consumeAll meter last amounts).panic = none ∧
            (consumeAll meter last amounts).meter.consumed ≤ meter.limit ∨
          (consumeAll meter last amounts).panic = some .outOfGas ∧
            meter.limit < (consumeAll meter last amounts).meter.consumed ∧
            (consumeAll meter last amounts).meter.consumed ≤
              meter.limit + (consumeAll meter last amounts).last) := by
  induction amounts generalizing meter last with
  | nil => exact .inr ⟨Nat.le_refl _, .inl ⟨rfl, hwithin⟩⟩
  | cons amount amounts ih =>
    unfold consumeAll
    rcases consumeGas_spec meter hbasic amount with ⟨hfits, hcharge⟩ | ⟨hover, hcharge⟩ | ⟨after, hcharge⟩
    · rw [hcharge]
      rcases ih (meter.charge amount) hbasic hfits amount with hoverflow | ⟨hle, hend⟩
      · exact .inl hoverflow
      · exact .inr ⟨(Nat.le_add_right _ _).trans hle, hend⟩
    · rw [hcharge]
      exact .inr ⟨Nat.le_add_right _ _, .inr ⟨rfl, hover, Nat.add_le_add_right hwithin _⟩⟩
    · rw [hcharge]
      exact .inl rfl

def Call.Reached (call : Call) : Prop :=
  (p.refusesValue && decide (0 < call.value)) = false ∧ call.setupError = none ∧
    call.initialGas ≤ call.gas

def Call.charged (call : Call) : Charged :=
  consumeAll ⟨call.gas.toNat, call.initialGas.toNat, false⟩ 0 call.charges

inductive Ends (p : Precompile) (call : Call) : Outcome → Prop where
  | before {err : RunError} : ¬ call.Reached p → Ends p call ⟨some err, call.gas.toNat, 0, 0⟩
  | outOfGas : call.Reached p → call.charged.panic = some .outOfGas →
      call.gas.toNat < call.charged.meter.consumed →
      call.charged.meter.consumed ≤ call.gas.toNat + call.charged.last →
        Ends p call ⟨some .outOfGas, (useGas call.gas.toNat (call.charged.work call)).2,
          call.charged.work call, call.charged.last⟩
  | failed {err : Err} : call.Reached p → call.charged.panic = none → call.methodError = some err →
      call.charged.work call ≤ call.gas.toNat →
        Ends p call ⟨some (.other err), call.gas.toNat, call.charged.work call, call.charged.last⟩
  | charged {err : Option RunError} : call.Reached p → call.charged.panic = none →
      call.methodError = none → call.charged.work call ≤ call.gas.toNat →
        Ends p call ⟨err, call.gas.toNat - call.charged.work call, call.charged.work call,
          call.charged.last⟩

theorem ends_of_charged {p : Precompile} {call : Call} {outcome : Outcome} (hreached : call.Reached p)
    (hrun : (match call.charged.panic, call.methodError with
      | some panic, _ => handleGasError call call.charged panic
      | none, some err =>
        .ok ⟨some (.other err), call.gas.toNat, call.charged.work call, call.charged.last⟩
      | none, none => .ok (chargeContract p call call.charged)) = .ok outcome) :
    Ends p call outcome := by
  have hwithin := UInt64.le_iff_toNat_le.mp hreached.2.2
  rcases consumeAll_spec ⟨call.gas.toNat, call.initialGas.toNat, false⟩ rfl hwithin 0 call.charges with
    hoverflow | ⟨-, ⟨hnone, hle⟩ | ⟨hsome, hover, hlast⟩⟩
  · have hpanic : call.charged.panic = some .gasOverflow := hoverflow
    rw [hpanic] at hrun
    simp [handleGasError] at hrun
  · have hpanic : call.charged.panic = none := hnone
    have hwork : call.charged.work call ≤ call.gas.toNat := (Nat.sub_le _ _).trans hle
    rw [hpanic] at hrun
    cases hmethod : call.methodError with
    | some err =>
      simp only [hmethod, Except.ok.injEq] at hrun
      subst hrun
      exact .failed hreached hpanic hmethod hwork
    | none =>
      simp only [hmethod, chargeContract, useGas, if_neg (Nat.not_lt.mpr hwork),
        Except.ok.injEq] at hrun
      subst hrun
      exact .charged hreached hpanic hmethod hwork
  · have hpanic : call.charged.panic = some .outOfGas := hsome
    rw [hpanic] at hrun
    simp only [handleGasError, Except.ok.injEq] at hrun
    subst hrun
    exact .outOfGas hreached hpanic hover hlast

theorem ends_of_run {p : Precompile} {call : Call} {outcome : Outcome}
    (hrun : run p call = .ok outcome) : Ends p call outcome := by
  unfold run at hrun
  split_ifs at hrun with hvalue
  · cases hrun
    exact .before fun hreached => by simp [hreached.1] at hvalue
  · cases hsetup : call.setupError with
    | some err =>
      simp only [hsetup] at hrun
      cases hrun
      exact .before fun hreached => by
        have hnone := hreached.2.1
        simp [hsetup] at hnone
    | none =>
      simp only [hsetup] at hrun
      have hvalue' : (p.refusesValue && decide (0 < call.value)) = false := by simpa using hvalue
      rcases consumeGas_spec ⟨call.gas.toNat, 0, false⟩ rfl call.initialGas.toNat with
        ⟨hfits, hcharge⟩ | ⟨hover, hcharge⟩ | ⟨after, hcharge⟩
      · simp only [GasMeter.charge, Nat.zero_add] at hfits hcharge
        rw [hcharge] at hrun
        exact ends_of_charged ⟨hvalue', hsetup, UInt64.le_iff_toNat_le.mpr hfits⟩ hrun
      · rw [hcharge] at hrun
        simp only [handleGasError, Charged.work, useGas, Nat.sub_self, Nat.not_lt_zero, if_false,
          Nat.sub_zero, Except.ok.injEq] at hrun
        subst hrun
        refine .before fun hreached => ?_
        have hle := UInt64.le_iff_toNat_le.mp hreached.2.2
        simp only [Nat.zero_add] at hover
        omega
      · rw [hcharge] at hrun
        simp [handleGasError] at hrun

structure Paid (call : Call) (outcome : Outcome) : Prop where
  lost : min call.gas.toNat outcome.work ≤ outcome.lostGas call
  bounded : outcome.work ≤ call.gas.toNat + outcome.lastCharge

/-- The run is not for free: it gets no work done, the errors of the precompile are no reverts, the method
returns without an error, or it runs out of gas on a meter that was mostly used up before. -/
def Call.Pays (call : Call) : Prop :=
  call.gas = 0 ∨ ¬ call.Reached p ∨ call.charged.work call = 0 ∨ p.returnsRevertError = false ∨
    (call.charged.panic = none ∧ call.methodError = none) ∨
    (call.charged.panic = some .outOfGas ∧ call.charged.work call ≤ call.gas.toNat)

theorem returnedGas_le (outcome : Outcome) : outcome.returnedGas ≤ outcome.gas := by
  unfold Outcome.returnedGas
  split <;> omega

theorem seenBy_spec (outcome : Outcome) :
    (outcome.seenBy p).gas = outcome.gas ∧ (outcome.seenBy p).work = outcome.work ∧
      (outcome.seenBy p).lastCharge = outcome.lastCharge := by
  unfold Outcome.seenBy
  split <;> exact ⟨rfl, rfl, rfl⟩

theorem returnedGas_seenBy_revert {p : Precompile} {outcome : Outcome}
    (hreverts : p.returnsRevertError = true) : (outcome.seenBy p).returnedGas = outcome.gas := by
  unfold Outcome.seenBy
  rw [if_pos hreverts]
  cases outcome.err <;> simp [Outcome.returnedGas]

theorem returnedGas_seenBy_error {p : Precompile} {outcome : Outcome} {err : RunError}
    (hreverts : p.returnsRevertError = false) (herr : outcome.err = some err)
    (hne : err ≠ .executionReverted) : (outcome.seenBy p).returnedGas = 0 := by
  unfold Outcome.seenBy
  rw [if_neg (by simp [hreverts])]
  cases err <;> simp_all [Outcome.returnedGas]

theorem paid_error_iff {p : Precompile} {call : Call} {outcome : Outcome} {err : RunError}
    (herr : outcome.err = some err) (hne : err ≠ .executionReverted)
    (hbounded : outcome.work ≤ call.gas.toNat + outcome.lastCharge) :
    Paid call (outcome.seenBy p) ↔ p.returnsRevertError = false ∨
      min call.gas.toNat outcome.work ≤ call.gas.toNat - outcome.gas := by
  obtain ⟨hseenGas, hwork, hlast⟩ := seenBy_spec p outcome
  have hpaid : Paid call (outcome.seenBy p) ↔
      min call.gas.toNat outcome.work ≤ call.gas.toNat - (outcome.seenBy p).returnedGas := by
    constructor
    · intro hpaid
      rw [← hwork]
      exact hpaid.lost
    · intro hlost
      refine ⟨?_, by rw [hwork, hlast]; exact hbounded⟩
      rw [hwork]
      exact hlost
  rw [hpaid]
  cases hreverts : p.returnsRevertError with
  | true =>
    rw [returnedGas_seenBy_revert hreverts]
    simp
  | false =>
    rw [returnedGas_seenBy_error hreverts herr hne]
    simp

theorem paid_charged {p : Precompile} {call : Call} {outcome : Outcome}
    (hgas : outcome.gas = call.gas.toNat - outcome.work) (hwork : outcome.work ≤ call.gas.toNat) :
    Paid call (outcome.seenBy p) := by
  obtain ⟨hseenGas, hseenWork, hlast⟩ := seenBy_spec p outcome
  have hreturned := returnedGas_le (outcome.seenBy p)
  rw [hseenGas, hgas] at hreturned
  refine ⟨?_, by omega⟩
  unfold Outcome.lostGas
  omega

theorem lost_useGas_iff (gas work : ℕ) :
    min gas work ≤ gas - (useGas gas work).2 ↔ gas = 0 ∨ work ≤ gas := by
  unfold useGas
  split <;> simp only <;> omega

/-- The caller pays for a run exactly when it is not for free. -/
theorem paid_iff {p : Precompile} {call : Call} {outcome : Outcome}
    (hrun : runPrecompile p call = .ok outcome) : Paid call outcome ↔ call.Pays p := by
  obtain ⟨raw, hraw, rfl⟩ : ∃ raw, run p call = .ok raw ∧ raw.seenBy p = outcome := by
    unfold runPrecompile at hrun
    cases hraw : run p call with
    | error panic => simp [hraw, Except.map] at hrun
    | ok raw => exact ⟨raw, rfl, by simpa [hraw, Except.map] using hrun⟩
  have hzero : call.gas = 0 ↔ call.gas.toNat = 0 := by
    rw [← UInt64.toNat_inj]
    rfl
  unfold Call.Pays
  rw [hzero]
  have hends := ends_of_run hraw
  cases hends with
  | @before err hnot =>
    refine iff_of_true ⟨?_, ?_⟩ (.inr (.inl hnot))
    · rw [(seenBy_spec p _).2.1]
      simp
    · rw [(seenBy_spec p _).2.1]
      simp
  | outOfGas hreached hpanic hover hlast =>
    rw [paid_error_iff rfl (by simp) ((Nat.sub_le _ _).trans hlast), lost_useGas_iff, hpanic]
    constructor
    · rintro (hbank | hzero | hle)
      · exact .inr (.inr (.inr (.inl hbank)))
      · exact .inl hzero
      · exact .inr (.inr (.inr (.inr (.inr ⟨rfl, hle⟩))))
    · rintro (hzero | hnot | hnothing | hbank | ⟨hnone, -⟩ | ⟨-, hle⟩)
      · exact .inr (.inl hzero)
      · exact absurd hreached hnot
      · exact .inr (.inr ((Nat.le_of_eq hnothing).trans (Nat.zero_le _)))
      · exact .inl hbank
      · simp at hnone
      · exact .inr (.inr hle)
  | failed hreached hpanic hmethod hwork =>
    rw [paid_error_iff rfl (by simp) (hwork.trans (Nat.le_add_right _ _)), Nat.sub_self, Nat.le_zero,
      hpanic, hmethod]
    constructor
    · rintro (hbank | hzero)
      · exact .inr (.inr (.inr (.inl hbank)))
      · rcases Nat.min_eq_zero_iff.mp hzero with hgas | hnothing
        · exact .inl hgas
        · exact .inr (.inr (.inl hnothing))
    · rintro (hzero | hnot | hnothing | hbank | ⟨-, hnone⟩ | ⟨hsome, -⟩)
      · exact .inr (by simp [hzero])
      · exact absurd hreached hnot
      · exact .inr (by simp [hnothing])
      · exact .inl hbank
      · simp at hnone
      · simp at hsome
  | charged hreached hpanic hmethod hwork =>
    exact iff_of_true (paid_charged rfl hwork) (.inr (.inr (.inr (.inr (.inl ⟨hpanic, hmethod⟩)))))

theorem paid_delegation :
    let call : Call := ⟨1000, 0, none, 0, [200, 100], none, none⟩
    ∃ outcome, runPrecompile .staking call = .ok outcome ∧ outcome.lostGas call = 300 ∧ Paid call outcome := by
  intro call
  have hsome : (runPrecompile .staking call).toOption.isSome = true := by decide
  obtain ⟨outcome, hrun⟩ := Result.exists_eq_ok_of_isSome hsome
  have hlost : (runPrecompile .staking call).toOption.map (Outcome.lostGas call) = some 300 := by decide
  rw [hrun] at hlost
  refine ⟨outcome, hrun, Option.some.inj hlost, (paid_iff hrun).mpr ?_⟩
  exact .inr (.inr (.inr (.inr (.inl (by decide)))))

/-- A method that returns an error after 300 gas of work costs the caller nothing, and neither does one that
runs out of gas. -/
theorem failed_work_is_free :
    let failing : Call := ⟨1000, 0, none, 0, [200, 100], some (.wrapped .other "no delegation"), none⟩
    let exhausting : Call := ⟨1000, 0, none, 0, [900, 200], none, none⟩
    runPrecompile .staking failing = .ok ⟨some .executionReverted, 1000, 300, 100⟩ ∧
      runPrecompile .staking exhausting = .ok ⟨some .executionReverted, 1000, 1100, 200⟩ ∧
      ¬ Paid failing ⟨some .executionReverted, 1000, 300, 100⟩ ∧
      ¬ Paid exhausting ⟨some .executionReverted, 1000, 1100, 200⟩ := by
  refine ⟨by rfl, by rfl, fun hpaid => ?_, fun hpaid => ?_⟩
  · exact absurd hpaid.lost (by decide)
  · exact absurd hpaid.lost (by decide)

end CosmosEvm.Precompiles
