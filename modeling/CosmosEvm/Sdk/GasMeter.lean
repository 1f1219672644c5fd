import Mathlib.Data.UInt

namespace CosmosEvm

inductive GasPanic where
  | outOfGas
  | gasOverflow
deriving DecidableEq

structure GasMeter where
  limit : ℕ
  consumed : ℕ
  infinite : Bool
deriving DecidableEq

namespace GasMeter

variable (meter : GasMeter) (amount more : ℕ)

def newInfiniteWithLimit (limit : UInt64) : GasMeter := ⟨limit.toNat, 0, true⟩

def gasRemaining : ℕ := meter.limit - meter.consumed

def charge : GasMeter := { meter with consumed := meter.consumed + amount }

/-- `ConsumeGas`, with the meter as it is when it panics: on an overflow and, if it is basic, past the limit. -/
def consumeGas : GasMeter × Option GasPanic :=
  if 2 ^ 64 ≤ meter.consumed + amount then
    ({ meter with consumed := if meter.infinite then 0 else 2 ^ 64 - 1 }, some .gasOverflow)
  else
    (meter.charge amount,
      if meter.infinite = false ∧ meter.limit < meter.consumed + amount then some .outOfGas else none)

def isOutOfGas : Bool := !meter.infinite && meter.limit ≤ meter.consumed

def exhaust : GasMeter := { meter with consumed := meter.limit }

def Rejects : Prop :=
  2 ^ 64 ≤ meter.consumed + amount ∨ (meter.infinite = false ∧ meter.limit < meter.consumed + amount)

def Admits : Prop :=
  meter.consumed + amount < 2 ^ 64 ∧ (meter.infinite = false → meter.consumed + amount < meter.limit)

theorem admits_iff :
    meter.Admits amount ↔ ¬ meter.Rejects amount ∧ (meter.charge amount).isOutOfGas = false := by
  unfold Admits Rejects isOutOfGas charge
  cases meter.infinite <;> simp
  omega

@[simp] theorem consumed_charge : (meter.charge amount).consumed = meter.consumed + amount := rfl

@[simp] theorem charge_rejects : (meter.charge amount).Rejects more ↔ meter.Rejects (amount + more) := by
  simp only [Rejects, charge, Nat.add_assoc]

@[simp] theorem charge_admits : (meter.charge amount).Admits more ↔ meter.Admits (amount + more) := by
  simp only [Admits, charge, Nat.add_assoc]

theorem charge_charge : (meter.charge amount).charge more = meter.charge (amount + more) := by
  simp only [charge, Nat.add_assoc]

theorem Rejects.mono {meter : GasMeter} {amount more : ℕ} (hle : amount ≤ more)
    (hrejects : meter.Rejects amount) : meter.Rejects more := by
  rcases hrejects with hoverflow | ⟨hbasic, hpast⟩
  · exact .inl (by omega)
  · exact .inr ⟨hbasic, by omega⟩

theorem not_rejects_newInfiniteWithLimit {limit : UInt64} (hle : amount ≤ limit.toNat) :
    ¬ (newInfiniteWithLimit limit).Rejects amount := by
  have hlt := limit.toNat_lt
  simp [Rejects, newInfiniteWithLimit]
  omega

end GasMeter

end CosmosEvm
