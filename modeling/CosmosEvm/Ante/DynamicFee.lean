import CosmosEvm.Ante.CosmosFee
import Mathlib.Data.Rat.Floor

/-!
# Dynamic fees of Cosmos transactions

`FeeChecker` divides the declared fee by the gas and rounds down, takes base fee and tip instead where they
are less, and multiplies by the gas again and rounds up.
-/

namespace CosmosEvm

namespace Dec

theorem value_ofInt (n : ℤ) : (ofInt n).value = n := by
  have hne : (precision : ℚ) ≠ 0 := by exact_mod_cast precision_pos.ne'
  rw [value, ofInt, Int.cast_mul, mul_div_cancel_right₀ _ hne]

theorem value_add (d d' : Dec) : (d.add d').value = d.value + d'.value := by
  rw [value, add, Int.cast_add, add_div, value, value]

theorem value_mul_natCast (d : Dec) (n : ℕ) : (⟨d.raw * n⟩ : Dec).value = d.value * n := by
  rw [value, Int.cast_mul, Int.cast_natCast, mul_div_right_comm, value]

theorem ceilInt_eq (d : Dec) : d.ceilInt = ⌈d.value⌉ := by
  have hceil := Rat.ceil_intCast_div_natCast d.raw (10 ^ 18)
  unfold ceilInt value precision
  push_cast at hceil ⊢
  exact hceil.symm

theorem ceilInt_mul_mono {d d' : Dec} (hle : d.raw ≤ d'.raw) (n : ℕ) :
    ceilInt ⟨d.raw * n⟩ ≤ ceilInt ⟨d'.raw * n⟩ := by
  rw [ceilInt_eq, ceilInt_eq]
  exact Int.ceil_mono (value_le_value.mpr (mul_le_mul_of_nonneg_right hle n.cast_nonneg))

end Dec

namespace Ante

open Mempool (FeeTx)

section

variable (ctx : FeeContext) (tx : FeeTx) (price : Option (Option Dec))

def baseFee : Dec := ctx.baseFee.getD (Dec.ofInt 0)

def tipCap : Dec := (price.map fun price => price.getD (Dec.ofInt 0)).getD (Dec.ofInt maxInt64)

def declared : ℤ := tx.fee.amountOfNoDenomValidation ctx.evmDenom

/-- The price `FeeChecker` settles on, with its quotient rounded down. -/
def effectivePrice : Dec :=
  ⟨min ((tipCap price).raw + (baseFee ctx).raw) (declared ctx tx * Dec.precision / tx.gas.toNat)⟩

def charge : ℤ := Dec.ceilInt ⟨(effectivePrice ctx tx price).raw * tx.gas.toNat⟩

def priority : ℤ :=
  capInt64 (((effectivePrice ctx tx price).sub (baseFee ctx)).quoInt defaultPriorityReduction).truncateInt

structure Priced : Prop where
  london : ctx.isLondon = true
  baseFee_nonneg : 0 ≤ (baseFee ctx).raw
  tipCap_nonneg : 0 ≤ (tipCap price).raw
  gas_pos : 0 < tx.gas.toNat
  declared_nonneg : 0 ≤ declared ctx tx

end

variable {decText : Dec → String} {ctx : FeeContext} {tx tx' : FeeTx} {price price' : Option (Option Dec)}

namespace Priced

section

variable (hpriced : Priced ctx tx price)

include hpriced

theorem baseFee_le_iff : (baseFee ctx).raw ≤ declared ctx tx * Dec.precision / tx.gas.toNat ↔
    (baseFee ctx).value * tx.gas.toNat ≤ declared ctx tx := by
  have hpos := hpriced.gas_pos
  rw [Int.le_ediv_iff_mul_le (by omega), ← Dec.value_mul_natCast, ← Dec.value_ofInt, Dec.value_le_value, Dec.ofInt]

theorem feeChecker_eq_ok_iff {checked : Coins × ℤ} : feeChecker decText ctx tx price = .ok checked ↔
    (baseFee ctx).value * tx.gas.toNat ≤ declared ctx tx ∧
      checked = ([⟨ctx.evmDenom, charge ctx tx price⟩], priority ctx tx price) := by
  have hgas : tx.gas ≠ 0 := fun hzero => hpriced.gas_pos.ne' (by rw [hzero, UInt64.toNat_zero])
  have hcap : (Dec.ofInt (declared ctx tx)).quoInt tx.gas.toNat =
      ⟨declared ctx tx * Dec.precision / tx.gas.toNat⟩ := by
    unfold Dec.quoInt Dec.ofInt
    rw [Int.tdiv_eq_ediv_of_nonneg (mul_nonneg hpriced.declared_nonneg Dec.precision_pos.le)]
  have hprice : (if ((tipCap price).add (baseFee ctx)).raw < declared ctx tx * Dec.precision / tx.gas.toNat
      then (tipCap price).add (baseFee ctx) else ⟨declared ctx tx * Dec.precision / tx.gas.toNat⟩) =
        effectivePrice ctx tx price := by
    apply Dec.ext
    rw [apply_ite Dec.raw]
    exact (min_def_lt _ _).symm
  have htip := hpriced.tipCap_nonneg
  rw [← hpriced.baseFee_le_iff, charge, priority, ← hprice]
  unfold feeChecker
  rw [if_neg (by simp [hpriced.london])]
  simp only [Result.seq_eq_ok_iff, Result.ensure_eq_ok_iff, Result.pure_eq_ok_iff]
  unfold tipCap baseFee declared at *
  rw [hcap, eq_comm (b := checked)]
  tauto

theorem baseFee_le_effectivePrice (hcovers : (baseFee ctx).value * tx.gas.toNat ≤ declared ctx tx) :
    (baseFee ctx).raw ≤ (effectivePrice ctx tx price).raw := by
  have htip := hpriced.tipCap_nonneg
  exact le_min (by omega) (hpriced.baseFee_le_iff.mpr hcovers)

theorem charge_le_declared : charge ctx tx price ≤ declared ctx tx := by
  have hpos := hpriced.gas_pos
  rw [charge, Dec.ceilInt_eq, Int.ceil_le, ← Dec.value_ofInt, Dec.value_le_value]
  calc (effectivePrice ctx tx price).raw * tx.gas.toNat
      ≤ declared ctx tx * Dec.precision / tx.gas.toNat * tx.gas.toNat :=
        mul_le_mul_of_nonneg_right (min_le_right _ _) (Int.natCast_nonneg _)
    _ ≤ declared ctx tx * Dec.precision := Int.ediv_mul_le _ (by omega)

/-- The price rounded down takes less than one unit off the fee, which the charge rounded up gives back. -/
theorem declared_le_charge
    (hcap : declared ctx tx ≤ ((baseFee ctx).value + (tipCap price).value) * tx.gas.toNat)
    (hsmall : tx.gas.toNat ≤ 10 ^ 18) : declared ctx tx ≤ charge ctx tx price := by
  have hpos : (0 : ℤ) < tx.gas.toNat := by exact_mod_cast hpriced.gas_pos
  have hgas : (tx.gas.toNat : ℤ) ≤ Dec.precision := by
    unfold Dec.precision
    exact_mod_cast hsmall
  rw [add_comm, ← Dec.value_add, ← Dec.value_mul_natCast, ← Dec.value_ofInt, Dec.value_le_value] at hcap
  have hle : declared ctx tx * Dec.precision / tx.gas.toNat ≤ (tipCap price).raw + (baseFee ctx).raw :=
    Int.ediv_le_of_le_mul hpos hcap
  have hrest := Int.lt_ediv_add_one_mul_self (declared ctx tx * Dec.precision) hpos
  rw [charge, Dec.ceilInt_eq, Int.le_ceil_iff, ← Int.cast_one, ← Int.cast_sub, ← Dec.value_ofInt,
    lt_iff_lt_of_le_iff_le Dec.value_le_value, effectivePrice, min_eq_right hle, Dec.ofInt]
  linarith

end

section

variable (hgas : tx'.gas = tx.gas) (hfee : declared ctx tx ≤ declared ctx tx')
  (htip : (tipCap price).raw ≤ (tipCap price').raw)

include hgas hfee htip

theorem mono (hpriced : Priced ctx tx price) : Priced ctx tx' price' where
  london := hpriced.london
  baseFee_nonneg := hpriced.baseFee_nonneg
  tipCap_nonneg := hpriced.tipCap_nonneg.trans htip
  gas_pos := hgas ▸ hpriced.gas_pos
  declared_nonneg := hpriced.declared_nonneg.trans hfee

theorem effectivePrice_mono (hpriced : Priced ctx tx price) :
    (effectivePrice ctx tx price).raw ≤ (effectivePrice ctx tx' price').raw := by
  have hpos := hpriced.gas_pos
  unfold effectivePrice
  rw [hgas]
  exact min_le_min (by omega)
    (Int.ediv_le_ediv (by omega) (mul_le_mul_of_nonneg_right hfee Dec.precision_pos.le))

end

end Priced

theorem capInt64_mono {amount amount' : ℤ} (hnonneg : 0 ≤ amount) (hle : amount ≤ amount') :
    capInt64 amount ≤ capInt64 amount' := by
  unfold capInt64 maxInt64
  split_ifs <;> omega

theorem priority_mono (hbase : (baseFee ctx).raw ≤ (effectivePrice ctx tx price).raw)
    (hprice : (effectivePrice ctx tx price).raw ≤ (effectivePrice ctx tx' price').raw) :
    priority ctx tx price ≤ priority ctx tx' price' := by
  have hpos : 0 < defaultPriorityReduction := by decide
  refine capInt64_mono ?_ (Dec.truncateInt_mono (Int.tdiv_le_tdiv hpos (sub_le_sub_right hprice _)))
  exact Int.tdiv_nonneg (Int.tdiv_nonneg (sub_nonneg.mpr hbase) hpos.le) Dec.precision_pos.le

/-- After London a fee is accepted exactly if it covers the base fee, although the checker compares rounded
prices, and the charge lies between the base fee and the declared fee. More fee or more tip is accepted too,
for no smaller charge and no smaller priority. -/
theorem feeChecker_law (decText : Dec → String) (hpriced : Priced ctx tx price) :
    ((∃ checked, feeChecker decText ctx tx price = .ok checked) ↔
      (baseFee ctx).value * tx.gas.toNat ≤ declared ctx tx) ∧
    ∀ checked, feeChecker decText ctx tx price = .ok checked →
      ∃ charged priority, checked = ([⟨ctx.evmDenom, charged⟩], priority) ∧
        ⌈(baseFee ctx).value * tx.gas.toNat⌉ ≤ charged ∧ charged ≤ declared ctx tx ∧
        charged ≤ ⌈((baseFee ctx).value + (tipCap price).value) * tx.gas.toNat⌉ ∧
        (declared ctx tx ≤ ((baseFee ctx).value + (tipCap price).value) * tx.gas.toNat →
          tx.gas.toNat ≤ 10 ^ 18 → charged = declared ctx tx) ∧
        ∀ tx' price', tx'.gas = tx.gas → declared ctx tx ≤ declared ctx tx' →
          (tipCap price).raw ≤ (tipCap price').raw →
            ∃ charged' priority', feeChecker decText ctx tx' price' = .ok ([⟨ctx.evmDenom, charged'⟩], priority') ∧
              charged ≤ charged' ∧ priority ≤ priority' := by
  constructor
  · simp only [hpriced.feeChecker_eq_ok_iff, exists_and_left, exists_eq, and_true]
  intro checked hok
  obtain ⟨hcovers, rfl⟩ := hpriced.feeChecker_eq_ok_iff.mp hok
  have hbase := hpriced.baseFee_le_effectivePrice hcovers
  refine ⟨_, _, rfl, ?_, hpriced.charge_le_declared, ?_, fun hcap hsmall =>
    le_antisymm hpriced.charge_le_declared (hpriced.declared_le_charge hcap hsmall), ?_⟩
  · rw [← Dec.value_mul_natCast, ← Dec.ceilInt_eq]
    exact Dec.ceilInt_mul_mono hbase _
  · rw [add_comm, ← Dec.value_add, ← Dec.value_mul_natCast, ← Dec.ceilInt_eq]
    exact Dec.ceilInt_mul_mono (min_le_left _ _) _
  · intro tx' price' hgas hfee htip
    have hprice := hpriced.effectivePrice_mono hgas hfee htip
    refine ⟨_, _, (hpriced.mono hgas hfee htip).feeChecker_eq_ok_iff.mpr ⟨?_, rfl⟩, ?_, priority_mono hbase hprice⟩
    · rw [hgas]
      exact hcovers.trans (by exact_mod_cast hfee)
    · rw [charge, charge, hgas]
      exact Dec.ceilInt_mul_mono hprice _

/-- A price of ten thirds is cut to 18 digits, and the charge is the whole fee again. -/
theorem feeChecker_thirds :
    let ctx : FeeContext := ⟨1, false, [], 100, true, "aatom", some ⟨2500000000000000000⟩, ⟨0⟩⟩
    Priced ctx ⟨[⟨"aatom", 10⟩], 3⟩ none ∧
      ∃ priority, feeChecker (fun _ => "") ctx ⟨[⟨"aatom", 10⟩], 3⟩ none = .ok ([⟨"aatom", 10⟩], priority) := by
  intro ctx
  have hgas : (3 : UInt64).toNat = 3 := rfl
  have hdeclared : declared ctx ⟨[⟨"aatom", 10⟩], 3⟩ = 10 := by
    simp [declared, ctx, Coins.amountOfNoDenomValidation]
  have hpriced : Priced ctx ⟨[⟨"aatom", 10⟩], 3⟩ none :=
    ⟨rfl, by decide, by decide, by decide, by rw [hdeclared]; decide⟩
  obtain ⟨haccepts, hlaw⟩ := feeChecker_law (fun _ => "") hpriced
  obtain ⟨checked, hok⟩ := haccepts.mpr (by
    rw [hdeclared]
    norm_num [hgas, baseFee, ctx, Dec.value, Dec.precision])
  obtain ⟨charged, priority, rfl, -, -, -, hfull, -⟩ := hlaw checked hok
  have hcharged : charged = 10 := by
    rw [hdeclared] at hfull
    exact hfull (by norm_num [hgas, baseFee, tipCap, ctx, Dec.value, Dec.precision, Dec.ofInt, maxInt64])
      (by norm_num [hgas])
  subst hcharged
  exact ⟨hpriced, priority, hok⟩

end Ante

end CosmosEvm
