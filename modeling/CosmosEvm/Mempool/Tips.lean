import CosmosEvm.Mempool.Iterator
import CosmosEvm.Store.Context

namespace CosmosEvm.Mempool

variable {E C B : Type} {cfg : IteratorConfig E C B} {tx : C} {feeTx : FeeTx} {fee : ℤ}

theorem uint256FromBig_of_lt {n : ℤ} (hnonneg : 0 ≤ n) (hlt : n < 2 ^ 256) :
    ∃ word, uint256FromBig n = some word ∧ (word.toNat : ℤ) = n := by
  refine ⟨BitVec.ofInt 256 n, if_neg (by omega), ?_⟩
  rw [BitVec.toNat_ofInt]
  omega

def IteratorConfig.baseFee (cfg : IteratorConfig E C B) : ℤ := cfg.headerBaseFee.getD 0

theorem extractCosmosEffectiveTip_eq (hfeeTx : cfg.feeTx tx = some feeTx)
    (hamount : cfg.bondDenomFeeAmount feeTx.fee = some fee) (hfee : 0 < fee ∧ fee < 2 ^ 256)
    (hgas : feeTx.gas ≠ 0) (hbase : 0 ≤ cfg.baseFee ∧ cfg.baseFee < 2 ^ 256) :
    ∃ tip, cfg.extractCosmosEffectiveTip tx = some (some tip) ∧
      (tip.toNat : ℤ) = max 0 (fee / feeTx.gas.toNat - cfg.baseFee) := by
  have hquotient : 0 ≤ fee / feeTx.gas.toNat ∧ fee / feeTx.gas.toNat ≤ fee :=
    ⟨Int.ediv_nonneg hfee.1.le (Int.natCast_nonneg _), Int.ediv_le_self _ hfee.1.le⟩
  obtain ⟨price, hprice, hvalue⟩ := uint256FromBig_of_lt hquotient.1 (hquotient.2.trans_lt hfee.2)
  unfold IteratorConfig.extractCosmosEffectiveTip
  simp only [hfeeTx, hamount, if_neg hgas, Int.tdiv_eq_ediv_of_nonneg hfee.1.le, hprice]
  unfold IteratorConfig.getCurrentBaseFee
  unfold IteratorConfig.baseFee at hbase ⊢
  cases hheader : cfg.headerBaseFee with
  | none => exact ⟨price, rfl, by simp [← hvalue]⟩
  | some header =>
    rw [hheader] at hbase
    obtain ⟨base, hword, hbaseValue⟩ := uint256FromBig_of_lt hbase.1 hbase.2
    simp only [Option.getD_some] at hbaseValue hword ⊢
    rw [Option.bind_some, hword, ← hvalue, ← hbaseValue]
    dsimp only
    by_cases hlt : price < base
    · have hless : price.toNat < base.toNat := hlt
      refine ⟨0, if_pos hlt, ?_⟩
      rw [max_eq_left (by omega)]
      rfl
    · have hle : base.toNat ≤ price.toNat := not_lt.1 hlt
      refine ⟨price - base, if_neg hlt, ?_⟩
      rw [max_eq_right (by omega), BitVec.toNat_sub_of_le (BitVec.le_def.2 hle)]
      omega

theorem shouldUseEVM_eq_false_iff {it : EVMMempoolIterator E C} {etx : LazyTransaction E}
    {tip cosmosTip : BitVec 256} {rest : List C} (hevm : it.getNextEVMTx = some (etx, tip))
    (hcosmos : it.cosmosIterator = tx :: rest)
    (htip : cfg.extractCosmosEffectiveTip tx = some (some cosmosTip)) :
    it.shouldUseEVM cfg = some false ↔ tip.toNat < cosmosTip.toNat := by
  have hnext : it.getNextCosmosTx cfg = some (some (tx, cosmosTip)) := by
    unfold EVMMempoolIterator.getNextCosmosTx
    rw [hcosmos]
    dsimp only
    rw [htip]
    rfl
  unfold EVMMempoolIterator.shouldUseEVM
  rw [hnext, hevm]
  simp only [Option.bind_eq_bind, Option.bind_some, Option.some.injEq, Bool.or_eq_false_iff,
    Bool.not_eq_false', decide_eq_true_eq, decide_eq_false_iff_not, BitVec.lt_def]
  constructor
  · exact fun hselected => hselected.2
  · intro hlt
    refine ⟨?_, hlt⟩
    rintro rfl
    exact Nat.not_lt_zero _ hlt

/-- With both heads there, a Cosmos transaction that pays `fee` of the EVM coin is selected by its tip in units
of eighteen decimals, exactly unless it pays enough only in these units. -/
theorem cosmosSelected_iff (decimals : Decimals) (cfg : IteratorConfig E C B) (it : EVMMempoolIterator E C)
    (etx : LazyTransaction E) (tip : BitVec 256) (tx : C) (rest : List C) (feeTx : FeeTx) (fee : ℤ)
    (hevm : it.getNextEVMTx = some (etx, tip)) (hcosmos : it.cosmosIterator = tx :: rest)
    (hfeeTx : cfg.feeTx tx = some feeTx) (hamount : cfg.bondDenomFeeAmount feeTx.fee = some fee)
    (hfee : 0 < fee ∧ fee < 2 ^ 256) (hgas : feeTx.gas ≠ 0)
    (hbase : 0 ≤ cfg.baseFee ∧ cfg.baseFee < 2 ^ 256) :
    (it.shouldUseEVM cfg = some false ↔ (tip.toNat : ℤ) <
        max 0 (fee * decimals.conversionFactor / feeTx.gas.toNat - cfg.baseFee)) ↔
      fee * decimals.conversionFactor < (cfg.baseFee + tip.toNat + 1) * feeTx.gas.toNat ∨
        (cfg.baseFee + tip.toNat + 1) * feeTx.gas.toNat ≤ fee := by
  obtain ⟨cosmosTip, htip, hvalue⟩ := extractCosmosEffectiveTip_eq hfeeTx hamount hfee hgas hbase
  have hpos : (0 : ℤ) < feeTx.gas.toNat := by
    have hne : feeTx.gas.toNat ≠ 0 := fun hzero => hgas (UInt64.toNat_inj.1 hzero)
    omega
  -- for every amount, the tip is above that of the EVM transaction if it pays for one unit more
  have hthreshold : ∀ amount : ℤ, (tip.toNat : ℤ) < max 0 (amount / feeTx.gas.toNat - cfg.baseFee) ↔
      (cfg.baseFee + tip.toNat + 1) * feeTx.gas.toNat ≤ amount := by
    intro amount
    rw [← Int.le_ediv_iff_mul_le hpos]
    omega
  have hmore : fee ≤ fee * decimals.conversionFactor :=
    le_mul_of_one_le_right hfee.1.le decimals.conversionFactor_pos
  rw [shouldUseEVM_eq_false_iff hevm hcosmos htip, ← Int.ofNat_lt, hvalue, hthreshold, hthreshold]
  omega

def oneTipIterator (fee : ℤ) : EVMMempoolIterator Unit FeeTx where
  evmIterator := some
    { txs := fun _ => [], heads := #[⟨⟨(), 0, 1000000001, 1⟩, bytesToAddress [1], 1⟩], baseFee := none }
  cosmosIterator := [⟨[⟨"uatom", fee⟩], 21000⟩]

def gweiConfig : IteratorConfig Unit FeeTx Unit where
  bondDenom := "uatom"
  ethSender := fun _ => .ok (bytesToAddress [1])
  buildTx := fun _ => .ok ()
  feeTx := some
  headerBaseFee := some 1000000000

theorem cosmosSelected_large_fee : (oneTipIterator 21000000042000).shouldUseEVM gweiConfig = some false ↔
    (1 : ℤ) < max 0 (21000000042000 * (⟨6, by decide, by decide⟩ : Decimals).conversionFactor / 21000 -
      1000000000) :=
  (cosmosSelected_iff ⟨6, by decide, by decide⟩ gweiConfig (oneTipIterator 21000000042000) ⟨(), 0, 1000000001, 1⟩ 1
    ⟨[⟨"uatom", 21000000042000⟩], 21000⟩ [] ⟨[⟨"uatom", 21000000042000⟩], 21000⟩ 21000000042000 rfl rfl rfl rfl
    (by decide) (by decide) (by decide)).2 (.inr (by decide))

/-- One coin of six decimals for 21000 gas, which is above 47000 gwei, loses against a tip of one. -/
theorem six_decimals_fee_loses : (oneTipIterator 1000000).shouldUseEVM gweiConfig = some true ∧
    (1 : ℤ) < max 0 (1000000 * (⟨6, by decide, by decide⟩ : Decimals).conversionFactor / 21000 - 1000000000) := by
  decide +kernel

end CosmosEvm.Mempool
