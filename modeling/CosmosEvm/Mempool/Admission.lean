import CosmosEvm.Ante.CosmosFee
import CosmosEvm.Mempool.Selection

namespace CosmosEvm.Mempool

open Ante (CosmosTx CosmosDecorators FeeContext cosmosAnteHandle)

variable {E B : Type}

/-- `GetTxPriority` of the default Cosmos pool, `none` when it panics. -/
def getTxPriority (bondDenom : Denom) (tx : CosmosTx) : Option ℤ :=
  match tx.feeTx with
  | none => some 0
  | some feeTx =>
    match feeTx.fee.find bondDenom with
    | none => some 0
    | some coin => if feeTx.gas = 0 then none else some (coin.amount.tdiv feeTx.gas.toNat)

def mempoolConfig (evmDenom : Denom) (ethSender : E → Except Err Address)
    (buildTx : MsgEthereumTx E → Except Err B) (headerBaseFee : Option ℤ) : IteratorConfig E CosmosTx B where
  bondDenom := evmDenom
  ethSender := ethSender
  buildTx := buildTx
  feeTx := CosmosTx.feeTx
  headerBaseFee := headerBaseFee

def PaysIn (denom : Denom) (tx : CosmosTx) : Prop :=
  ∃ feeTx, tx.feeTx = some feeTx ∧ ∃ coin ∈ feeTx.fee, coin.denom = denom

/-- The iterator ranks the transaction behind every EVM transaction with a positive tip. -/
def RankedBehind (cfg : IteratorConfig E CosmosTx B) (tx : CosmosTx) : Prop :=
  ∀ (it : EVMMempoolIterator E CosmosTx) (evmTx : LazyTransaction E) (tip : BitVec 256) (rest : List CosmosTx),
    it.getNextEVMTx = some (evmTx, tip) → 0 < tip → it.cosmosIterator = tx :: rest →
      it.shouldUseEVM cfg = some true

structure FeesComputed (cfg : IteratorConfig E CosmosTx B) (tx : CosmosTx) : Prop where
  priority : getTxPriority cfg.bondDenom tx ≠ none
  tip : cfg.extractCosmosEffectiveTip tx ≠ none
  ranked : ¬ PaysIn cfg.bondDenom tx → RankedBehind cfg tx

variable {decText : Dec → String} {ctx : FeeContext} {decorators : CosmosDecorators} {tx : CosmosTx}

theorem getTxPriority_ne_none (haccepts : cosmosAnteHandle decText ctx decorators tx false = .ok ())
    (bondDenom : Denom) : getTxPriority bondDenom tx ≠ none := by
  obtain ⟨feeTx, hfeeTx, -, hgas⟩ := Ante.cosmosAnteHandle_spec haccepts
  unfold getTxPriority
  rw [hfeeTx]
  dsimp only
  cases hfind : feeTx.fee.find bondDenom with
  | none => exact Option.some_ne_none 0
  | some coin =>
    have hfee : feeTx.fee ≠ [] := by
      intro hnil
      rw [hnil, Coins.find_nil] at hfind
      exact nomatch hfind
    dsimp only
    rw [if_neg (hgas hfee)]
    exact Option.some_ne_none _

theorem priced_iff_paysIn (haccepts : cosmosAnteHandle decText ctx decorators tx false = .ok ())
    (ethSender : E → Except Err Address) (buildTx : MsgEthereumTx E → Except Err B) (headerBaseFee : Option ℤ) :
    (mempoolConfig ctx.evmDenom ethSender buildTx headerBaseFee).Priced tx ↔ PaysIn ctx.evmDenom tx := by
  obtain ⟨feeTx, hfeeTx, -, hgas⟩ := Ante.cosmosAnteHandle_spec haccepts
  constructor
  · intro hpriced
    exact ⟨feeTx, hfeeTx, (hpriced feeTx hfeeTx).1⟩
  · rintro ⟨paying, hpaying, coin, hmem, hdenom⟩ found hfound
    obtain rfl : feeTx = paying := Option.some.inj (hfeeTx.symm.trans hpaying)
    obtain rfl : feeTx = found := Option.some.inj (hfeeTx.symm.trans hfound)
    exact ⟨⟨coin, hmem, hdenom⟩, hgas (List.ne_nil_of_mem hmem)⟩

def freeContext : FeeContext :=
  { blockHeight := 5
    isCheckTx := true
    minGasPrices := []
    blockGasLimit := 1000000
    isLondon := true
    evmDenom := "aatom"
    baseFee := some (Dec.ofInt 0)
    minGasPrice := Dec.ofInt 0 }

def acceptingDecorators : CosmosDecorators :=
  { setUp := fun _ => .ok ()
    memo := fun _ => .ok ()
    txSize := fun _ => .ok ()
    deductFees := fun _ _ => .ok ()
    signatures := fun _ => .ok () }

def payingTx (denom : Denom) : CosmosTx := ⟨some ⟨[⟨denom, 100⟩], 100⟩, none⟩

theorem accepts_payingTx {denom : Denom} (hdenom : denom = "aatom" ∨ denom = "stake") :
    cosmosAnteHandle (fun _ => "") freeContext acceptingDecorators (payingTx denom) false = .ok () := by
  rcases hdenom with rfl | rfl
  all_goals
    simp only [cosmosAnteHandle, payingTx, acceptingDecorators, Ante.deductFee, Ante.dynamicFeeChecker,
      Ante.feeChecker, Coins.amountOfNoDenomValidation, freeContext, Coins.find_singleton]
    decide

/-- The fee functions do what they are for exactly on those accepted transactions that pay in the EVM
denomination. -/
theorem feesComputed_iff_paysIn (decText : Dec → String) (ctx : FeeContext) (decorators : CosmosDecorators)
    (tx : CosmosTx) (haccepts : cosmosAnteHandle decText ctx decorators tx false = .ok ())
    (ethSender : E → Except Err Address) (buildTx : MsgEthereumTx E → Except Err B) (headerBaseFee : Option ℤ) :
    FeesComputed (mempoolConfig ctx.evmDenom ethSender buildTx headerBaseFee) tx ↔
      PaysIn ctx.evmDenom tx := by
  rw [← priced_iff_paysIn haccepts ethSender buildTx headerBaseFee,
    ← IteratorConfig.extractCosmosEffectiveTip_ne_none_iff]
  constructor
  · exact FeesComputed.tip
  · intro htip
    refine ⟨getTxPriority_ne_none haccepts _, htip, ?_⟩
    intro hunpaid
    rw [IteratorConfig.extractCosmosEffectiveTip_ne_none_iff,
      priced_iff_paysIn haccepts ethSender buildTx headerBaseFee] at htip
    exact absurd htip hunpaid

theorem feesComputed_payingTx :
    FeesComputed (mempoolConfig "aatom" (fun _ : Unit => .ok (bytesToAddress [1])) (fun _ => .ok ()) none)
      (payingTx "aatom") :=
  (feesComputed_iff_paysIn (fun _ => "") freeContext acceptingDecorators (payingTx "aatom")
    (accepts_payingTx (.inl rfl)) _ _ _).2 ⟨_, rfl, _, List.mem_singleton_self _, rfl⟩

/-- The ante handler accepts a fee in the default bond denomination, and the iterator panics on it. -/
theorem stake_fee_panics :
    cosmosAnteHandle (fun _ => "") freeContext acceptingDecorators (payingTx "stake") false = .ok () ∧
      (mempoolConfig "aatom" (fun _ : Unit => .ok (bytesToAddress [1]))
        (fun _ => (.ok () : Except Err Unit)) none).extractCosmosEffectiveTip (payingTx "stake") = none :=
  ⟨accepts_payingTx (.inr rfl), rfl⟩

end CosmosEvm.Mempool
