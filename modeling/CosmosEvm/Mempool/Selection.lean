import CosmosEvm.Mempool.Iterator

namespace CosmosEvm.Mempool

variable {E C B : Type}

/-- A transaction with a fee pays some of it in the bond denomination, and has a gas limit. -/
def IteratorConfig.Priced (cfg : IteratorConfig E C B) (tx : C) : Prop :=
  ∀ feeTx, cfg.feeTx tx = some feeTx → (∃ coin ∈ feeTx.fee, coin.denom = cfg.bondDenom) ∧ feeTx.gas ≠ 0

namespace IteratorConfig

variable {cfg : IteratorConfig E C B} {tx : C}

theorem bondDenomFeeAmount_ne_none_iff {fees : Coins} :
    cfg.bondDenomFeeAmount fees ≠ none ↔ ∃ coin ∈ fees, coin.denom = cfg.bondDenom := by
  have hfold : ∀ amount : Option ℤ,
      fees.foldl (fun amount coin => if coin.denom = cfg.bondDenom then some coin.amount else amount) amount
          ≠ none ↔ amount ≠ none ∨ ∃ coin ∈ fees, coin.denom = cfg.bondDenom := by
    induction fees with
    | nil => simp
    | cons coin fees ih =>
      intro amount
      rw [List.foldl_cons, ih]
      by_cases hdenom : coin.denom = cfg.bondDenom <;> simp [hdenom]
  simpa [bondDenomFeeAmount] using hfold none

theorem extractCosmosEffectiveTip_ne_none_iff :
    cfg.extractCosmosEffectiveTip tx ≠ none ↔ cfg.Priced tx := by
  unfold extractCosmosEffectiveTip Priced
  cases hfee : cfg.feeTx tx with
  | none => simp
  | some feeTx =>
    simp only [Option.some.injEq, forall_eq', ← bondDenomFeeAmount_ne_none_iff]
    cases hamount : cfg.bondDenomFeeAmount feeTx.fee with
    | none => simp
    | some amount =>
      simp only [ne_eq, reduceCtorEq, not_false_eq_true, true_and]
      split_ifs with hgas
      · simp [hgas]
      · refine iff_of_true ?_ hgas
        -- past the division there are only values
        split
        · simp
        · split
          · simp
          · split_ifs <;> simp

end IteratorConfig

namespace EVMMempoolIterator

variable {cfg : IteratorConfig E C B} {it it' : EVMMempoolIterator E C}

def More (it : EVMMempoolIterator E C) : Prop := it.getNextEVMTx ≠ none ∨ it.cosmosIterator ≠ []

def evmOrder (it : EVMMempoolIterator E C) : List (LazyTransaction E) :=
  (it.evmIterator.map (·.order)).getD []

def size (it : EVMMempoolIterator E C) : ℕ :=
  (it.evmIterator.map (·.size)).getD 0 + it.cosmosIterator.length

inductive Advances : EVMMempoolIterator E C → LazyTransaction E ⊕ C → EVMMempoolIterator E C → Prop
  | evm {t : TransactionsByPriceAndNonce E} {tx : LazyTransaction E} {fees : BitVec 256} {cosmos : List C}
      (hpeek : t.peek = some (tx, fees)) : Advances ⟨some t, cosmos⟩ (.inl tx) ⟨some t.shift, cosmos⟩
  | cosmos {evm : Option (TransactionsByPriceAndNonce E)} {tx : C} {cosmos : List C} :
      Advances ⟨evm, tx :: cosmos⟩ (.inr tx) ⟨evm, cosmos⟩

theorem Advances.size_lt {passed : LazyTransaction E ⊕ C} (hadvances : Advances it passed it') :
    it'.size < it.size := by
  cases hadvances with
  | evm hpeek =>
    have hshift := TransactionsByPriceAndNonce.size_shift_lt hpeek
    simp only [size, Option.map_some, Option.getD_some]
    omega
  | cosmos => simp [size]

theorem Advances.evmOrder_eq {passed : LazyTransaction E ⊕ C} (hadvances : Advances it passed it') :
    it.evmOrder = passed.getLeft?.toList ++ it'.evmOrder := by
  cases hadvances with
  | evm hpeek => simp [evmOrder, TransactionsByPriceAndNonce.order_of_peek_eq_some hpeek]
  | cosmos => simp [evmOrder]

theorem Advances.cosmosIterator_eq {passed : LazyTransaction E ⊕ C} (hadvances : Advances it passed it') :
    it.cosmosIterator = passed.getRight?.toList ++ it'.cosmosIterator := by
  cases hadvances with
  | evm hpeek => simp
  | cosmos => simp

theorem evmOrder_of_not_more (hmore : ¬ it.More) : it.evmOrder = [] := by
  have hnone : it.getNextEVMTx = none := by
    by_contra hsome
    exact hmore (.inl hsome)
  unfold evmOrder
  cases hevm : it.evmIterator with
  | none => rfl
  | some t =>
    simp only [getNextEVMTx, hevm, Option.bind_some] at hnone
    exact TransactionsByPriceAndNonce.order_of_peek_eq_none hnone

theorem cosmosIterator_of_not_more (hmore : ¬ it.More) : it.cosmosIterator = [] := by
  by_contra hne
  exact hmore (.inr hne)

def HeadPriced (cfg : IteratorConfig E C B) (it : EVMMempoolIterator E C) : Prop :=
  ∀ tx, it.cosmosIterator.head? = some tx → cfg.Priced tx

theorem getNextCosmosTx_cases (cfg : IteratorConfig E C B) (it : EVMMempoolIterator E C) :
    (it.getNextCosmosTx cfg = none ∧ ¬ it.HeadPriced cfg) ∨
    (it.getNextCosmosTx cfg = some none ∧ it.cosmosIterator = [] ∧ it.HeadPriced cfg) ∨
    ∃ tx rest tip, it.getNextCosmosTx cfg = some (some (tx, tip)) ∧ it.cosmosIterator = tx :: rest ∧
      it.HeadPriced cfg := by
  unfold getNextCosmosTx HeadPriced
  cases hcosmos : it.cosmosIterator with
  | nil => simp
  | cons tx rest =>
    have hpriced : cfg.extractCosmosEffectiveTip tx ≠ none ↔ cfg.Priced tx :=
      IteratorConfig.extractCosmosEffectiveTip_ne_none_iff
    cases htip : cfg.extractCosmosEffectiveTip tx with
    | none =>
      rw [htip] at hpriced
      exact .inl ⟨by simp [htip], fun h => hpriced.2 (h tx rfl) rfl⟩
    | some tip =>
      have hhead : cfg.Priced tx := hpriced.1 (by simp [htip])
      exact .inr (.inr ⟨tx, rest, tip.getD 0, by simp [htip], rfl, by simpa using hhead⟩)

theorem hasMoreTransactions_eq_some_iff {more : Bool} :
    it.hasMoreTransactions cfg = some more ↔ it.HeadPriced cfg ∧ (more = true ↔ it.More) := by
  unfold hasMoreTransactions More
  obtain ⟨hnext, hpriced⟩ | ⟨hnext, hcosmos, hpriced⟩ | ⟨tx, rest, tip, hnext, hcosmos, hpriced⟩ :=
    getNextCosmosTx_cases cfg it
  · simp [hnext, hpriced]
  · cases hevm : it.getNextEVMTx <;> cases more <;> simp [hnext, hcosmos, hpriced]
  · cases more <;> simp [hnext, hcosmos, hpriced]

def yield (cfg : IteratorConfig E C B) : LazyTransaction E ⊕ C → Option (C ⊕ B)
  | .inl tx => (cfg.convertEVMToSDKTx tx).map .inr
  | .inr tx => some (.inl tx)

structure Turn (cfg : IteratorConfig E C B) (it it' : EVMMempoolIterator E C)
    (passed : LazyTransaction E ⊕ C) (returned : Option (C ⊕ B)) : Prop where
  advances : Advances it passed it'
  advance_eq : it.advanceCurrentIterator cfg = some it'
  passed_eq : it.passedTx cfg = some (some passed)
  tx_eq : it.tx cfg = some returned
  yielded : ∀ tx, yield cfg passed = some tx → returned = some tx

theorem exists_turn_evm {t : TransactionsByPriceAndNonce E} {cosmos : List C} {tx : LazyTransaction E}
    {fees : BitVec 256} {nextCosmosTx : Option (C × BitVec 256)} (hpeek : t.peek = some (tx, fees))
    (hnext : getNextCosmosTx cfg (⟨some t, cosmos⟩ : EVMMempoolIterator E C) = some nextCosmosTx)
    (huse : shouldUseEVM cfg ⟨some t, cosmos⟩ = some true) :
    ∃ returned, Turn cfg ⟨some t, cosmos⟩ ⟨some t.shift, cosmos⟩ (.inl tx) returned := by
  have hevm : getNextEVMTx (⟨some t, cosmos⟩ : EVMMempoolIterator E C) = some (tx, fees) := hpeek
  refine ⟨(yield cfg (.inl tx)).or (nextCosmosTx.map fun next => .inl next.1), .evm hpeek, ?_, ?_, ?_, ?_⟩
  · simp [advanceCurrentIterator, huse]
  · simp [passedTx, huse, hevm]
  · unfold EVMMempoolIterator.tx getPreferredTransaction yield
    cases hconvert : cfg.convertEVMToSDKTx tx <;> simp [hnext, hevm, huse, hconvert, Function.comp_def]
  · intro yielded hyield
    rw [hyield, Option.some_or]

theorem exists_turn_cosmos {evm : Option (TransactionsByPriceAndNonce E)} {tx : C} {rest : List C}
    {tip : BitVec 256}
    (hnext : getNextCosmosTx cfg (⟨evm, tx :: rest⟩ : EVMMempoolIterator E C) = some (some (tx, tip)))
    (huse : shouldUseEVM cfg ⟨evm, tx :: rest⟩ = some false) :
    ∃ returned, Turn cfg ⟨evm, tx :: rest⟩ ⟨evm, rest⟩ (.inr tx) returned := by
  refine ⟨some (.inl tx), .cosmos, ?_, ?_, ?_, ?_⟩
  · simp [advanceCurrentIterator, huse]
  · simp [passedTx, huse]
  · simp [EVMMempoolIterator.tx, getPreferredTransaction, hnext, huse]
  · intro yielded hyield
    exact hyield

theorem shouldUseEVM_cases {nextCosmosTx : Option (C × BitVec 256)}
    (hnext : it.getNextCosmosTx cfg = some nextCosmosTx) :
    (∃ tx fees, it.getNextEVMTx = some (tx, fees) ∧ it.shouldUseEVM cfg = some true) ∨
    (it.shouldUseEVM cfg = some false ∧ (it.getNextEVMTx = none ∨ nextCosmosTx ≠ none)) := by
  unfold shouldUseEVM
  cases hevm : it.getNextEVMTx with
  | none => exact .inr ⟨by simp [hnext], .inl rfl⟩
  | some best =>
    cases nextCosmosTx with
    | none => exact .inl ⟨best.1, best.2, rfl, by simp [hnext]⟩
    | some next =>
      cases hchoice : decide (next.2 = 0) || !decide (best.2 < next.2) with
      | true => exact .inl ⟨best.1, best.2, rfl, by rw [hnext]; exact congrArg some hchoice⟩
      | false => exact .inr ⟨by rw [hnext]; exact congrArg some hchoice, .inr (by simp)⟩

theorem exists_turn (hmore : it.More) (hpriced : it.HeadPriced cfg) :
    ∃ it' passed returned, Turn cfg it it' passed returned := by
  obtain ⟨evm, cosmos⟩ := it
  obtain ⟨nextCosmosTx, hnext⟩ : ∃ next, getNextCosmosTx cfg ⟨evm, cosmos⟩ = some next := by
    obtain ⟨-, hnot⟩ | ⟨hnext, -, -⟩ | ⟨tx, rest, tip, hnext, -, -⟩ := getNextCosmosTx_cases cfg ⟨evm, cosmos⟩
    · exact absurd hpriced hnot
    · exact ⟨_, hnext⟩
    · exact ⟨_, hnext⟩
  obtain ⟨tx, fees, hevm, huse⟩ | ⟨huse, hside⟩ := shouldUseEVM_cases hnext
  · obtain ⟨t, rfl, hpeek⟩ := Option.bind_eq_some_iff.1 hevm
    obtain ⟨returned, hturn⟩ := exists_turn_evm hpeek hnext huse
    exact ⟨_, _, returned, hturn⟩
  · obtain ⟨hnone, -⟩ | ⟨hnil, hcosmos, -⟩ | ⟨tx, rest, tip, hsome, hcosmos, -⟩ :=
      getNextCosmosTx_cases cfg ⟨evm, cosmos⟩
    · rw [hnone] at hnext
      cases hnext
    · -- without a Cosmos transaction there is an EVM transaction, and that one is used
      rw [hnil] at hnext
      obtain rfl : none = nextCosmosTx := Option.some.inj hnext
      obtain hevm | hne := hmore
      · exact absurd (hside.resolve_right (fun h => h rfl)) hevm
      · exact absurd hcosmos hne
    · obtain rfl : cosmos = tx :: rest := hcosmos
      obtain ⟨returned, hturn⟩ := exists_turn_cosmos hsome huse
      exact ⟨_, _, returned, hturn⟩

theorem Turn.headPriced {passed : LazyTransaction E ⊕ C} {returned : Option (C ⊕ B)}
    (hturn : Turn cfg it it' passed returned) : it.HeadPriced cfg := by
  obtain ⟨hnext, -⟩ | ⟨-, -, hpriced⟩ | ⟨tx, rest, tip, -, -, hpriced⟩ := getNextCosmosTx_cases cfg it
  · have htx := hturn.tx_eq
    simp [EVMMempoolIterator.tx, hnext] at htx
  · exact hpriced
  · exact hpriced

theorem Turn.next_eq {passed : LazyTransaction E ⊕ C} {returned : Option (C ⊕ B)}
    (hturn : Turn cfg it it' passed returned) (hmore : it.More) :
    it.next cfg = (it'.hasMoreTransactions cfg).map fun more => if more then some it' else none := by
  have hnone : it.getNextCosmosTx cfg = some none → it.getNextEVMTx ≠ none := by
    intro hnext
    obtain ⟨hnot, -⟩ | ⟨-, hcosmos, -⟩ | ⟨tx, rest, tip, hsome, -, -⟩ := getNextCosmosTx_cases cfg it
    · rw [hnext] at hnot; cases hnot
    · exact hmore.resolve_right (fun h => h hcosmos)
    · rw [hnext] at hsome; cases hsome
  unfold next
  cases hnext : it.getNextCosmosTx cfg with
  | none =>
    have htx := hturn.tx_eq
    simp [EVMMempoolIterator.tx, hnext] at htx
  | some nextCosmosTx =>
    have hsome : (it.getNextEVMTx.isNone && nextCosmosTx.isNone) = false := by
      cases nextCosmosTx with
      | none => simpa [Option.isSome_iff_ne_none] using hnone hnext
      | some next => simp
    simp only [Option.bind_eq_bind, Option.bind_some, hsome, hturn.advance_eq]
    cases it'.hasMoreTransactions cfg <;> rfl

theorem headPriced_of_next {it₁ : Option (EVMMempoolIterator E C)} (hnext : it.next cfg = some it₁) :
    it.HeadPriced cfg := by
  obtain ⟨hnone, -⟩ | ⟨-, -, hpriced⟩ | ⟨tx, rest, tip, -, -, hpriced⟩ := getNextCosmosTx_cases cfg it
  · simp [next, hnone] at hnext
  · exact hpriced
  · exact hpriced

theorem more_of_next (hnext : it.next cfg = some (some it')) : it.More := by
  by_contra hmore
  have hevm : it.getNextEVMTx = none := by
    by_contra hsome
    exact hmore (.inl hsome)
  have hcosmos : it.getNextCosmosTx cfg = some none := by
    simp [getNextCosmosTx, cosmosIterator_of_not_more hmore]
  simp [next, hcosmos, hevm] at hnext

theorem size_next_lt (hnext : it.next cfg = some (some it')) : it'.size < it.size := by
  obtain ⟨it₁, passed, returned, hturn⟩ := exists_turn (more_of_next hnext) (headPriced_of_next hnext)
  rw [hturn.next_eq (more_of_next hnext), Option.map_eq_some_iff] at hnext
  obtain ⟨more, -, heq⟩ := hnext
  cases more with
  | false => cases heq
  | true =>
    rw [← Option.some.inj heq]
    exact hturn.advances.size_lt

end EVMMempoolIterator

structure Step (E C B : Type) where
  returned : Option (C ⊕ B)
  passed : Option (LazyTransaction E ⊕ C)
deriving DecidableEq

namespace EVMMempoolIterator

variable (cfg : IteratorConfig E C B)

/-- `Tx` and then `Next`, until `Next` is nil. There is no result when one of them panics. -/
def iterate (it : EVMMempoolIterator E C) : Option (List (Step E C B)) :=
  match it.tx cfg, it.passedTx cfg, _hnext : it.next cfg with
  | some returned, some passed, some none => some [⟨returned, passed⟩]
  | some returned, some passed, some (some it') => (it'.iterate).map (⟨returned, passed⟩ :: ·)
  | _, _, _ => none
termination_by it.size
decreasing_by exact size_next_lt _hnext

end EVMMempoolIterator

def iterateAll (cfg : IteratorConfig E C B) (evmIterator : Option (TransactionsByPriceAndNonce E))
    (cosmosIterator : List C) : Option (List (Step E C B)) :=
  match newEVMMempoolIterator evmIterator cosmosIterator with
  | none => some []
  | some it => it.iterate cfg

namespace EVMMempoolIterator

variable {cfg : IteratorConfig E C B} {it it' : EVMMempoolIterator E C}

theorem Turn.iterate_eq {passed : LazyTransaction E ⊕ C} {returned : Option (C ⊕ B)}
    (hturn : Turn cfg it it' passed returned) (hmore : it.More) (hmore' : it'.More)
    (hpriced : it'.HeadPriced cfg) :
    it.iterate cfg = (it'.iterate cfg).map (⟨returned, some passed⟩ :: ·) := by
  have hnext : it.next cfg = some (some it') := by
    rw [hturn.next_eq hmore, hasMoreTransactions_eq_some_iff.2 ⟨hpriced, iff_of_true rfl hmore'⟩]
    rfl
  rw [iterate]
  split
  · next hnone => rw [hnext] at hnone; cases hnone
  · next r p it₁ htx hpassed hit =>
    rw [hnext] at hit
    rw [hturn.tx_eq] at htx
    rw [hturn.passed_eq] at hpassed
    obtain rfl := Option.some.inj (Option.some.inj hit)
    rw [← Option.some.inj htx, ← Option.some.inj hpassed]
  · next hno hno' => exact absurd hnext (hno' _ _ _ hturn.tx_eq hturn.passed_eq)

theorem Turn.iterate_eq_of_not_more {passed : LazyTransaction E ⊕ C} {returned : Option (C ⊕ B)}
    (hturn : Turn cfg it it' passed returned) (hmore : it.More) (hmore' : ¬ it'.More) :
    it.iterate cfg = some [⟨returned, some passed⟩] := by
  have hpriced : it'.HeadPriced cfg := by
    intro tx hhead
    rw [cosmosIterator_of_not_more hmore'] at hhead
    cases hhead
  have hnext : it.next cfg = some none := by
    rw [hturn.next_eq hmore, hasMoreTransactions_eq_some_iff.2 ⟨hpriced, iff_of_false Bool.false_ne_true hmore'⟩]
    rfl
  rw [iterate]
  split
  · next r p htx hpassed hit =>
    rw [hturn.tx_eq] at htx
    rw [hturn.passed_eq] at hpassed
    rw [← Option.some.inj htx, ← Option.some.inj hpassed]
  · next hsome => rw [hnext] at hsome; cases hsome
  · next hno hno' => exact absurd hnext (hno _ _ hturn.tx_eq hturn.passed_eq)

theorem exists_next_of_iterate {steps : List (Step E C B)} (hiterate : it.iterate cfg = some steps) :
    ∃ it₁, it.next cfg = some it₁ := by
  rw [iterate] at hiterate
  split at hiterate
  · next hnext => exact ⟨_, hnext⟩
  · next hnext => exact ⟨_, hnext⟩
  · cases hiterate

/-- `Tx` had returned the transaction that the round went past if it can be put into a block. -/
def Shows (cfg : IteratorConfig E C B) (step : Step E C B) : Prop :=
  ∀ passed, step.passed = some passed → ∀ tx, yield cfg passed = some tx → step.returned = some tx

structure Drains (cfg : IteratorConfig E C B) (it : EVMMempoolIterator E C) (steps : List (Step E C B))
    (merged : List (LazyTransaction E ⊕ C)) : Prop where
  passed_eq : steps.map (·.passed) = merged.map some
  shows : ∀ step ∈ steps, Shows cfg step
  evm_eq : merged.filterMap Sum.getLeft? = it.evmOrder
  cosmos_eq : merged.filterMap Sum.getRight? = it.cosmosIterator
  priced : ∀ tx ∈ it.cosmosIterator, cfg.Priced tx

theorem drains_nil (hmore : ¬ it.More) : Drains cfg it [] [] := by
  have hcosmos := cosmosIterator_of_not_more hmore
  refine ⟨rfl, ?_, (evmOrder_of_not_more hmore).symm, hcosmos.symm, ?_⟩
  · intro step hmem
    cases hmem
  · rw [hcosmos]
    intro tx hmem
    cases hmem

theorem Turn.drains_cons {passed : LazyTransaction E ⊕ C} {returned : Option (C ⊕ B)}
    {steps : List (Step E C B)} {merged : List (LazyTransaction E ⊕ C)}
    (hturn : Turn cfg it it' passed returned) (hdrains : Drains cfg it' steps merged) :
    Drains cfg it (⟨returned, some passed⟩ :: steps) (passed :: merged) := by
  refine ⟨?_, ?_, ?_, ?_, ?_⟩
  · rw [List.map_cons, List.map_cons, hdrains.passed_eq]
  · refine List.forall_mem_cons.2 ⟨?_, hdrains.shows⟩
    intro passed' hpassed tx hyield
    cases hpassed
    exact hturn.yielded tx hyield
  · rw [hturn.advances.evmOrder_eq, ← hdrains.evm_eq]
    cases passed <;> rfl
  · rw [hturn.advances.cosmosIterator_eq, ← hdrains.cosmos_eq]
    cases passed <;> rfl
  · intro tx hmem
    rw [hturn.advances.cosmosIterator_eq, List.mem_append] at hmem
    obtain hcurrent | hlater := hmem
    · apply hturn.headPriced
      rw [hturn.advances.cosmosIterator_eq, Option.mem_toList.1 hcurrent]
      rfl
    · exact hdrains.priced tx hlater

theorem drains_of_iterate {steps : List (Step E C B)} (hmore : it.More)
    (hiterate : it.iterate cfg = some steps) : ∃ merged, Drains cfg it steps merged := by
  induction hsize : it.size using Nat.strong_induction_on generalizing it steps with
  | _ size ih =>
    obtain ⟨it₁, hnext⟩ := exists_next_of_iterate hiterate
    obtain ⟨it', passed, returned, hturn⟩ := exists_turn hmore (headPriced_of_next hnext)
    by_cases hmore' : it'.More
    · have hpriced : it'.HeadPriced cfg := by
        rw [hturn.next_eq hmore, Option.map_eq_some_iff] at hnext
        obtain ⟨more, hhas, -⟩ := hnext
        exact (hasMoreTransactions_eq_some_iff.1 hhas).1
      rw [hturn.iterate_eq hmore hmore' hpriced, Option.map_eq_some_iff] at hiterate
      obtain ⟨rest, hrest, rfl⟩ := hiterate
      obtain ⟨merged, hdrains⟩ := ih _ (hsize ▸ hturn.advances.size_lt) hmore' hrest rfl
      exact ⟨_, hturn.drains_cons hdrains⟩
    · rw [hturn.iterate_eq_of_not_more hmore hmore'] at hiterate
      rw [← Option.some.inj hiterate]
      exact ⟨_, hturn.drains_cons (drains_nil hmore')⟩

theorem exists_iterate (hmore : it.More) (hpriced : ∀ tx ∈ it.cosmosIterator, cfg.Priced tx) :
    ∃ steps, it.iterate cfg = some steps := by
  induction hsize : it.size using Nat.strong_induction_on generalizing it with
  | _ size ih =>
    have hhead : ∀ {it : EVMMempoolIterator E C}, (∀ tx ∈ it.cosmosIterator, cfg.Priced tx) →
        it.HeadPriced cfg := fun hall tx htx => hall tx (List.mem_of_head? htx)
    obtain ⟨it', passed, returned, hturn⟩ := exists_turn hmore (hhead hpriced)
    by_cases hmore' : it'.More
    · have hpriced' : ∀ tx ∈ it'.cosmosIterator, cfg.Priced tx := by
        intro tx hmem
        apply hpriced
        rw [hturn.advances.cosmosIterator_eq]
        exact List.mem_append_right _ hmem
      obtain ⟨rest, hrest⟩ := ih _ (hsize ▸ hturn.advances.size_lt) hmore' hpriced' rfl
      exact ⟨_, by rw [hturn.iterate_eq hmore hmore' (hhead hpriced'), hrest]; rfl⟩
    · exact ⟨_, hturn.iterate_eq_of_not_more hmore hmore'⟩

end EVMMempoolIterator

structure YieldsOnce (cfg : IteratorConfig E C B) (evmTxs : List (LazyTransaction E)) (cosmosTxs : List C)
    (steps : List (Step E C B)) : Prop where
  cosmos_eq : steps.filterMap (·.returned.bind Sum.getLeft?) = cosmosTxs
  evm_eq : steps.filterMap (·.returned.bind Sum.getRight?) = evmTxs.filterMap cfg.convertEVMToSDKTx
  returned_ne_nil : ∀ step ∈ steps, step.returned ≠ none
  nodup : cosmosTxs.Nodup → (evmTxs.filterMap cfg.convertEVMToSDKTx).Nodup → (steps.map (·.returned)).Nodup
  passed_eq : ∀ step ∈ steps, ∃ passed, step.passed = some passed ∧
    step.returned = EVMMempoolIterator.yield cfg passed

theorem nodup_of_filterMap {l : List (Option (C ⊕ B))} (hne : ∀ tx ∈ l, tx ≠ none)
    (hleft : (l.filterMap (·.bind Sum.getLeft?)).Nodup)
    (hright : (l.filterMap (·.bind Sum.getRight?)).Nodup) : l.Nodup := by
  induction l with
  | nil => exact List.nodup_nil
  | cons tx l ih =>
    obtain ⟨htx, hrest⟩ := List.forall_mem_cons.1 hne
    rcases tx with _ | tx | tx
    · exact absurd rfl htx
    · have hleft : (tx :: l.filterMap (·.bind Sum.getLeft?)).Nodup := hleft
      refine List.nodup_cons.2 ⟨fun hmem => ?_, ih hrest (List.nodup_cons.1 hleft).2 hright⟩
      exact (List.nodup_cons.1 hleft).1 (List.mem_filterMap.2 ⟨_, hmem, rfl⟩)
    · have hright : (tx :: l.filterMap (·.bind Sum.getRight?)).Nodup := hright
      refine List.nodup_cons.2 ⟨fun hmem => ?_, ih hrest hleft (List.nodup_cons.1 hright).2⟩
      exact (List.nodup_cons.1 hright).1 (List.mem_filterMap.2 ⟨_, hmem, rfl⟩)

namespace EVMMempoolIterator

variable {cfg : IteratorConfig E C B} {it : EVMMempoolIterator E C} {steps : List (Step E C B)}
  {merged : List (LazyTransaction E ⊕ C)}

theorem Drains.exists_passed (hdrains : Drains cfg it steps merged) {step : Step E C B}
    (hstep : step ∈ steps) : ∃ passed ∈ merged, step.passed = some passed := by
  have hmem : step.passed ∈ merged.map some := hdrains.passed_eq ▸ List.mem_map_of_mem hstep
  obtain ⟨passed, hpassed, heq⟩ := List.mem_map.1 hmem
  exact ⟨passed, hpassed, heq.symm⟩

theorem Drains.returned_eq (hdrains : Drains cfg it steps merged)
    (hyield : ∀ passed ∈ merged, yield cfg passed ≠ none) {step : Step E C B} (hstep : step ∈ steps) :
    step.returned = step.passed.bind (yield cfg) := by
  obtain ⟨passed, hmem, hpassed⟩ := hdrains.exists_passed hstep
  obtain ⟨tx, htx⟩ := Option.ne_none_iff_exists'.1 (hyield passed hmem)
  rw [hdrains.shows step hstep passed hpassed tx htx, hpassed, Option.bind_some, htx]

/-- Each round passes the next transaction of one side, and shows it if it converts. -/
theorem Drains.yieldsOnce (hdrains : Drains cfg it steps merged)
    (hyield : ∀ passed ∈ merged, yield cfg passed ≠ none) :
    YieldsOnce cfg it.evmOrder it.cosmosIterator steps := by
  have hreturned : steps.map (·.returned) = merged.map (yield cfg) := by
    calc steps.map (·.returned)
        = steps.map (fun step => step.passed.bind (yield cfg)) :=
          List.map_congr_left fun step hstep => hdrains.returned_eq hyield hstep
      _ = (steps.map (·.passed)).map (·.bind (yield cfg)) := by rw [List.map_map]; rfl
      _ = merged.map (yield cfg) := by rw [hdrains.passed_eq, List.map_map]; rfl
  have hcosmos : (steps.map (·.returned)).filterMap (·.bind Sum.getLeft?) = it.cosmosIterator := by
    rw [hreturned, List.filterMap_map, ← hdrains.cosmos_eq]
    congr 1
    funext passed
    cases passed with
    | inl tx => cases hconvert : cfg.convertEVMToSDKTx tx <;> simp [yield, hconvert]
    | inr tx => rfl
  have hevm : (steps.map (·.returned)).filterMap (·.bind Sum.getRight?) =
      it.evmOrder.filterMap cfg.convertEVMToSDKTx := by
    rw [hreturned, List.filterMap_map, ← hdrains.evm_eq, List.filterMap_filterMap]
    congr 1
    funext passed
    cases passed with
    | inl tx => cases hconvert : cfg.convertEVMToSDKTx tx <;> simp [yield, hconvert]
    | inr tx => rfl
  have hne : ∀ returned ∈ steps.map (·.returned), returned ≠ none := by
    rw [hreturned]
    intro returned hmem
    obtain ⟨passed, hpassed, rfl⟩ := List.mem_map.1 hmem
    exact hyield passed hpassed
  refine ⟨?_, ?_, ?_, ?_, ?_⟩
  · rw [← hcosmos, List.filterMap_map]
    rfl
  · rw [← hevm, List.filterMap_map]
    rfl
  · intro step hmem
    exact hne _ (List.mem_map_of_mem hmem)
  · intro hleft hright
    exact nodup_of_filterMap hne (hcosmos ▸ hleft) (hevm ▸ hright)
  · intro step hstep
    obtain ⟨passed, -, hpassed⟩ := hdrains.exists_passed hstep
    refine ⟨passed, hpassed, ?_⟩
    rw [hdrains.returned_eq hyield hstep, hpassed, Option.bind_some]

theorem Drains.converts (hdrains : Drains cfg it steps merged)
    (hyields : YieldsOnce cfg it.evmOrder it.cosmosIterator steps) :
    ∀ tx ∈ it.evmOrder, cfg.convertEVMToSDKTx tx ≠ none := by
  intro tx htx
  rw [← hdrains.evm_eq, List.mem_filterMap] at htx
  obtain ⟨passed, hpassed, hleft⟩ := htx
  have hmem : some passed ∈ steps.map (·.passed) := hdrains.passed_eq ▸ List.mem_map_of_mem hpassed
  obtain ⟨step, hstep, heq⟩ := List.mem_map.1 hmem
  obtain ⟨passed', hpassed', hreturned⟩ := hyields.passed_eq step hstep
  obtain rfl : passed = passed' := Option.some.inj (heq.symm.trans hpassed')
  obtain rfl : passed = .inl tx := Sum.getLeft?_eq_some_iff.1 hleft
  intro hnone
  apply hyields.returned_ne_nil step hstep
  rw [hreturned, yield, hnone, Option.map_none]

end EVMMempoolIterator

theorem newEVMMempoolIterator_eq (evmIterator : Option (TransactionsByPriceAndNonce E))
    (cosmosIterator : List C) :
    ((⟨evmIterator, cosmosIterator⟩ : EVMMempoolIterator E C).More ∧
      newEVMMempoolIterator evmIterator cosmosIterator = some ⟨evmIterator, cosmosIterator⟩) ∨
    (¬ (⟨evmIterator, cosmosIterator⟩ : EVMMempoolIterator E C).More ∧
      newEVMMempoolIterator evmIterator cosmosIterator = none) := by
  have hevm : (evmIterator.any fun t => !t.empty) = (evmIterator.bind (·.peek)).isSome := by
    cases evmIterator with
    | none => rfl
    | some t =>
      simp only [Option.any_some, Option.bind_some, TransactionsByPriceAndNonce.empty,
        TransactionsByPriceAndNonce.peek, Option.isSome_map]
      cases hheads : t.heads[0]? with
      | none => simp_all
      | some head =>
        have hne : t.heads ≠ #[] := by
          intro hempty
          rw [hempty] at hheads
          cases hheads
        simp [hne]
  unfold newEVMMempoolIterator EVMMempoolIterator.More EVMMempoolIterator.getNextEVMTx
  rw [hevm]
  cases evmIterator.bind (·.peek) <;> cases cosmosIterator <;> simp

/-- An iteration yields every transaction once exactly when every EVM transaction converts and the tip of
every Cosmos transaction can be computed. -/
theorem yieldsOnce_iff (cfg : IteratorConfig E C B) (evmIterator : Option (TransactionsByPriceAndNonce E))
    (cosmosIterator : List C) :
    (∃ steps, iterateAll cfg evmIterator cosmosIterator = some steps ∧
      YieldsOnce cfg ((evmIterator.map (·.order)).getD []) cosmosIterator steps) ↔
    (∀ tx ∈ (evmIterator.map (·.order)).getD [], cfg.convertEVMToSDKTx tx ≠ none) ∧
      ∀ tx ∈ cosmosIterator, cfg.Priced tx := by
  obtain ⟨hmore, hnew⟩ | ⟨hmore, hnew⟩ := newEVMMempoolIterator_eq evmIterator cosmosIterator
  · simp only [iterateAll, hnew]
    constructor
    · rintro ⟨steps, hiterate, hyields⟩
      obtain ⟨merged, hdrains⟩ := EVMMempoolIterator.drains_of_iterate hmore hiterate
      exact ⟨hdrains.converts hyields, hdrains.priced⟩
    · rintro ⟨hconverts, hpriced⟩
      obtain ⟨steps, hiterate⟩ := EVMMempoolIterator.exists_iterate hmore hpriced
      obtain ⟨merged, hdrains⟩ := EVMMempoolIterator.drains_of_iterate hmore hiterate
      refine ⟨steps, hiterate, hdrains.yieldsOnce ?_⟩
      rintro (tx | tx) hmem
      · have htx : tx ∈ EVMMempoolIterator.evmOrder ⟨evmIterator, cosmosIterator⟩ := by
          rw [← hdrains.evm_eq]
          exact List.mem_filterMap.2 ⟨_, hmem, rfl⟩
        simpa [EVMMempoolIterator.yield] using hconverts tx htx
      · simp [EVMMempoolIterator.yield]
  · have hevm : (evmIterator.map (·.order)).getD [] = [] := EVMMempoolIterator.evmOrder_of_not_more hmore
    have hcosmos : cosmosIterator = [] := EVMMempoolIterator.cosmosIterator_of_not_more hmore
    have hrun : iterateAll cfg evmIterator cosmosIterator = some [] := by simp only [iterateAll, hnew]
    rw [hevm, hrun, hcosmos]
    refine iff_of_true ⟨[], rfl, rfl, rfl, ?_, ?_, ?_⟩ ⟨?_, ?_⟩ <;> simp

def unsignedPool : TransactionsByPriceAndNonce Unit :=
  { txs := fun _ => [], heads := #[⟨⟨(), 0, 5, 5⟩, bytesToAddress [1], 5⟩], baseFee := none }

def unsignedConfig : IteratorConfig Unit Unit Unit :=
  { bondDenom := "aatom"
    ethSender := fun _ => .error (.wrapped .other "invalid transaction v, r, s values")
    buildTx := fun _ => .ok ()
    feeTx := fun _ => some ⟨[⟨"aatom", 100⟩], 100⟩
    headerBaseFee := none }

/-- The one Cosmos transaction is returned twice, the first time as `Next` moves past the EVM transaction. -/
theorem cosmos_tx_returned_twice :
    iterateAll unsignedConfig (some unsignedPool) [()] =
        some [⟨some (.inl ()), some (.inl ⟨(), 0, 5, 5⟩)⟩, ⟨some (.inl ()), some (.inr ())⟩] ∧
      ∀ steps, iterateAll unsignedConfig (some unsignedPool) [()] = some steps →
        ¬ YieldsOnce unsignedConfig unsignedPool.order [()] steps := by
  have hrun : iterateAll unsignedConfig (some unsignedPool) [()] =
      some [⟨some (.inl ()), some (.inl ⟨(), 0, 5, 5⟩)⟩, ⟨some (.inl ()), some (.inr ())⟩] := by
    decide +kernel
  refine ⟨hrun, ?_⟩
  intro steps hsteps hyields
  rw [hrun] at hsteps
  cases hsteps
  exact absurd hyields.cosmos_eq (by decide)

end CosmosEvm.Mempool
