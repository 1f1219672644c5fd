import CosmosEvm.Ante.Sufficient

namespace CosmosEvm

namespace Vm

open Result Statedb

section Gas

variable {σ : Type} {env : Env σ} {cfg : EvmConfig} {ctx ctx' : Context σ} {msg : Message}
  {result : ExecutionResult σ}

theorem gasToRefund_le (availableRefund gasConsumed refundQuotient : ℕ) :
    gasToRefund availableRefund gasConsumed refundQuotient ≤ gasConsumed := by
  have hquotient : gasConsumed / refundQuotient ≤ gasConsumed := Nat.div_le_self _ _
  unfold gasToRefund
  simp only
  split <;> omega

theorem truncateInt_minimumGasUsed_bounds (gasLimit : UInt64) {minGasMultiplier : Dec}
    (hnonneg : 0 ≤ minGasMultiplier.raw) (hle : minGasMultiplier.raw ≤ Dec.precision) :
    0 ≤ (minimumGasUsed gasLimit minGasMultiplier).truncateInt ∧
      (minimumGasUsed gasLimit minGasMultiplier).truncateInt ≤ gasLimit.toNat := by
  have hgas : (0 : ℤ) ≤ gasLimit.toNat := Int.natCast_nonneg _
  rw [truncateInt_minimumGasUsed]
  constructor
  · exact Int.tdiv_nonneg (mul_nonneg hgas hnonneg) Dec.precision_pos.le
  · calc Dec.truncateInt ⟨gasLimit.toNat * minGasMultiplier.raw⟩
        ≤ (Dec.ofInt gasLimit.toNat).truncateInt :=
          Dec.truncateInt_mono (mul_le_mul_of_nonneg_left hle hgas)
      _ = gasLimit.toNat := Dec.truncateInt_ofInt _

/-- The gas used is the floor of the multiplier at least, and never more than the limit. -/
theorem exists_settle (ctx : Context σ) (msg : Message) (hlimit : msg.gasLimit.toNat < 2 ^ 63)
    (hnonneg : 0 ≤ cfg.minGasMultiplier.raw)
    (hle : cfg.minGasMultiplier.raw ≤ Dec.precision)
    (hleftover : result.leftoverGas.toNat ≤ msg.gasLimit.toNat)
    (hcommit : result.stateDB.commit env = .ok ctx') :
    ∃ res, settle env cfg ctx msg true false result = .ok (res, ctx') ∧
      msg.gasLimit.toNat * cfg.minGasMultiplier.raw / Dec.precision ≤ res.gasUsed ∧
      res.gasUsed ≤ msg.gasLimit.toNat := by
  obtain ⟨hminimum, hminimum'⟩ := truncateInt_minimumGasUsed_bounds msg.gasLimit hnonneg hle
  have hrefunded : refundedGas cfg msg false result ≤ msg.gasLimit.toNat - result.leftoverGas.toNat :=
    gasToRefund_le _ _ _
  have hused : temporaryGasUsed cfg msg false result ≤ msg.gasLimit.toNat := by
    unfold temporaryGasUsed
    omega
  have hint : toInt64 (temporaryGasUsed cfg msg false result) = temporaryGasUsed cfg msg false result :=
    if_pos (hused.trans_lt hlimit)
  have hcharged : (chargedGas (temporaryGasUsed cfg msg false result)
      (minimumGasUsed msg.gasLimit cfg.minGasMultiplier) false).truncateInt =
        max (temporaryGasUsed cfg msg false result : ℤ)
          (minimumGasUsed msg.gasLimit cfg.minGasMultiplier).truncateInt := by
    unfold chargedGas
    simp only [Bool.false_eq_true, if_false]
    rw [Dec.truncateInt_max, Dec.truncateInt_ofInt, hint]
  have hmax : 0 ≤ max (temporaryGasUsed cfg msg false result : ℤ)
      (minimumGasUsed msg.gasLimit cfg.minGasMultiplier).truncateInt := le_max_of_le_right hminimum
  have hmax' : max (temporaryGasUsed cfg msg false result : ℤ)
      (minimumGasUsed msg.gasLimit cfg.minGasMultiplier).truncateInt ≤ msg.gasLimit.toNat :=
    max_le (Int.ofNat_le.mpr hused) hminimum'
  have hcommitted : committed env ctx true result.stateDB = .ok ctx' := by
    unfold committed
    rw [if_pos rfl, mapError_eq_ok_iff]
    exact hcommit
  have hover : ¬ msg.gasLimit < result.leftoverGas := by
    rw [UInt64.lt_iff_toNat_lt]
    omega
  have hrange : ¬ ((minimumGasUsed msg.gasLimit cfg.minGasMultiplier).truncateInt < 0 ∨
      2 ^ 64 ≤ (minimumGasUsed msg.gasLimit cfg.minGasMultiplier).truncateInt) := by omega
  have hsum : ¬ msg.gasLimit.toNat < result.leftoverGas.toNat + refundedGas cfg msg false result := by
    omega
  refine ⟨⟨(max (temporaryGasUsed cfg msg false result : ℤ)
    (minimumGasUsed msg.gasLimit cfg.minGasMultiplier).truncateInt).toNat,
    msg.gasLimit.toNat - result.leftoverGas.toNat, result.vmErr, result.ret, result.stateDB.logs⟩,
    ?_, ?_, ?_⟩
  · unfold settle
    rw [if_neg hover, bind_eq_ok_iff]
    refine ⟨ctx', hcommitted, ?_⟩
    simp only [if_neg hrange, if_neg hsum, hcharged]
    rw [if_neg (by omega)]
  · rw [Int.toNat_of_nonneg hmax]
    refine le_max_of_le_right (le_of_eq ?_)
    rw [truncateInt_minimumGasUsed, Dec.truncateInt_of_nonneg (mul_nonneg (Int.natCast_nonneg _) hnonneg)]
  · exact Int.toNat_le.mpr hmax'

end Gas

namespace Keeper

open BankKeeper PreciseBank.Keeper

variable {S Acc : Type} {k : Keeper S Acc} {ctx ctx' : Ctx S} {msg : Message}
  {leftoverGas : ℕ} {collector : ModuleAccount}

theorem exists_refundGas (msg : Message) (leftoverGas : ℕ) (hwired : k.Wired)
    (hbacked : Backed k.bank ctx)
    (hcollector : k.bank.modules.getModuleAccount feeCollectorName = some collector)
    (hblocked : k.bank.bk.blockedAddr msg.sender.bytes = false) (hprice : 0 ≤ msg.gasPrice)
    (hfunds : msg.sender.bytes ≠ collector.address → leftoverGas * msg.gasPrice ≤
      k.bank.spendableCoin ctx collector.address k.bank.extendedCoinDenom) :
    ∃ ctx', k.refundGas ctx msg leftoverGas = .ok ctx' := by
  have hnonneg : 0 ≤ (leftoverGas : ℤ) * msg.gasPrice := mul_nonneg (Int.natCast_nonneg _) hprice
  have hreserve := module_address_ne_reserve feeCollectorName_ne hcollector
  unfold refundGas
  simp only [if_neg (not_lt.mpr hnonneg)]
  by_cases hpos : 0 < (leftoverGas : ℤ) * msg.gasPrice
  · simp only [if_pos hpos, mapError_eq_ok_iff, PreciseBank.Keeper.sendCoinsFromModuleToAccount,
      hcollector, if_neg feeCollectorName_ne, hblocked, Bool.false_eq_true, if_false,
      evmCoins_eq hpos, sendCoins_extendedCoins hpos.le]
    by_cases hself : msg.sender.bytes = collector.address
    · rw [hself, sendExtendedCoins_self hreserve]
      exact ⟨ctx, rfl⟩
    · have hsender : msg.sender.bytes ≠ k.bank.reserve.address := by
        intro heq
        rw [heq, hwired.reserve_blocked] at hblocked
        cases hblocked
      exact (exists_sendExtendedCoins_iff hwired.bank hbacked.coversCarries hreserve hsender (Ne.symm hself)
        collector.address_ne_nil (Ante.address_bytes_ne_nil _) hnonneg).mpr (hfunds hself)
  · rw [if_neg hpos]
    exact ⟨ctx, rfl⟩

theorem spendableCoin_refundGas (hwired : k.Wired) (hbacked : Backed k.bank ctx)
    (hcollector : k.bank.modules.getModuleAccount feeCollectorName = some collector)
    (hblocked : k.bank.bk.blockedAddr msg.sender.bytes = false)
    (hok : k.refundGas ctx msg leftoverGas = .ok ctx') (a : AccAddress) :
    k.bank.spendableCoin ctx' a k.bank.extendedCoinDenom =
      k.bank.spendableCoin ctx a k.bank.extendedCoinDenom +
        (weightOf a msg.sender.bytes - weightOf a collector.address) * (leftoverGas * msg.gasPrice) := by
  obtain ⟨-, hflow⟩ := valueFlow_refundGas hwired hbacked hcollector hok
  refine hflow.spendableCoin_eq hwired.bank ?_ a
  have hsender : msg.sender.bytes ≠ k.bank.reserve.address := by
    intro heq
    rw [heq, hwired.reserve_blocked] at hblocked
    cases hblocked
  rw [weightOf_of_ne hsender, weightOf_of_ne (module_address_ne_reserve feeCollectorName_ne hcollector),
    sub_zero, zero_mul]

structure SparesCollector (k : Keeper S Acc) (collector : ModuleAccount)
    (ctx ctx' : Ctx S) : Prop where
  backed : Backed k.bank ctx'
  spendable_le : k.bank.spendableCoin ctx collector.address k.bank.extendedCoinDenom ≤
    k.bank.spendableCoin ctx' collector.address k.bank.extendedCoinDenom

theorem SparesCollector.of_store_eq {ctx'' : Ctx S}
    (hspares : k.SparesCollector collector ctx ctx') (hstore : ctx''.store = ctx'.store) :
    k.SparesCollector collector ctx ctx'' := by
  obtain ⟨store, events⟩ := ctx''
  subst hstore
  exact ⟨hspares.backed.of_store_eq rfl, hspares.spendable_le⟩

theorem sparesCollector_of_runs {addressString : Address → String} {start s : StateDB (MultiStore S)}
    (hwired : k.Wired) (hbacked : Backed k.bank ctx) (hstart : Start (cacheContext ctx) start)
    (hruns : start.Runs (k.env addressString) Op.Spares s)
    (hclean : ∀ addr ∈ s.journal.sortedDirties, addr.bytes ≠ collector.address)
    (hcommit : s.commit (k.env addressString) = .ok ctx') : k.SparesCollector collector ctx ctx' := by
  obtain ⟨ops, hops, hrun⟩ := hruns
  have hsince := hstart.since_run hrun
  obtain ⟨-, -, -, -, -, -, hctx⟩ := hstart.spec
  have hctx' : s.ctx = cacheContext ctx := hsince.ctx_eq.trans hctx
  have hstore : s.ctx.store = ctx.store := by
    rw [hctx']
    rfl
  have hcalls := localRun_commit hwired (hstart.spared.run hops hrun) hsince.loaded
    (hbacked.of_store_eq hstore) hcommit
  have hsame : SameAt k s.ctx ctx' collector.address := by
    refine hcalls.same_elsewhere _ fun hmem => ?_
    obtain ⟨addr, haddr, heq⟩ := List.mem_map.mp hmem
    exact hclean addr haddr heq
  refine ⟨hcalls.invariant_end, le_of_eq ?_⟩
  rw [hsame.spendable]
  unfold PreciseBank.Keeper.spendableCoin getFractionalBalance
  rw [hstore]

theorem sparesCollector_afterExecution (msg : Message) {hooks : Option (Hooks S)}
    {res : MsgEthereumTxResponse} {branch : Ctx S} (hbacked : Backed k.bank ctx)
    (hbranch : res.failed = false → k.SparesCollector collector ctx branch)
    (hhooks : ∀ postTxProcessing, hooks = some postTxProcessing → ∀ ctx msg res ctx' logs,
      Backed k.bank ctx → postTxProcessing ctx msg res = .ok (ctx', logs) →
        k.SparesCollector collector ctx ctx') :
    (afterExecution hooks ctx msg res branch).1.gasUsed = res.gasUsed ∧
      k.SparesCollector collector ctx (afterExecution hooks ctx msg res branch).2 := by
  have hrefl : k.SparesCollector collector ctx ctx := ⟨hbacked, le_rfl⟩
  -- what the hooks find: the branch, or a new one
  have hfound : k.SparesCollector collector ctx (if res.failed then cacheContext ctx else branch) := by
    cases hfailed : res.failed with
    | true => exact hrefl.of_store_eq rfl
    | false => exact hbranch hfailed
  unfold afterExecution
  generalize (if res.failed then cacheContext ctx else branch) = found at hfound
  cases hpost : hooks with
  | none =>
    refine ⟨rfl, ?_⟩
    cases hfailed : res.failed with
    | true =>
      simp only [if_true]
      exact hrefl
    | false =>
      simp only [Bool.false_eq_true, if_false]
      exact hfound.of_store_eq rfl
  | some postTxProcessing =>
    simp only
    cases hrun : postTxProcessing found msg res with
    | error err => exact ⟨rfl, hrefl⟩
    | ok written =>
      obtain ⟨written, logs⟩ := written
      have hwritten := hhooks _ hpost _ _ _ _ _ hfound.backed hrun
      have htotal : k.SparesCollector collector ctx written :=
        ⟨hwritten.backed, hfound.spendable_le.trans hwritten.spendable_le⟩
      exact ⟨rfl, htotal.of_store_eq rfl⟩

end Keeper

end Vm

namespace Ante

open Result BankKeeper PreciseBank.Keeper Vm Vm.Keeper Statedb

variable {S Acc : Type} {k : Vm.Keeper S Acc} {addressString : Address → String} {utils : DecoratorUtils}
  {cfg : EvmConfig} {evm : Evm (MultiStore S)} {hooks : Option (Hooks S)} {txConfig : TxConfig}
  {ctx paid branch : Ctx S} {tx : Transaction} {collector : ModuleAccount} {baseFee : ℤ}
  {result : ExecutionResult (MultiStore S)}

/-- How the fee of a transaction is settled: `paid` is the state after the deduction, `executed` that before
the refund, `refunded` that after it. -/
structure FeesSettled (k : Vm.Keeper S Acc) (cfg : EvmConfig) (collector : ModuleAccount)
    (tx : Transaction) (baseFee : ℤ) (gasUsed : ℕ) (deducted returned : ℤ)
    (ctx paid executed refunded : Ctx S) : Prop where
  minimum_le : tx.gas.toNat * cfg.minGasMultiplier.raw / Dec.precision ≤ gasUsed
  gasUsed_le : gasUsed ≤ tx.gas.toNat
  charged : deducted - returned = gasUsed * min (tx.gasTipCap + baseFee) tx.gasFeeCap
  deducted_eq : ∀ a, k.bank.spendableCoin paid a k.bank.extendedCoinDenom =
    k.bank.spendableCoin ctx a k.bank.extendedCoinDenom +
      (weightOf a collector.address - weightOf a tx.sender.bytes) * deducted
  returned_eq : ∀ a, k.bank.spendableCoin refunded a k.bank.extendedCoinDenom =
    k.bank.spendableCoin executed a k.bank.extendedCoinDenom +
      (weightOf a tx.sender.bytes - weightOf a collector.address) * returned

theorem refund_le_spendableCoin {fee : ℤ} {executed : Ctx S} (hwired : k.Wired)
    (hbacked : Backed k.bank ctx)
    (hcollector : k.bank.modules.getModuleAccount feeCollectorName = some collector)
    (haccepted : Accepted k utils collector ctx tx fee paid)
    (hspares : k.SparesCollector collector paid executed)
    (hsender : tx.sender.bytes ≠ collector.address) :
    fee ≤ k.bank.spendableCoin executed collector.address k.bank.extendedCoinDenom := by
  have hreserve := module_address_ne_reserve feeCollectorName_ne hcollector
  have hbefore : 0 ≤ k.bank.spendableCoin ctx collector.address k.bank.extendedCoinDenom := by
    rw [spendableCoin_extendedCoinDenom hreserve]
    exact add_nonneg (mul_nonneg (hwired.bank.spendable_nonneg _ _ _) k.bank.conversionFactor_pos.le)
      (hbacked.fractional collector.address).1
  calc fee ≤ k.bank.spendableCoin ctx collector.address k.bank.extendedCoinDenom + fee :=
        le_add_of_nonneg_left hbefore
    _ = k.bank.spendableCoin paid collector.address k.bank.extendedCoinDenom := by
        rw [haccepted.spendable, weightOf_self, weightOf_of_ne hsender, sub_zero, one_mul]
    _ ≤ k.bank.spendableCoin executed collector.address k.bank.extendedCoinDenom := hspares.spendable_le

/-- A transaction that the ante handler accepts is charged exactly its gas used at the effective price,
whatever its execution comes to, and its refund does not fail. -/
theorem fees_settled (hwired : k.Wired) (hbacked : Backed k.bank ctx)
    (hcollector : k.bank.modules.getModuleAccount feeCollectorName = some collector)
    (hsender : k.bank.bk.blockedAddr tx.sender.bytes = false)
    (hbase : utils.baseFee = some baseFee) (hlimit : tx.gas.toNat < 2 ^ 63)
    (hnonneg : 0 ≤ cfg.minGasMultiplier.raw) (hle : cfg.minGasMultiplier.raw ≤ Dec.precision)
    (hante : anteHandle k addressString utils ctx tx = .ok paid)
    (hexec : execution (k.env addressString) cfg evm (cacheContext paid)
      (transactionToMessage tx (some baseFee)) txConfig = .ok result)
    (hleftover : result.leftoverGas.toNat ≤ tx.gas.toNat)
    (hcommit : result.stateDB.commit (k.env addressString) = .ok branch)
    (hbranch : result.vmErr = none → k.SparesCollector collector paid branch)
    (hhooks : ∀ postTxProcessing, hooks = some postTxProcessing → ∀ ctx msg res ctx' logs,
      Backed k.bank ctx → postTxProcessing ctx msg res = .ok (ctx', logs) →
        k.SparesCollector collector ctx ctx') :
    ∃ res executed refunded deducted returned,
      executed = (afterExecution hooks paid (transactionToMessage tx (some baseFee)) res branch).2 ∧
      k.refundGas executed (transactionToMessage tx (some baseFee)) (tx.gas.toNat - res.gasUsed) =
        .ok refunded ∧
      (∃ res', k.applyTransaction addressString cfg evm hooks (some baseFee) paid tx txConfig =
        .ok (res', refunded) ∧ res'.gasUsed = res.gasUsed) ∧
      FeesSettled k cfg collector tx baseFee res.gasUsed deducted returned ctx paid executed refunded := by
  obtain ⟨fee, haccepted⟩ := anteHandle_spec hwired hbacked hcollector hante
  obtain ⟨baseFee', hbase', hbaseFee, hfeeCap, hfee⟩ := verifyFee_spec haccepted.fee_eq
  obtain rfl : baseFee = baseFee' := Option.some.inj (hbase.symm.trans hbase')
  have hprice := gasPrice_transactionToMessage tx baseFee
  have hprice_nonneg : 0 ≤ (transactionToMessage tx (some baseFee)).gasPrice := by
    rw [hprice]
    exact le_min (add_nonneg haccepted.priced.tip_nonneg hbaseFee) (hbaseFee.trans hfeeCap)
  obtain ⟨res, hsettle, hminimum, hused⟩ := exists_settle (cacheContext paid)
    (transactionToMessage tx (some baseFee)) hlimit hnonneg hle hleftover hcommit
  have hvmErr := (settle_spec hsettle).vmError_eq
  have hfailed : res.failed = false → k.SparesCollector collector paid branch := by
    intro hsuccess
    apply hbranch
    unfold MsgEthereumTxResponse.failed at hsuccess
    rw [hvmErr] at hsuccess
    exact Option.isNone_iff_eq_none.mp (by simpa using hsuccess)
  obtain ⟨hgasUsed, hspares⟩ := sparesCollector_afterExecution
    (transactionToMessage tx (some baseFee)) haccepted.backed hfailed hhooks
  generalize hexecuted : afterExecution hooks paid (transactionToMessage tx (some baseFee)) res branch =
    after at hgasUsed hspares
  -- at most the whole fee is returned
  have hreturned : ((tx.gas.toNat - res.gasUsed : ℕ) : ℤ) *
      (transactionToMessage tx (some baseFee)).gasPrice ≤ fee := by
    rw [hfee, ← hprice]
    exact mul_le_mul_of_nonneg_right (Int.ofNat_le.mpr (Nat.sub_le _ _)) hprice_nonneg
  obtain ⟨refunded, hrefund⟩ := exists_refundGas (transactionToMessage tx (some baseFee))
    (tx.gas.toNat - res.gasUsed) hwired hspares.backed hcollector hsender hprice_nonneg
    fun hne => hreturned.trans
      (refund_le_spendableCoin hwired hbacked hcollector haccepted hspares hne)
  refine ⟨res, after.2, refunded, fee, _, by rw [hexecuted], hrefund, ⟨after.1, ?_, hgasUsed⟩, hminimum, hused, ?_,
    haccepted.spendable, spendableCoin_refundGas hwired hspares.backed hcollector hsender hrefund⟩
  · refine bind_eq_ok_iff.mpr ⟨(res, branch), ?_, ?_⟩
    · exact mapError_eq_ok_iff.mpr (bind_eq_ok_iff.mpr ⟨result, hexec, hsettle⟩)
    · refine bind_eq_ok_iff.mpr ⟨refunded, ?_, ?_⟩
      · simp only [hexecuted, hgasUsed]
        exact mapError_eq_ok_iff.mpr hrefund
      · simp only [hexecuted]
        rfl
  · have hsub : ((tx.gas.toNat - res.gasUsed : ℕ) : ℤ) = tx.gas.toNat - res.gasUsed :=
      Int.ofNat_sub hused
    rw [hfee, hprice, hsub]
    ring

def transferEvm (env : Env (MultiStore S)) : Evm (MultiStore S) where
  create s _ _ gas _ := .ok ⟨[], gas, none, s⟩
  call s sender recipient _ gas value :=
    match s.run env [.subBalance sender value, .addBalance recipient value] with
    | none => .error (.panicked "transfer")
    | some s => .ok ⟨[], gas, none, s⟩
  activePrecompiles := []

theorem runs_transferEvm {env : Env (MultiStore S)} {msg : Message} {ctx : Ctx S}
    (hrecipient : msg.recipient.isSome = true)
    (hexec : execution env cfg (transferEvm env) ctx msg txConfig = .ok result) :
    ∃ start, Start ctx start ∧ start.Runs env Op.Spares result.stateDB := by
  obtain ⟨gas, _, hexec⟩ := bind_eq_ok_iff.mp hexec
  split at hexec
  · cases hexec
  rename_i start hprepare
  obtain ⟨value, _, hexec⟩ := bind_eq_ok_iff.mp hexec
  obtain ⟨recipient, hrecipient⟩ := Option.isSome_iff_exists.mp hrecipient
  simp only [execute, hrecipient, transferEvm] at hexec
  split at hexec
  · cases hexec
  rename_i final hrun
  cases hexec
  obtain ⟨paid, hpaid, hrun⟩ := Option.bind_eq_some_iff.mp hrun
  obtain ⟨received, hreceived, hrun⟩ := Option.bind_eq_some_iff.mp hrun
  cases hrun
  exact ⟨start, .prepare hprepare, (((runs_startState env cfg start msg).mono spares_of_starts).exec
    (.subBalance msg.sender value) trivial hpaid).exec (.addBalance recipient value) trivial hreceived⟩

theorem fees_settled_transfer :
    let k := Evmd.vmKeeper Evmd.sixDecimalsCoin
    ∃ paid executed refunded gasUsed deducted returned,
      anteHandle k (fun _ => "") pragueUtils fundedChain transferTransaction = .ok paid ∧
      FeesSettled k pragueConfig (Evmd.moduleAccount "fee_collector" []) transferTransaction 5 gasUsed
        deducted returned fundedChain paid executed refunded ∧ deducted - returned = gasUsed * 7 := by
  intro k
  let msg := transactionToMessage transferTransaction (some 5)
  let env := k.env fun _ => ""
  let txConfig : TxConfig := ⟨zeroHash, zeroHash, 0, 0⟩
  let parties := [bytesToAddress [0xa1], bytesToAddress [0xb0]]
  have hvalues : ((anteHandle k (fun _ => "") pragueUtils fundedChain
      transferTransaction).toOption.bind fun paid =>
        (execution env pragueConfig (transferEvm env) (cacheContext paid) msg txConfig).toOption.map
          fun result => (result.leftoverGas, result.stateDB.journal.dirties.keys,
            (Result.run (result.stateDB.commitAddress env) result.stateDB.writeCache
              parties).toOption.isSome)) =
      some (9000, parties.toFinset, true) := by
    decide +kernel
  obtain ⟨paid, hpaid, hvalues⟩ := Option.bind_eq_some_iff.mp hvalues
  obtain ⟨result, hresult, hvalues⟩ := Option.map_eq_some_iff.mp hvalues
  simp only [Prod.mk.injEq] at hvalues
  obtain ⟨hleftover, hdirties, hcommitted⟩ := hvalues
  have hsorted := sortedDirties_eq (by decide +kernel) (by decide +kernel) hdirties
  obtain ⟨branch, hloop⟩ := exists_eq_ok_of_isSome hcommitted
  have hcommit : result.stateDB.commit env = .ok branch := by
    unfold StateDB.commit StateDB.commitWithCtx
    rw [hsorted]
    exact hloop
  have hante := toOption_eq_some_iff.mp hpaid
  have hexec := toOption_eq_some_iff.mp hresult
  obtain ⟨fee, haccepted⟩ := anteHandle_spec (Evmd.vmKeeper_wired _) backed_fundedChain rfl hante
  obtain ⟨start, hstart, hruns⟩ := runs_transferEvm rfl hexec
  have hspares : k.SparesCollector (Evmd.moduleAccount "fee_collector" []) paid branch := by
    refine sparesCollector_of_runs (Evmd.vmKeeper_wired _) haccepted.backed hstart hruns ?_ hcommit
    rw [hsorted]
    decide +kernel
  have hnoHooks : ∀ postTxProcessing : Hooks (AuthLedger Evmd.moduleAccounts),
      none = some postTxProcessing → ∀ ctx msg res ctx' logs, Backed k.bank ctx →
        postTxProcessing ctx msg res = .ok (ctx', logs) →
          k.SparesCollector (Evmd.moduleAccount "fee_collector" []) ctx ctx' :=
    fun _ habs => by cases habs
  obtain ⟨res, executed, refunded, deducted, returned, -, -, -, hsettled⟩ :=
    fees_settled (Evmd.vmKeeper_wired _) backed_fundedChain rfl (by decide +kernel) rfl
      (by decide) (by decide) (by decide) hante hexec (by rw [hleftover]; decide) hcommit
      (fun _ => hspares) hnoHooks
  exact ⟨paid, executed, refunded, res.gasUsed, deducted, returned, hante, hsettled, hsettled.charged⟩

end Ante

end CosmosEvm
