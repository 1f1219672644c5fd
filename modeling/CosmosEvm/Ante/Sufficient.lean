import CosmosEvm.Ante.Mono
import CosmosEvm.Vm.Conserve
import CosmosEvm.Vm.Start

namespace CosmosEvm.Ante

open Result BankKeeper PreciseBank.Keeper Vm Vm.Keeper Statedb

section Checks

variable {utils : DecoratorUtils} {tx : Transaction} {fee : ℤ}

structure WellPriced (tx : Transaction) : Prop where
  value_nonneg : 0 ≤ tx.value
  tip_nonneg : 0 ≤ tx.gasTipCap
  tip_le : tx.gasTipCap ≤ tx.gasFeeCap

theorem wellPriced_of_validate {result : Unit} (hok : validate utils tx = .ok result) : WellPriced tx := by
  obtain ⟨_, -, hok⟩ := bind_eq_ok_iff.mp hok
  obtain ⟨_, -, hok⟩ := bind_eq_ok_iff.mp hok
  obtain ⟨_, hvalid, -⟩ := bind_eq_ok_iff.mp hok
  obtain ⟨_, hvalue, hvalid⟩ := bind_eq_ok_iff.mp hvalid
  obtain ⟨_, -, hvalid⟩ := bind_eq_ok_iff.mp hvalid
  obtain ⟨_, -, hvalid⟩ := bind_eq_ok_iff.mp hvalid
  obtain ⟨_, htip, hvalid⟩ := bind_eq_ok_iff.mp hvalid
  obtain ⟨_, -, hvalid⟩ := bind_eq_ok_iff.mp hvalid
  obtain ⟨_, -, hvalid⟩ := bind_eq_ok_iff.mp hvalid
  obtain ⟨_, -, hvalid⟩ := bind_eq_ok_iff.mp hvalid
  obtain ⟨_, -, hvalid⟩ := bind_eq_ok_iff.mp hvalid
  obtain ⟨_, hmin, -⟩ := bind_eq_ok_iff.mp hvalid
  exact ⟨ensure_eq_ok_iff.mp hvalue, ensure_eq_ok_iff.mp hmin, ensure_eq_ok_iff.mp htip⟩

theorem effectiveGasTip_add (tx : Transaction) (baseFee : ℤ) :
    effectiveGasTip tx baseFee + baseFee = min (tx.gasTipCap + baseFee) tx.gasFeeCap := by
  unfold effectiveGasTip
  split <;> omega

theorem gasPrice_transactionToMessage (tx : Transaction) (baseFee : ℤ) :
    (transactionToMessage tx (some baseFee)).gasPrice = min (tx.gasTipCap + baseFee) tx.gasFeeCap := by
  simp only [transactionToMessage]
  split <;> omega

theorem verifyFee_spec (hok : verifyFee utils.rules utils.baseFee tx = .ok fee) :
    ∃ baseFee, utils.baseFee = some baseFee ∧ 0 ≤ baseFee ∧ baseFee ≤ tx.gasFeeCap ∧
      fee = tx.gas.toNat * min (tx.gasTipCap + baseFee) tx.gasFeeCap := by
  obtain ⟨_, -, hok⟩ := bind_eq_ok_iff.mp hok
  cases hbase : utils.baseFee with
  | none =>
    rw [hbase] at hok
    cases hok
  | some baseFee =>
    rw [hbase] at hok
    obtain ⟨_, hle, hok⟩ := bind_eq_ok_iff.mp hok
    refine ⟨baseFee, rfl, utils.baseFee_nonneg hbase, ensure_eq_ok_iff.mp hle, ?_⟩
    rw [← effectiveGasTip_add]
    exact (pure_eq_ok_iff.mp hok).symm

theorem fee_bounds (hpriced : WellPriced tx) (hok : verifyFee utils.rules utils.baseFee tx = .ok fee) :
    0 ≤ fee ∧ fee ≤ tx.gas.toNat * tx.gasFeeCap := by
  obtain ⟨baseFee, -, hnonneg, hle, rfl⟩ := verifyFee_spec hok
  have hgas : (0 : ℤ) ≤ tx.gas.toNat := Int.natCast_nonneg _
  constructor
  · exact mul_nonneg hgas (le_min (add_nonneg hpriced.tip_nonneg hnonneg) (hnonneg.trans hle))
  · exact mul_le_mul_of_nonneg_left (min_le_right _ _) hgas

theorem checkSenderBalance_spec {balance : ℤ} {result : Unit}
    (hok : checkSenderBalance balance tx = .ok result) : cost tx ≤ balance := by
  obtain ⟨_, -, hok⟩ := bind_eq_ok_iff.mp hok
  exact (ensure_eq_ok_iff.mp hok).2

end Checks

section Deduction

variable {S Acc : Type} {k : Vm.Keeper S Acc} {addressString : Address → String} {utils : DecoratorUtils}
  {ctx ctx' : Ctx S} {tx : Transaction} {sender : Address} {fee : ℤ}
  {collector : ModuleAccount}

theorem toNat_uint256_le {amt : ℤ} (hnonneg : 0 ≤ amt) : ((uint256 amt).toNat : ℤ) ≤ amt := by
  by_cases hlt : amt < 2 ^ 256
  · exact (toNat_uint256 hnonneg hlt).le
  · rw [uint256, if_neg hlt]
    exact hnonneg

theorem spendableCoin_of_reserve (ctx : Ctx S)
    (hreserve : sender.bytes = k.bank.reserve.address) : k.spendableCoin ctx sender = 0 := by
  unfold Vm.Keeper.spendableCoin PreciseBank.Keeper.spendableCoin
  rw [hreserve, k.bank.getModuleAddress_moduleName, if_pos ⟨rfl, rfl⟩]

theorem authDeductFees_eq_ok_iff
    (hcollector : k.bank.modules.getModuleAccount feeCollectorName = some collector) (hfee : 0 < fee) :
    authDeductFees k ctx sender fee = .ok ctx' ↔
      k.bank.sendExtendedCoins ctx sender.bytes collector.address fee = .ok ctx' := by
  unfold authDeductFees ensure
  simp only [hfee, if_true]
  change (Except.mapError _ (k.bank.sendCoinsFromAccountToModule ctx sender.bytes feeCollectorName
    (k.evmCoins fee))) = .ok ctx' ↔ _
  rw [mapError_eq_ok_iff]
  unfold PreciseBank.Keeper.sendCoinsFromAccountToModule
  simp only [hcollector]
  rw [if_neg feeCollectorName_ne, evmCoins_eq hfee, sendCoins_extendedCoins hfee.le, if_pos hfee]

theorem deductFees_eq_ok_iff
    (hcollector : k.bank.modules.getModuleAccount feeCollectorName = some collector) (hfee : 0 < fee) :
    deductFees k addressString ctx sender fee = .ok ctx' ↔
      (k.ak.getAccount ctx.store.sdk sender.bytes).isSome = true ∧
        k.bank.sendExtendedCoins ctx sender.bytes collector.address fee = .ok ctx' := by
  unfold deductFees deductTxCostsFromUserBalance
  rw [if_neg hfee.ne', mapError_eq_ok_iff]
  cases k.ak.getAccount ctx.store.sdk sender.bytes with
  | none => simp
  | some account =>
    simp only [Option.isSome_some, true_and]
    rw [mapError_eq_ok_iff, authDeductFees_eq_ok_iff hcollector hfee]

theorem address_bytes_ne_nil (addr : Address) : addr.bytes ≠ [] := by
  intro hnil
  have hlength := addr.length_bytes
  rw [hnil] at hlength
  cases hlength

theorem ne_reserve_of_le (hfee : 0 < fee) (hle : fee ≤ k.spendableCoin ctx sender) :
    sender.bytes ≠ k.bank.reserve.address := by
  intro hreserve
  rw [spendableCoin_of_reserve ctx hreserve] at hle
  omega

section

variable (hwired : k.Wired) (hbacked : Backed k.bank ctx)
  (hcollector : k.bank.modules.getModuleAccount feeCollectorName = some collector)

include hwired hbacked hcollector

theorem exists_deductFees (haccount : (k.ak.getAccount ctx.store.sdk sender.bytes).isSome = true)
    (hfee : 0 ≤ fee) (hle : fee ≤ k.spendableCoin ctx sender) :
    ∃ ctx', deductFees k addressString ctx sender fee = .ok ctx' := by
  rcases hfee.eq_or_lt with hzero | hpos
  · exact ⟨ctx, if_pos hzero.symm⟩
  have hsender := ne_reserve_of_le hpos hle
  simp only [deductFees_eq_ok_iff hcollector hpos, haccount, true_and]
  by_cases hself : sender.bytes = collector.address
  · rw [← hself, sendExtendedCoins_self hsender]
    exact ⟨ctx, rfl⟩
  · exact (exists_sendExtendedCoins_iff hwired.bank hbacked.coversCarries hsender
      (module_address_ne_reserve feeCollectorName_ne hcollector) hself (address_bytes_ne_nil sender)
      collector.address_ne_nil hfee).mpr hle

theorem valueFlow_deductFees (hfee : 0 ≤ fee) (hle : fee ≤ k.spendableCoin ctx sender)
    (hok : deductFees k addressString ctx sender fee = .ok ctx') :
    ValueFlow k.bank ctx ctx' [sender.bytes, collector.address]
      (fun a => (weightOf a collector.address - weightOf a sender.bytes) * fee) 0 := by
  rcases hfee.eq_or_lt with hzero | hpos
  · rw [deductFees, if_pos hzero.symm] at hok
    cases hok
    refine (ValueFlow.refl hbacked).congr (fun a => ?_) rfl
    rw [← hzero, mul_zero]
  · exact valueFlow_sendExtendedCoins hwired.bank hbacked (ne_reserve_of_le hpos hle)
      (module_address_ne_reserve feeCollectorName_ne hcollector) hfee
      ((deductFees_eq_ok_iff hcollector hpos).mp hok).2

theorem spendableCoin_deductFees (hfee : 0 ≤ fee) (hle : fee ≤ k.spendableCoin ctx sender)
    (hok : deductFees k addressString ctx sender fee = .ok ctx') (a : AccAddress) :
    k.bank.spendableCoin ctx' a k.bank.extendedCoinDenom =
      k.bank.spendableCoin ctx a k.bank.extendedCoinDenom +
        (weightOf a collector.address - weightOf a sender.bytes) * fee := by
  refine (valueFlow_deductFees hwired hbacked hcollector hfee hle hok).spendableCoin_eq hwired.bank ?_ a
  rcases hfee.eq_or_lt with hzero | hpos
  · rw [← hzero, mul_zero]
  · rw [weightOf_of_ne (module_address_ne_reserve feeCollectorName_ne hcollector),
      weightOf_of_ne (ne_reserve_of_le hpos hle), sub_zero, zero_mul]

end

end Deduction

section Steps

variable {S Acc : Type} {k : Vm.Keeper S Acc} {addressString : Address → String} {utils : DecoratorUtils}
  {ctx ctx' : Ctx S} {tx : Transaction}

theorem verifyAccountBalance_spec (hwired : k.Wired)
    (hok : verifyAccountBalance k addressString ctx (k.getAccount ctx.store tx.sender) tx = .ok ctx') :
    SameCoins k.bank ctx ctx' ∧
      k.bank.bk.spendableCoin ctx'.store.sdk = k.bank.bk.spendableCoin ctx.store.sdk ∧
      (k.ak.getAccount ctx'.store.sdk tx.sender.bytes).isSome = true ∧
      cost tx ≤ (uint256 (k.spendableCoin ctx' tx.sender)).toNat := by
  obtain ⟨_, _, hok⟩ := bind_eq_ok_iff.mp hok
  obtain ⟨_, hcost, hok⟩ := bind_eq_ok_iff.mp hok
  have hcost := checkSenderBalance_spec (mapError_eq_ok_iff.mp hcost)
  unfold Vm.Keeper.getAccount at hcost hok
  cases haccount : k.ak.getAccount ctx.store.sdk tx.sender.bytes with
  | some account =>
    rw [haccount] at hcost hok
    cases hok
    exact ⟨⟨rfl, rfl, rfl, rfl⟩, rfl, by rw [haccount]; rfl, hcost⟩
  | none =>
    rw [haccount] at hcost hok
    cases hok
    have hauth := hwired.auth
    refine ⟨⟨(hauth.getBalance_setAccount ..).trans (hauth.getBalance_newAccount ..),
      (hauth.getSupply_setAccount ..).trans (hauth.getSupply_newAccount ..), rfl, rfl⟩,
      hauth.spendable_setNewAccount haccount, ?_, hcost.trans (Int.natCast_nonneg _)⟩
    change (k.ak.getAccount (k.ak.setAccount _ _) tx.sender.bytes).isSome = true
    rw [hauth.getAccount_setAccount, hauth.getAddress_newAccount, if_pos rfl]
    rfl

theorem incrementSequence_spec (hwired : k.Wired) (hok : incrementSequence k ctx tx = .ok ctx') :
    SameCoins k.bank ctx ctx' ∧
      k.bank.bk.spendableCoin ctx'.store.sdk = k.bank.bk.spendableCoin ctx.store.sdk ∧
      (k.ak.getAccount ctx'.store.sdk tx.sender.bytes).isSome = true := by
  have hauth := hwired.auth
  unfold incrementSequence at hok
  cases haccount : k.ak.getAccount ctx.store.sdk tx.sender.bytes with
  | none =>
    rw [haccount] at hok
    cases hok
  | some account =>
    rw [haccount] at hok
    obtain ⟨_, _, hok⟩ := bind_eq_ok_iff.mp hok
    obtain ⟨_, _, hok⟩ := bind_eq_ok_iff.mp hok
    obtain ⟨updated, hsequence, hok⟩ := bind_eq_ok_iff.mp hok
    have hsequence := mapError_eq_ok_iff.mp hsequence
    cases hok
    refine ⟨⟨hauth.getBalance_setAccount .., hauth.getSupply_setAccount .., rfl, rfl⟩,
      hauth.spendable_setSequence haccount hsequence, ?_⟩
    change (k.ak.getAccount (k.ak.setAccount _ _) tx.sender.bytes).isSome = true
    rw [hauth.getAccount_setAccount, (hauth.getSequence_setSequence hsequence).2,
      hauth.getAddress_getAccount haccount, if_pos rfl]
    rfl

theorem fee_le_spendableCoin {fee : ℤ} (hwired : k.Wired) (hbacked : Backed k.bank ctx)
    (hpriced : WellPriced tx) (hfee : verifyFee utils.rules utils.baseFee tx = .ok fee)
    (hcost : cost tx ≤ (uint256 (k.spendableCoin ctx tx.sender)).toNat) :
    fee ≤ k.spendableCoin ctx tx.sender := by
  calc fee ≤ tx.gas.toNat * tx.gasFeeCap := (fee_bounds hpriced hfee).2
    _ ≤ cost tx := le_add_of_nonneg_right hpriced.value_nonneg
    _ ≤ (uint256 (k.spendableCoin ctx tx.sender)).toNat := hcost
    _ ≤ k.spendableCoin ctx tx.sender := toNat_uint256_le (spendableCoin_nonneg hwired hbacked _)

structure Accepted (k : Vm.Keeper S Acc) (utils : DecoratorUtils) (collector : ModuleAccount)
    (ctx : Ctx S) (tx : Transaction) (fee : ℤ) (ctx' : Ctx S) :
    Prop where
  priced : WellPriced tx
  fee_eq : verifyFee utils.rules utils.baseFee tx = .ok fee
  cost_le : cost tx ≤ (uint256 (k.spendableCoin ctx tx.sender)).toNat
  backed : Backed k.bank ctx'
  account : (k.ak.getAccount ctx'.store.sdk tx.sender.bytes).isSome = true
  spendable : ∀ a, k.bank.spendableCoin ctx' a k.bank.extendedCoinDenom =
    k.bank.spendableCoin ctx a k.bank.extendedCoinDenom +
      (weightOf a collector.address - weightOf a tx.sender.bytes) * fee

theorem anteHandle_spec {collector : ModuleAccount} (hwired : k.Wired) (hbacked : Backed k.bank ctx)
    (hcollector : k.bank.modules.getModuleAccount feeCollectorName = some collector)
    (hok : anteHandle k addressString utils ctx tx = .ok ctx') :
    ∃ fee, Accepted k utils collector ctx tx fee ctx' := by
  obtain ⟨_, hvalid, hok⟩ := bind_eq_ok_iff.mp hok
  obtain ⟨checked, hbalance, hok⟩ := bind_eq_ok_iff.mp hok
  obtain ⟨_, _, hok⟩ := bind_eq_ok_iff.mp hok
  obtain ⟨fee, hfee, hok⟩ := bind_eq_ok_iff.mp hok
  obtain ⟨consumed, hconsume, hok⟩ := bind_eq_ok_iff.mp hok
  obtain ⟨incremented, hincrement, hok⟩ := bind_eq_ok_iff.mp hok
  obtain ⟨_, _, hok⟩ := bind_eq_ok_iff.mp hok
  obtain ⟨paid, hdeduct, hemit⟩ := bind_eq_ok_iff.mp hconsume
  cases hok
  cases hemit
  have hpriced := wellPriced_of_validate hvalid
  obtain ⟨hsame, hspendable, -, hcost⟩ := verifyAccountBalance_spec hwired hbalance
  have hchecked : ∀ a, k.bank.spendableCoin checked a k.bank.extendedCoinDenom =
      k.bank.spendableCoin ctx a k.bank.extendedCoinDenom := fun a =>
    hsame.spendable_eq (congrFun hspendable a)
  have hbacked₁ := hsame.backed hbacked
  have hle := fee_le_spendableCoin hwired hbacked₁ hpriced hfee hcost
  have hnonneg := (fee_bounds hpriced hfee).1
  have hpaid := spendableCoin_deductFees hwired hbacked₁ hcollector hnonneg hle hdeduct
  have hbacked₂ := (valueFlow_deductFees hwired hbacked₁ hcollector hnonneg hle hdeduct).backed
  obtain ⟨hsame', hspendable', haccount⟩ := incrementSequence_spec hwired hincrement
  refine ⟨fee, hpriced, hfee, ?_, hsame'.backed (hbacked₂.of_store_eq rfl), haccount, fun a => ?_⟩
  · unfold Vm.Keeper.spendableCoin at hcost ⊢
    rwa [hchecked] at hcost
  · rw [hsame'.spendable_eq (congrFun hspendable' a), ← hchecked a, ← hpaid a]
    rfl

end Steps

section Sufficiency

variable {S Acc : Type} {k : Vm.Keeper S Acc} {addressString : Address → String} {utils : DecoratorUtils}
  {ctx : Ctx S} {tx : Transaction} {collector : ModuleAccount}

/-- The balance check covers fee and value, and the deduction takes the fee. -/
theorem Accepted.value_le {fee : ℤ} {ctx' : Ctx S} (hwired : k.Wired)
    (hbacked : Backed k.bank ctx) (haccepted : Accepted k utils collector ctx tx fee ctx') :
    tx.value ≤ (uint256 (k.spendableCoin ctx' tx.sender)).toNat := by
  obtain ⟨hnonneg, hle⟩ := fee_bounds haccepted.priced haccepted.fee_eq
  have hcost := haccepted.cost_le
  have hstart := spendableCoin_nonneg hwired hbacked tx.sender
  have hend := spendableCoin_nonneg hwired haccepted.backed tx.sender
  have hvalue := haccepted.priced.value_nonneg
  by_cases hfits : k.spendableCoin ctx tx.sender < 2 ^ 256
  · have hspendable := haccepted.spendable tx.sender.bytes
    rw [weightOf_self] at hspendable
    change k.spendableCoin ctx' tx.sender = k.spendableCoin ctx tx.sender + _ at hspendable
    -- the fee leaves the sender, unless the sender is the fee collector
    have hweight : 0 ≤ weightOf tx.sender.bytes collector.address ∧
        weightOf tx.sender.bytes collector.address ≤ 1 := by
      unfold weightOf
      split <;> decide
    have hleft : k.spendableCoin ctx tx.sender - fee ≤ k.spendableCoin ctx' tx.sender ∧
        k.spendableCoin ctx' tx.sender ≤ k.spendableCoin ctx tx.sender := by
      constructor <;> nlinarith
    rw [toNat_uint256 hstart hfits] at hcost
    rw [toNat_uint256 hend (hleft.2.trans_lt hfits)]
    calc tx.value ≤ k.spendableCoin ctx tx.sender - tx.gas.toNat * tx.gasFeeCap := by
          unfold cost at hcost
          linarith
      _ ≤ k.spendableCoin ctx tx.sender - fee := by linarith
      _ ≤ k.spendableCoin ctx' tx.sender := hleft.1
  · -- a balance that does not fit is seen as zero, and covers only transactions that cost nothing
    have hzero : ((uint256 (k.spendableCoin ctx tx.sender)).toNat : ℤ) = 0 := by
      rw [uint256, if_neg hfits]
      rfl
    calc tx.value ≤ cost tx := le_add_of_nonneg_left (hnonneg.trans hle)
      _ ≤ 0 := hzero ▸ hcost
      _ ≤ (uint256 (k.spendableCoin ctx' tx.sender)).toNat := Int.natCast_nonneg _

theorem balance_startState {env : Env (MultiStore S)} {cfg : EvmConfig} {txConfig : TxConfig}
    {s : StateDB (MultiStore S)} {rules : StateDB.Rules} {sender coinbase : Address}
    {dst : Option Address} {precompiles : List Address} {list : List (Address × List Hash)}
    (hprepare : (new (cacheContext ctx) txConfig).prepare rules sender coinbase dst precompiles list =
      some s) (msg : Message) (addr : Address) :
    ((startState env cfg s msg).observe env).balance addr = env.keeperBalance ctx.store addr := by
  rw [observe_eq]
  change ((startState env cfg s msg).view env).balance addr = _
  rw [view_balance_startState, View.balance_congr (view_account_prepare env _ hprepare)]
  have hshown : ((new (cacheContext ctx) txConfig).view env).account addr = env.loadedView ctx.store addr :=
    view_account_of_not_loaded _ (by simp [new])
  unfold View.balance
  rw [hshown]
  unfold Env.loadedView Env.keeperBalance
  rw [Option.map_map]
  rfl

/-- The ante handler is sufficient: once the balance is checked the deduction of the fee succeeds, and a
transaction that is accepted starts its execution with a balance that covers its value. -/
theorem anteHandle_sufficient (hwired : k.Wired) (hbacked : Backed k.bank ctx)
    (hcollector : k.bank.modules.getModuleAccount feeCollectorName = some collector) :
    (∀ checked fee, validate utils tx = .ok () →
      verifyAccountBalance k addressString ctx (k.getAccount ctx.store tx.sender) tx = .ok checked →
        verifyFee utils.rules utils.baseFee tx = .ok fee →
          ∃ paid, consumeFeesAndEmitEvent k addressString checked tx.sender fee = .ok paid) ∧
    ∀ ctx' (cfg : EvmConfig) coinbase precompiles txConfig s,
      anteHandle k addressString utils ctx tx = .ok ctx' →
        (new (cacheContext ctx') txConfig).prepare cfg.rules.toRules tx.sender coinbase tx.recipient
          precompiles tx.accessList = some s →
          tx.value ≤ (((startState (k.env addressString) cfg s (transactionToMessage tx utils.baseFee)).observe
            (k.env addressString)).balance tx.sender).toNat := by
  constructor
  · intro checked fee hvalid hbalance hfee
    have hpriced := wellPriced_of_validate hvalid
    obtain ⟨hsame, -, haccount, hcost⟩ := verifyAccountBalance_spec hwired hbalance
    have hle := fee_le_spendableCoin hwired (hsame.backed hbacked) hpriced hfee hcost
    obtain ⟨paid, hpaid⟩ := exists_deductFees hwired
      (hsame.backed hbacked) hcollector haccount (fee_bounds hpriced hfee).1 hle
    exact ⟨_, bind_eq_ok_iff.mpr ⟨paid, hpaid, rfl⟩⟩
  · intro ctx' cfg coinbase precompiles txConfig s hok hprepare
    obtain ⟨fee, haccepted⟩ := anteHandle_spec hwired hbacked hcollector hok
    rw [balance_startState hprepare]
    obtain ⟨account, haccount⟩ := Option.isSome_iff_exists.mp haccepted.account
    have hseen : (k.env addressString).keeperBalance ctx'.store tx.sender =
        uint256 (k.spendableCoin ctx' tx.sender) := by
      change (((k.ak.getAccount ctx'.store.sdk tx.sender.bytes).map _).map Account.balance).getD 0 = _
      rw [haccount]
      rfl
    rw [hseen]
    exact haccepted.value_le hwired hbacked

end Sufficiency

theorem nonneg_of_some_eq {base fee : ℤ} (hbase : 0 ≤ base) (heq : some base = some fee) : 0 ≤ fee := by
  rwa [← Option.some.inj heq]

def pragueUtils : DecoratorUtils where
  rules := pragueConfig.rules
  baseFee := some 5
  baseFee_nonneg := nonneg_of_some_eq (by decide)
  globalMinGasPrice := ⟨0⟩
  validateTx _ := .ok ()
  validateMsg _ := .ok ()
  checkGasWanted _ := .ok ()

def transferTransaction : Transaction where
  type := .dynamicFee
  sender := bytesToAddress [0xa1]
  recipient := some (bytesToAddress [0xb0])
  nonce := 0
  gas := 30000
  gasFeeCap := 10
  gasTipCap := 2
  value := 1000
  data := []
  accessList := []
  setCodeAuthorizations := []
  caps_eq := by decide

def fundedChain : Ctx (AuthLedger Evmd.moduleAccounts) :=
  Evmd.genesisChain [((bytesToAddress [0xa1]).bytes, [⟨"utest", 5⟩])]

theorem backed_fundedChain : Backed (Evmd.vmKeeper Evmd.sixDecimalsCoin).bank fundedChain :=
  Evmd.backed_genesisChain _ _ (by decide +kernel)

theorem anteHandle_sufficient_transfer :
    let k := Evmd.vmKeeper Evmd.sixDecimalsCoin
    ∃ ctx' s, anteHandle k (fun _ => "") pragueUtils fundedChain transferTransaction = .ok ctx' ∧
      (new (cacheContext ctx') ⟨zeroHash, zeroHash, 0, 0⟩).prepare pragueConfig.rules.toRules
        transferTransaction.sender (FixedBytes.zero 20) transferTransaction.recipient []
        transferTransaction.accessList = some s ∧
      1000 ≤ (((startState (k.env fun _ => "") pragueConfig s
        (transactionToMessage transferTransaction (some 5))).observe (k.env fun _ => "")).balance
          transferTransaction.sender).toNat := by
  intro k
  have hsome : (anteHandle k (fun _ => "") pragueUtils fundedChain
      transferTransaction).toOption.isSome = true := by
    decide +kernel
  obtain ⟨ctx', hok⟩ := exists_eq_ok_of_isSome hsome
  have hcollector : k.bank.modules.getModuleAccount feeCollectorName =
      some (Evmd.moduleAccount "fee_collector" []) := rfl
  have hsufficient := (anteHandle_sufficient (Evmd.vmKeeper_wired _) backed_fundedChain hcollector).2 ctx'
    pragueConfig (FixedBytes.zero 20) [] ⟨zeroHash, zeroHash, 0, 0⟩ _ hok rfl
  exact ⟨ctx', _, hok, rfl, Int.ofNat_le.mp hsufficient⟩

end CosmosEvm.Ante
