import CosmosEvm.Evmd.Config
import CosmosEvm.PreciseBank.MintBurnSpec
import Mathlib.Tactic.LinearCombination

/-!
# The reserve backs every fraction

The integer coins of the reserve, scaled by the conversion factor, are worth exactly the fractional balances
of all accounts and the remainder.
-/

namespace CosmosEvm.PreciseBank.Keeper

open SparseLedger Digit Result BankKeeper

variable {S : Type} {k : Keeper S} {ctx ctx' : Ctx S}

structure Backed (k : Keeper S) (ctx : Ctx S) : Prop where
  backing : k.bk.getBalance ctx.store.sdk k.reserve.address k.integerCoinDenom *
    k.conversionFactor = getTotalSumFractionalBalances ctx + getRemainderAmount ctx
  fractional : ∀ address, IsDigit k.conversionFactor (getFractionalBalance ctx address)
  reserve : getFractionalBalance ctx k.reserve.address = 0
  remainder : IsDigit k.conversionFactor (getRemainderAmount ctx)

theorem Backed.of_store_eq {k : Keeper S} {ctx ctx' : Ctx S} (hbacked : Backed k ctx)
    (hstore : ctx'.store = ctx.store) : Backed k ctx' := by
  obtain ⟨store, events⟩ := ctx'
  cases hstore
  exact ⟨hbacked.backing, hbacked.fractional, hbacked.reserve, hbacked.remainder⟩

structure BackedWith (k : Keeper S) (surplus own : ℤ) (ctx : Ctx S) : Prop where
  backing : k.bk.getBalance ctx.store.sdk k.reserve.address k.integerCoinDenom *
    k.conversionFactor = getTotalSumFractionalBalances ctx + getRemainderAmount ctx + surplus
  fractional : ∀ address, IsDigit k.conversionFactor (getFractionalBalance ctx address)
  reserve : getFractionalBalance ctx k.reserve.address = own
  remainder : IsDigit k.conversionFactor (getRemainderAmount ctx)

theorem backedWith_zero_iff : BackedWith k 0 0 ctx ↔ Backed k ctx :=
  ⟨fun h => ⟨h.backing.trans (add_zero _), h.fractional, h.reserve, h.remainder⟩,
    fun h => ⟨h.backing.trans (add_zero _).symm, h.fractional, h.reserve, h.remainder⟩⟩

alias ⟨BackedWith.backed, Backed.backedWith⟩ := backedWith_zero_iff

variable {surplus own : ℤ}

theorem BankMove.getFractionalBalance_eq {flow : (AccAddress → ℤ) → Denom → ℤ}
    (hmove : BankMove k ctx ctx' flow) (address : AccAddress) :
    getFractionalBalance ctx' address = getFractionalBalance ctx address := by
  unfold getFractionalBalance
  rw [hmove.store_eq]

theorem BankMove.getRemainderAmount_eq {flow : (AccAddress → ℤ) → Denom → ℤ}
    (hmove : BankMove k ctx ctx' flow) : getRemainderAmount ctx' = getRemainderAmount ctx := by
  unfold getRemainderAmount
  rw [hmove.store_eq]

theorem BankMove.getTotalSumFractionalBalances_eq {flow : (AccAddress → ℤ) → Denom → ℤ}
    (hmove : BankMove k ctx ctx' flow) :
    getTotalSumFractionalBalances ctx' = getTotalSumFractionalBalances ctx := by
  unfold getTotalSumFractionalBalances
  rw [hmove.store_eq]

section

variable {flow : (AccAddress → ℤ) → Denom → ℤ} {sender recipient : AccAddress} {amt : ℤ} {name : ModuleName}
  {acc : ModuleAccount} (hbank : MovesExactly k.bk k.modules) (hbacked : BackedWith k surplus own ctx)

include hbank hbacked

theorem BackedWith.of_bankMove (hmove : BankMove k ctx ctx' flow)
    (hflow : flow (weightOf k.reserve.address) k.integerCoinDenom = 0) : BackedWith k surplus own ctx' where
  backing := by
    have hbalance := hmove.measure_eq (hbank.tracks_balance k.reserve.address) k.integerCoinDenom
    rw [hbalance, hflow, add_zero, hmove.getTotalSumFractionalBalances_eq,
      hmove.getRemainderAmount_eq, hbacked.backing]
  fractional address := by
    rw [hmove.getFractionalBalance_eq]
    exact hbacked.fractional address
  reserve := by rw [hmove.getFractionalBalance_eq, hbacked.reserve]
  remainder := by
    rw [hmove.getRemainderAmount_eq]
    exact hbacked.remainder

theorem BackedWith.of_fractionalSend (hsender : sender ≠ k.reserve.address)
    (hrecipient : recipient ≠ k.reserve.address) (hsent : FractionalSend k ctx sender recipient amt ctx') :
    BackedWith k surplus own ctx' := by
  cases hsent with
  | self => exact hbacked
  | moved hne _ _ hmove _ hf' hg' hpaid hgained =>
    have hbalance := hmove.measure_eq (hbank.tracks_balance k.reserve.address) k.integerCoinDenom
    simp only [atInteger_self, weightOf_self, weightOf_of_ne hsender, weightOf_of_ne hrecipient] at hbalance
    constructor
    · rw [getTotalSumFractionalBalances_afterFractionalSend hne, afterFractionalSend_sdk, hbalance,
        getRemainderAmount_afterFractionalSend, hmove.getTotalSumFractionalBalances_eq,
        hmove.getRemainderAmount_eq, hmove.getFractionalBalance_eq, hmove.getFractionalBalance_eq]
      linear_combination hbacked.backing + hpaid - hgained
    · intro address
      rw [getFractionalBalance_afterFractionalSend, hmove.getFractionalBalance_eq]
      split
      · exact hg'
      split
      · exact hf'
      · exact hbacked.fractional address
    · rw [getFractionalBalance_afterFractionalSend, if_neg hrecipient.symm, if_neg hsender.symm,
        hmove.getFractionalBalance_eq, hbacked.reserve]
    · rw [getRemainderAmount_afterFractionalSend, hmove.getRemainderAmount_eq]
      exact hbacked.remainder

theorem BackedWith.of_fractionalChange {address : AccAddress} (haddress : address ≠ k.reserve.address) {delta : ℤ}
    (hchange : FractionalChange k ctx address delta ctx') : BackedWith k surplus own ctx' := by
  obtain ⟨hmove, -, hf', hr', hvalue, hcirculating⟩ := hchange
  have hbalance := hmove.measure_eq (hbank.tracks_balance k.reserve.address) k.integerCoinDenom
  rw [atInteger_self, weightOf_self, weightOf_of_ne haddress] at hbalance
  constructor
  · rw [getTotalSumFractionalBalances_afterFractionalChange, afterFractionalChange_sdk, hbalance,
      getRemainderAmount_afterFractionalChange, hmove.getTotalSumFractionalBalances_eq,
      hmove.getFractionalBalance_eq]
    linear_combination hbacked.backing + hcirculating - hvalue
  · intro other
    rw [getFractionalBalance_afterFractionalChange, hmove.getFractionalBalance_eq]
    split
    · exact hf'
    · exact hbacked.fractional other
  · rw [getFractionalBalance_afterFractionalChange, if_neg haddress.symm,
      hmove.getFractionalBalance_eq, hbacked.reserve]
  · rw [getRemainderAmount_afterFractionalChange]
    exact hr'

end

theorem Backed.of_bankMove (hbank : MovesExactly k.bk k.modules) (hbacked : Backed k ctx)
    {flow : (AccAddress → ℤ) → Denom → ℤ} (hmove : BankMove k ctx ctx' flow)
    (hflow : flow (weightOf k.reserve.address) k.integerCoinDenom = 0) : Backed k ctx' :=
  (hbacked.backedWith.of_bankMove hbank hmove hflow).backed

inductive Call where
  | sendCoins (sender recipient : AccAddress) (amt : Coins)
  | sendCoinsFromAccountToModule (sender : AccAddress) (recipientModule : ModuleName) (amt : Coins)
  | sendCoinsFromModuleToAccount (senderModule : ModuleName) (recipient : AccAddress) (amt : Coins)
  | sendCoinsFromModuleToModule (senderModule recipientModule : ModuleName) (amt : Coins)
  | mintCoins (name : ModuleName) (amt : Coins)
  | burnCoins (name : ModuleName) (amt : Coins)

namespace Call

def exec (k : Keeper S) (ctx : Ctx S) : Call → Except Err (Ctx S)
  | sendCoins sender recipient amt => k.sendCoins ctx sender recipient amt
  | sendCoinsFromAccountToModule sender recipientModule amt =>
    k.sendCoinsFromAccountToModule ctx sender recipientModule amt
  | sendCoinsFromModuleToAccount senderModule recipient amt =>
    k.sendCoinsFromModuleToAccount ctx senderModule recipient amt
  | sendCoinsFromModuleToModule senderModule recipientModule amt =>
    k.sendCoinsFromModuleToModule ctx senderModule recipientModule amt
  | mintCoins name amt => k.mintCoins ctx name amt
  | burnCoins name amt => k.burnCoins ctx name amt

def parties (k : Keeper S) : Call → List AccAddress
  | sendCoins sender recipient _ => [sender, recipient]
  | sendCoinsFromAccountToModule sender recipientModule _ =>
    [sender, k.modules.getModuleAddress recipientModule]
  | sendCoinsFromModuleToAccount senderModule recipient _ =>
    [k.modules.getModuleAddress senderModule, recipient]
  | sendCoinsFromModuleToModule senderModule recipientModule _ =>
    [k.modules.getModuleAddress senderModule, k.modules.getModuleAddress recipientModule]
  | mintCoins name _ => [k.modules.getModuleAddress name]
  | burnCoins name _ => [k.modules.getModuleAddress name]

end Call

theorem Call.exec_eq_ok {call : Call} (hok : call.exec k ctx = .ok ctx') :
    (∃ sender recipient amt, call.parties k = [sender, recipient] ∧
      k.sendCoins ctx sender recipient amt = .ok ctx') ∨
    (∃ name amt, k.mintCoins ctx name amt = .ok ctx') ∨
    (∃ name amt, k.burnCoins ctx name amt = .ok ctx') := by
  cases call with
  | sendCoins sender recipient amt => exact Or.inl ⟨sender, recipient, amt, rfl, hok⟩
  | sendCoinsFromAccountToModule sender recipientModule amt =>
    left
    simp only [exec, Keeper.sendCoinsFromAccountToModule] at hok
    cases hacc : k.modules.getModuleAccount recipientModule with
    | none => simp [hacc] at hok
    | some acc =>
      rw [hacc] at hok
      simp only at hok
      split at hok
      · simp at hok
      · exact ⟨sender, acc.address, amt,
          by simp [parties, ModuleAccounts.getModuleAddress, hacc], hok⟩
  | sendCoinsFromModuleToAccount senderModule recipient amt =>
    left
    simp only [exec, Keeper.sendCoinsFromModuleToAccount] at hok
    cases hacc : k.modules.getModuleAccount senderModule with
    | none => simp [hacc] at hok
    | some acc =>
      rw [hacc] at hok
      simp only at hok
      split at hok
      · simp at hok
      split at hok
      · simp at hok
      · exact ⟨acc.address, recipient, amt,
          by simp [parties, ModuleAccounts.getModuleAddress, hacc], hok⟩
  | sendCoinsFromModuleToModule senderModule recipientModule amt =>
    left
    simp only [exec, Keeper.sendCoinsFromModuleToModule] at hok
    split at hok
    · simp at hok
    · simp at hok
    · rename_i accSender accRecipient hsender hrecipient
      split at hok
      · simp at hok
      · exact ⟨accSender.address, accRecipient.address, amt,
          by simp [parties, ModuleAccounts.getModuleAddress, hsender, hrecipient], hok⟩
  | mintCoins name amt => exact Or.inr (Or.inl ⟨name, amt, hok⟩)
  | burnCoins name amt => exact Or.inr (Or.inr ⟨name, amt, hok⟩)

/-- What moves of the bank, fractional sends and fractional changes all keep, every call between accounts other
than the reserve keeps. -/
theorem Call.exec_keeps {P : Ctx S → Prop} (hbank : MovesExactly k.bk k.modules)
    (hbacked : ∀ {ctx}, P ctx → BackedWith k surplus own ctx)
    (hmoved : ∀ {ctx ctx' flow}, P ctx → BankMove k ctx ctx' flow →
      flow (weightOf k.reserve.address) k.integerCoinDenom = 0 → P ctx')
    (hsent : ∀ {ctx ctx' sender recipient amt}, P ctx → sender ≠ k.reserve.address →
      recipient ≠ k.reserve.address → FractionalSend k ctx sender recipient amt ctx' → P ctx')
    (hchanged : ∀ {ctx ctx' delta} {acc : ModuleAccount}, P ctx → acc.address ≠ k.reserve.address →
      FractionalChange k ctx acc.address delta ctx' → P ctx')
    {call : Call} (havoids : k.reserve.address ∉ call.parties k) (hstart : P ctx)
    (hok : call.exec k ctx = .ok ctx') : P ctx' := by
  rcases Call.exec_eq_ok hok with ⟨sender, recipient, amt, hparties, hsend⟩ | ⟨name, amt, hmint⟩ |
    ⟨name, amt, hburn⟩
  · rw [hparties] at havoids
    simp only [List.mem_cons, List.not_mem_nil, or_false, not_or] at havoids
    obtain ⟨hsender, hrecipient⟩ := And.intro (Ne.symm havoids.1) (Ne.symm havoids.2)
    obtain ⟨hvalid, ctx₁, hpass, hextended⟩ := sendCoins_eq_ok_iff.mp hsend
    have hmiddle : P ctx₁ := hmoved hstart (bankMove_passthrough_sendCoins hvalid hpass)
      (by simp [weightOf_of_ne hsender, weightOf_of_ne hrecipient])
    rcases ite_eq_ok_iff.mp hextended with ⟨hpos, hsend⟩ | ⟨-, rfl⟩
    · exact hsent hmiddle hsender hrecipient
        (fractionalSend_of_ok hbank (hbacked hmiddle).fractional hsender hrecipient hpos.le hsend)
    · exact hmiddle
  · obtain ⟨⟨hname, ⟨acc, hacc, -⟩, -⟩, ctx₁, hpass, hextended⟩ := mintCoins_eq_ok_iff.mp hmint
    have hne := module_address_ne_reserve hname hacc
    have hmiddle : P ctx₁ := hmoved hstart (bankMove_passthrough_mintCoins hacc hpass) (by simp [weightOf_of_ne hne])
    rcases ite_eq_ok_iff.mp hextended with ⟨hpos, hmint⟩ | ⟨-, rfl⟩
    · exact hchanged hmiddle hne (fractionalChange_of_mint hbank (hbacked hmiddle).fractional
        (hbacked hmiddle).remainder hname hacc hpos.le hmint)
    · exact hmiddle
  · obtain ⟨⟨hname, ⟨acc, hacc, -⟩, -⟩, ctx₁, hpass, hextended⟩ := burnCoins_eq_ok_iff.mp hburn
    have hne := module_address_ne_reserve hname hacc
    have hmiddle : P ctx₁ := hmoved hstart (bankMove_passthrough_burnCoins hacc hpass) (by simp [weightOf_of_ne hne])
    rcases ite_eq_ok_iff.mp hextended with ⟨hpos, hburn⟩ | ⟨-, rfl⟩
    · exact hchanged hmiddle hne (fractionalChange_of_burn hbank (hbacked hmiddle).fractional
        (hbacked hmiddle).remainder hname hacc hpos.le hburn)
    · exact hmiddle

theorem BackedWith.exec (hbank : MovesExactly k.bk k.modules) (hbacked : BackedWith k surplus own ctx)
    {call : Call} (havoids : k.reserve.address ∉ call.parties k) (hok : call.exec k ctx = .ok ctx') :
    BackedWith k surplus own ctx' :=
  Call.exec_keeps hbank id (fun h => h.of_bankMove hbank) (fun h => h.of_fractionalSend hbank)
    (fun h hne => h.of_fractionalChange hbank hne) havoids hbacked hok

theorem backedWith_of_run (hbank : MovesExactly k.bk k.modules) {calls : List Call}
    (havoids : ∀ call ∈ calls, k.reserve.address ∉ call.parties k) (hstart : BackedWith k surplus own ctx)
    (hrun : run (Call.exec k) ctx calls = .ok ctx') : BackedWith k surplus own ctx' :=
  run_invariant (fun havoid hbacked hok => hbacked.exec hbank havoid hok) havoids hstart hrun

/-- Every run of successful calls between accounts other than the reserve keeps the backing. -/
theorem backed_of_run (hbank : MovesExactly k.bk k.modules) {calls : List Call}
    (havoids : ∀ call ∈ calls, k.reserve.address ∉ call.parties k) (hstart : Backed k ctx)
    (hrun : run (Call.exec k) ctx calls = .ok ctx') : Backed k ctx' :=
  (backedWith_of_run hbank havoids hstart.backedWith hrun).backed

theorem Backed.of_empty (hfractional : ctx.store.fractionalBalances = ∅)
    (hremainder : ctx.store.remainderAmount = none)
    (hbalance : k.bk.getBalance ctx.store.sdk k.reserve.address k.integerCoinDenom = 0) :
    Backed k ctx := by
  have hzero : ∀ a, getFractionalBalance ctx a = 0 := fun a => by
    rw [getFractionalBalance, hfractional]
    rfl
  have hnone : getRemainderAmount ctx = 0 := by
    rw [getRemainderAmount, hremainder]
    rfl
  refine ⟨?_, fun a => ?_, hzero _, ?_⟩
  · rw [hbalance, hnone, getTotalSumFractionalBalances, hfractional, zero_mul]
    rfl
  · rw [hzero]
    exact ⟨le_rfl, k.conversionFactor_pos⟩
  · rw [hnone]
    exact ⟨le_rfl, k.conversionFactor_pos⟩

theorem backed_genesisContext (coinInfo : EvmCoinInfo) (balances : List (AccAddress × Coins))
    (hreserve : (Evmd.genesisLedger balances).balance
      (Evmd.preciseBankKeeper coinInfo).reserve.address coinInfo.denom = 0) :
    Backed (Evmd.preciseBankKeeper coinInfo) (Evmd.genesisContext balances) :=
  .of_empty rfl rfl hreserve

/-- A run with a carry out of the reserve, mixed denominations, a transfer to oneself and a burn. -/
theorem backed_of_sample_run :
    let alice : AccAddress := List.replicate 20 7
    let bob : AccAddress := List.replicate 20 8
    let calls : List Call :=
      [.mintCoins "evm" [⟨"atest", 2500000000000⟩, ⟨"utest", 3⟩],
        .sendCoinsFromModuleToAccount "evm" alice [⟨"atest", 900000000000⟩],
        .sendCoins alice bob [⟨"atest", 300000000000⟩],
        .sendCoinsFromModuleToModule "evm" "erc20" [⟨"atest", 700000000001⟩, ⟨"utest", 1⟩],
        .sendCoins bob bob [⟨"atest", 1⟩],
        .burnCoins "evm" [⟨"atest", 800000000000⟩]]
    ∃ ctx', run (Call.exec (Evmd.preciseBankKeeper Evmd.sixDecimalsCoin)) (Evmd.genesisContext []) calls =
      .ok ctx' ∧ Backed (Evmd.preciseBankKeeper Evmd.sixDecimalsCoin) ctx' := by
  intro alice bob calls
  have hsome : (run (Call.exec (Evmd.preciseBankKeeper Evmd.sixDecimalsCoin)) (Evmd.genesisContext [])
      calls).toOption.isSome = true := by
    decide +kernel
  obtain ⟨ctx', hrun⟩ := exists_eq_ok_of_isSome hsome
  refine ⟨ctx', hrun, backed_of_run (Evmd.preciseBankKeeper_lawful _).toMovesExactly ?_
    (backed_genesisContext _ [] rfl) hrun⟩
  decide +kernel

end CosmosEvm.PreciseBank.Keeper
