import CosmosEvm.PreciseBank.Flow
import CosmosEvm.Vm.Keeper

namespace CosmosEvm.Vm.Keeper

open Result BankKeeper PreciseBank.Keeper

variable {S Acc : Type} {k : Keeper S Acc} {ctx ctx' ctx'' : Ctx S}

structure Wired (k : Keeper S Acc) : Prop where
  bank : Lawful k.bank.bk k.bank.modules
  auth : k.ak.Lawful k.bank.bk k.bank.modules
  reserve_blocked : k.bank.bk.blockedAddr k.bank.reserve.address = true

theorem moduleName_ne : moduleName ≠ PreciseBank.moduleName := by decide

theorem account_ne_reserve (k : Keeper S Acc) : k.account.address ≠ k.bank.reserve.address :=
  module_address_ne_reserve moduleName_ne k.getModuleAccount_moduleName

theorem evmCoins_eq {amt : ℤ} (hamt : 0 < amt) : k.evmCoins amt = k.bank.extendedCoins amt := by
  simp [evmCoins, extendedCoins, Coins.newCoins, hamt.ne']

theorem valueFlow_mintAmountToAccount (hwired : k.Wired) (hbacked : Backed k.bank ctx)
    {recipient : AccAddress} {amt : ℤ} (hamt : 0 < amt)
    (hok : k.mintAmountToAccount ctx recipient amt = .ok ctx') :
    recipient ≠ k.bank.reserve.address ∧
      ValueFlow k.bank ctx ctx' [recipient, k.account.address]
        (fun a => weightOf a recipient * amt) amt := by
  unfold mintAmountToAccount at hok
  obtain ⟨ctx₁, hmint, hsend⟩ := bind_eq_ok_iff.mp hok
  rw [mapError_eq_ok_iff, evmCoins_eq hamt, mintCoins_extendedCoins moduleName_ne
    k.getModuleAccount_moduleName k.minter_mem hamt.le, if_pos hamt] at hmint
  have hminted := valueFlow_mintExtendedCoin hwired.bank hbacked moduleName_ne
    k.getModuleAccount_moduleName hamt.le hmint
  simp only [PreciseBank.Keeper.sendCoinsFromModuleToAccount, k.getModuleAccount_moduleName,
    moduleName_ne, if_false] at hsend
  split at hsend
  · simp at hsend
  · rename_i hblocked
    have hrecipient : recipient ≠ k.bank.reserve.address := fun heq =>
      hblocked (heq ▸ hwired.reserve_blocked)
    rw [evmCoins_eq hamt, sendCoins_extendedCoins hamt.le, if_pos hamt] at hsend
    have hsent := valueFlow_sendExtendedCoins hwired.bank hminted.backed k.account_ne_reserve
      hrecipient hamt.le hsend
    refine ⟨hrecipient, ((hminted.mono ?_).trans (hsent.mono ?_)).congr (fun a => ?_) (add_zero amt)⟩
    · simp
    · simp
    · ring

theorem valueFlow_burnAmountFromAccount (hwired : k.Wired) (hbacked : Backed k.bank ctx)
    {account : AccAddress} (haccount : account ≠ k.bank.reserve.address) {amt : ℤ} (hamt : 0 < amt)
    (hok : k.burnAmountFromAccount ctx account amt = .ok ctx') :
    ValueFlow k.bank ctx ctx' [account, k.account.address]
      (fun a => weightOf a account * -amt) (-amt) := by
  unfold burnAmountFromAccount at hok
  obtain ⟨ctx₁, hsend, hburn⟩ := bind_eq_ok_iff.mp hok
  simp only [mapError_eq_ok_iff, PreciseBank.Keeper.sendCoinsFromAccountToModule,
    k.getModuleAccount_moduleName, moduleName_ne, if_false] at hsend
  rw [evmCoins_eq hamt, sendCoins_extendedCoins hamt.le, if_pos hamt] at hsend
  have hsent := valueFlow_sendExtendedCoins hwired.bank hbacked haccount k.account_ne_reserve hamt.le
    hsend
  rw [evmCoins_eq hamt, burnCoins_extendedCoins moduleName_ne k.getModuleAccount_moduleName
    k.burner_mem hamt.le, if_pos hamt] at hburn
  have hburned := valueFlow_burnExtendedCoin hwired.bank hsent.backed moduleName_ne
    k.getModuleAccount_moduleName hamt.le hburn
  refine ((hsent.mono ?_).trans (hburned.mono ?_)).congr (fun a => ?_) (zero_add _)
  · simp
  · simp
  · ring

def balanceDelta (k : Keeper S Acc) (ctx : Ctx S) (addr : Address)
    (amount : BitVec 256) : ℤ :=
  amount.toNat - k.spendableCoin ctx addr

section

variable {addr : Address} {amount : BitVec 256} (hwired : k.Wired) (hbacked : Backed k.bank ctx)
  (hok : k.setBalance ctx addr amount = .ok ctx')

include hwired hbacked hok

theorem valueFlow_setBalance :
    ValueFlow k.bank ctx ctx' [addr.bytes, k.account.address]
        (fun a => weightOf a addr.bytes * k.balanceDelta ctx addr amount)
        (k.balanceDelta ctx addr amount) ∧
      (addr.bytes = k.bank.reserve.address → k.balanceDelta ctx addr amount = 0) := by
  have hreserve : addr.bytes = k.bank.reserve.address → 0 ≤ k.balanceDelta ctx addr amount := by
    intro heq
    simp [balanceDelta, spendableCoin, PreciseBank.Keeper.spendableCoin, heq,
      k.bank.getModuleAddress_moduleName]
  unfold setBalance at hok
  simp only at hok
  change (if 0 < k.balanceDelta ctx addr amount then _
    else if k.balanceDelta ctx addr amount < 0 then
      k.burnAmountFromAccount ctx addr.bytes (-k.balanceDelta ctx addr amount) else _) = _ at hok
  split at hok
  · rename_i hpos
    obtain ⟨hne, hflow⟩ := valueFlow_mintAmountToAccount hwired hbacked hpos hok
    exact ⟨hflow, fun heq => absurd heq hne⟩
  · split at hok
    · rename_i hneg
      have hne : addr.bytes ≠ k.bank.reserve.address := fun heq =>
        absurd (hreserve heq) (not_le.mpr hneg)
      have hflow := valueFlow_burnAmountFromAccount hwired hbacked hne (neg_pos.mpr hneg) hok
      exact ⟨hflow.congr (fun a => by rw [neg_neg]) (neg_neg _), fun heq => absurd heq hne⟩
    · have hzero : k.balanceDelta ctx addr amount = 0 := by omega
      cases hok
      exact ⟨(ValueFlow.refl hbacked).congr (fun a => by rw [hzero, mul_zero]) hzero.symm,
        fun _ => hzero⟩

theorem weightOf_reserve_setBalance :
    weightOf k.bank.reserve.address addr.bytes * k.balanceDelta ctx addr amount = 0 := by
  by_cases heq : addr.bytes = k.bank.reserve.address
  · rw [(valueFlow_setBalance hwired hbacked hok).2 heq, mul_zero]
  · rw [weightOf_of_ne heq, zero_mul]

theorem spendableCoin_setBalance (a : AccAddress) :
    k.bank.spendableCoin ctx' a k.bank.extendedCoinDenom =
      k.bank.spendableCoin ctx a k.bank.extendedCoinDenom +
        weightOf a addr.bytes * k.balanceDelta ctx addr amount :=
  (valueFlow_setBalance hwired hbacked hok).1.spendableCoin_eq hwired.bank
    (weightOf_reserve_setBalance hwired hbacked hok) a

theorem getBalance_setBalance (a : AccAddress) :
    k.bank.getBalance ctx' a k.bank.extendedCoinDenom =
      k.bank.getBalance ctx a k.bank.extendedCoinDenom +
        weightOf a addr.bytes * k.balanceDelta ctx addr amount :=
  (valueFlow_setBalance hwired hbacked hok).1.getBalance_eq hwired.bank.toMovesExactly
    (weightOf_reserve_setBalance hwired hbacked hok) a

theorem setBalance_spendableCoin : k.spendableCoin ctx' addr = amount.toNat := by
  unfold spendableCoin
  rw [spendableCoin_setBalance hwired hbacked hok, weightOf_self, balanceDelta, spendableCoin]
  ring

end

structure SameCoins (k : PreciseBank.Keeper S) (ctx ctx' : Ctx S) : Prop where
  getBalance_eq : k.bk.getBalance ctx'.store.sdk = k.bk.getBalance ctx.store.sdk
  getSupply_eq : k.bk.getSupply ctx'.store.sdk = k.bk.getSupply ctx.store.sdk
  fractional_eq : ctx'.store.fractionalBalances = ctx.store.fractionalBalances
  remainder_eq : ctx'.store.remainderAmount = ctx.store.remainderAmount

namespace SameCoins

variable {bank : PreciseBank.Keeper S}

section

variable (hsame : SameCoins bank ctx ctx')

include hsame

theorem getFractionalBalance_eq (a : AccAddress) :
    getFractionalBalance ctx' a = getFractionalBalance ctx a := by
  unfold getFractionalBalance
  rw [hsame.fractional_eq]

theorem getRemainderAmount_eq : getRemainderAmount ctx' = getRemainderAmount ctx := by
  unfold getRemainderAmount
  rw [hsame.remainder_eq]

theorem backed (hbacked : Backed bank ctx) : Backed bank ctx' where
  backing := by
    unfold getTotalSumFractionalBalances
    rw [hsame.getBalance_eq, hsame.getRemainderAmount_eq, hsame.fractional_eq]
    exact hbacked.backing
  fractional a := by
    rw [hsame.getFractionalBalance_eq]
    exact hbacked.fractional a
  reserve := by
    rw [hsame.getFractionalBalance_eq]
    exact hbacked.reserve
  remainder := by
    rw [hsame.getRemainderAmount_eq]
    exact hbacked.remainder

theorem circulatingValue_eq : bank.circulatingValue ctx' = bank.circulatingValue ctx := by
  unfold circulatingValue
  rw [hsame.getSupply_eq, hsame.getRemainderAmount_eq]

theorem balance_eq (a : AccAddress) :
    bank.getBalance ctx' a bank.extendedCoinDenom = bank.getBalance ctx a bank.extendedCoinDenom := by
  unfold PreciseBank.Keeper.getBalance
  rw [hsame.getBalance_eq, hsame.getFractionalBalance_eq]

theorem spendable_eq {a : AccAddress}
    (hspendable : bank.bk.spendableCoin ctx'.store.sdk a = bank.bk.spendableCoin ctx.store.sdk a) :
    bank.spendableCoin ctx' a bank.extendedCoinDenom =
      bank.spendableCoin ctx a bank.extendedCoinDenom := by
  unfold PreciseBank.Keeper.spendableCoin
  rw [hspendable, hsame.getFractionalBalance_eq]

end

end SameCoins

end CosmosEvm.Vm.Keeper
