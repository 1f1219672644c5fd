import CosmosEvm.PreciseBank.Value

/-!
# Flows of extended coins

One statement for what a mint, a burn and a send of extended coins do to every account but the reserve.
-/

namespace CosmosEvm.PreciseBank.Keeper

open SparseLedger Digit Result BankKeeper

variable {S : Type} {k : Keeper S} {ctx ctx' ctx'' : Ctx S}

def extendedCoins (k : Keeper S) (amt : ℤ) : Coins := Coins.newCoins ⟨k.extendedCoinDenom, amt⟩

/-- The integer supply in extended units, without the remainder that belongs to nobody. -/
def circulatingValue (k : Keeper S) (ctx : Ctx S) : ℤ :=
  k.bk.getSupply ctx.store.sdk k.integerCoinDenom * k.conversionFactor - getRemainderAmount ctx

def Touched (k : Keeper S) (parties : List AccAddress) (a : AccAddress) : Prop :=
  a = k.reserve.address ∨ a ∈ parties

theorem touched_reserve (k : Keeper S) (parties : List AccAddress) :
    k.Touched parties k.reserve.address := .inl rfl

theorem touched_of_mem (k : Keeper S) {parties : List AccAddress} {a : AccAddress} (ha : a ∈ parties) :
    k.Touched parties a := .inr ha

structure ValueFlow (k : Keeper S) (ctx ctx' : Ctx S) (parties : List AccAddress)
    (gain : AccAddress → ℤ) (minted : ℤ) : Prop where
  backed : Backed k ctx'
  value : ∀ {measure : S → Denom → ℤ} {a : AccAddress}, a ≠ k.reserve.address →
    Tracks k.bk k.modules (fun s _ denom => measure s denom) (weightOf a) →
      k.valueOf measure ctx' a = k.valueOf measure ctx a + gain a
  circulating : k.circulatingValue ctx' = k.circulatingValue ctx + minted
  evm_eq : ctx'.store.evm = ctx.store.evm
  reaches : k.bk.Reaches k.modules (k.Touched parties) ctx.store.sdk ctx'.store.sdk

namespace ValueFlow

variable {parties : List AccAddress} {gain gain' : AccAddress → ℤ} {minted minted' : ℤ}

theorem refl (hbacked : Backed k ctx) : ValueFlow k ctx ctx parties (fun _ => 0) 0 where
  backed := hbacked
  value _ _ := by ring
  circulating := by ring
  evm_eq := rfl
  reaches := .refl

theorem trans (hfirst : ValueFlow k ctx ctx' parties gain minted)
    (hsecond : ValueFlow k ctx' ctx'' parties gain' minted') :
    ValueFlow k ctx ctx'' parties (fun a => gain a + gain' a) (minted + minted') where
  backed := hsecond.backed
  value ha htracks := by
    rw [hsecond.value ha htracks, hfirst.value ha htracks]
    ring
  circulating := by
    rw [hsecond.circulating, hfirst.circulating]
    ring
  evm_eq := hsecond.evm_eq.trans hfirst.evm_eq
  reaches := hfirst.reaches.trans hsecond.reaches

theorem congr (hflow : ValueFlow k ctx ctx' parties gain minted) (hgain : ∀ a, gain a = gain' a)
    (hminted : minted = minted') : ValueFlow k ctx ctx' parties gain' minted' := by
  rw [show gain = gain' from funext hgain, hminted] at hflow
  exact hflow

theorem mono {more : List AccAddress} (hflow : ValueFlow k ctx ctx' parties gain minted)
    (hmore : ∀ a ∈ parties, a ∈ more) : ValueFlow k ctx ctx' more gain minted :=
  { hflow with reaches := hflow.reaches.mono fun _ htouched => htouched.imp_right (hmore _) }

theorem spendableCoin_eq (hflow : ValueFlow k ctx ctx' parties gain minted)
    (hbank : Lawful k.bk k.modules) (hreserve : gain k.reserve.address = 0) (a : AccAddress) :
    k.spendableCoin ctx' a k.extendedCoinDenom =
      k.spendableCoin ctx a k.extendedCoinDenom + gain a := by
  by_cases ha : a = k.reserve.address
  · subst ha
    simp [spendableCoin, k.getModuleAddress_moduleName, hreserve]
  · rw [spendableCoin_extendedCoinDenom ha, spendableCoin_extendedCoinDenom ha]
    exact hflow.value ha (hbank.tracks_spendable a)

theorem getBalance_eq (hflow : ValueFlow k ctx ctx' parties gain minted)
    (hbank : MovesExactly k.bk k.modules) (hreserve : gain k.reserve.address = 0) (a : AccAddress) :
    k.getBalance ctx' a k.extendedCoinDenom = k.getBalance ctx a k.extendedCoinDenom + gain a := by
  by_cases ha : a = k.reserve.address
  · subst ha
    rw [getBalance_reserve, getBalance_reserve, hreserve, add_zero]
  · rw [getBalance_extendedCoinDenom ha, getBalance_extendedCoinDenom ha]
    exact hflow.value ha (hbank.tracks_balance a)

end ValueFlow

section

variable {amt : ℤ} {name : ModuleName} {acc : ModuleAccount} {sender recipient : AccAddress}
  {flow : (AccAddress → ℤ) → Denom → ℤ}

theorem amountOf_extendedCoins (amt : ℤ) : (k.extendedCoins amt).amountOf k.extendedCoinDenom = amt := by
  simp [extendedCoins, Coins.amountOf_newCoins]

theorem isValid_extendedCoins (hamt : 0 ≤ amt) : (k.extendedCoins amt).IsValid :=
  Coins.isValid_newCoins k.coinInfo.validateDenom_extendedDenom hamt

theorem passthroughCoins_extendedCoins (hamt : 0 ≤ amt) : k.passthroughCoins (k.extendedCoins amt) = [] := by
  rw [passthroughCoins_eq_filter (isValid_extendedCoins hamt), extendedCoins, Coins.newCoins]
  split <;> simp

theorem mintCoins_extendedCoins (hname : name ≠ moduleName)
    (hacc : k.modules.getModuleAccount name = some acc) (hminter : .minter ∈ acc.permissions) (hamt : 0 ≤ amt) :
    k.mintCoins ctx name (k.extendedCoins amt) = .ok ctx' ↔
      (if 0 < amt then k.mintExtendedCoin ctx name amt else .ok ctx) = .ok ctx' := by
  rw [mintCoins_eq_ok_iff]
  simp [passthroughCoins_extendedCoins hamt, amountOf_extendedCoins, hname, hacc, hminter,
    isValid_extendedCoins hamt]

theorem burnCoins_extendedCoins (hname : name ≠ moduleName)
    (hacc : k.modules.getModuleAccount name = some acc) (hburner : .burner ∈ acc.permissions) (hamt : 0 ≤ amt) :
    k.burnCoins ctx name (k.extendedCoins amt) = .ok ctx' ↔
      (if 0 < amt then k.burnExtendedCoin ctx name amt else .ok ctx) = .ok ctx' := by
  rw [burnCoins_eq_ok_iff]
  simp [passthroughCoins_extendedCoins hamt, amountOf_extendedCoins, hname, hacc, hburner,
    isValid_extendedCoins hamt]

theorem sendCoins_extendedCoins (hamt : 0 ≤ amt) :
    k.sendCoins ctx sender recipient (k.extendedCoins amt) = .ok ctx' ↔
      (if 0 < amt then k.sendExtendedCoins ctx sender recipient amt else .ok ctx) = .ok ctx' := by
  rw [sendCoins_eq_ok_iff]
  simp [passthroughCoins_extendedCoins hamt, amountOf_extendedCoins, isValid_extendedCoins hamt,
    Coins.isAllPositive]

theorem BankMove.evm_eq (hmove : BankMove k ctx ctx' flow) : ctx'.store.evm = ctx.store.evm := by
  rw [hmove.store_eq]

section

variable (hbank : Lawful k.bk k.modules) (hbacked : Backed k ctx)

include hbank hbacked

theorem valueFlow_of_fractionalChange {address : AccAddress} (haddress : address ≠ k.reserve.address) {delta : ℤ}
    (hchange : FractionalChange k ctx address delta ctx') :
    ValueFlow k ctx ctx' [address] (fun a => weightOf a address * delta) delta := by
  have hbacked' := (hbacked.backedWith.of_fractionalChange hbank.toMovesExactly haddress hchange).backed
  obtain ⟨hmove, hreaches, -, -, hvalue, hcirculating⟩ := hchange
  refine ⟨hbacked', fun {measure a} ha htracks => ?_, ?_, hmove.evm_eq,
    hreaches (k.touched_reserve _) (k.touched_of_mem (List.mem_singleton_self _))⟩
  · unfold valueOf
    rw [afterFractionalChange_sdk, getFractionalBalance_afterFractionalChange, hmove.measure_eq htracks,
      hmove.getFractionalBalance_eq, atInteger_self, weightOf_of_ne (Ne.symm ha)]
    by_cases heq : a = address
    · rw [heq, weightOf_self, if_pos rfl]
      linear_combination hvalue
    · rw [weightOf_of_ne (Ne.symm heq), if_neg heq]
      ring
  · unfold circulatingValue
    rw [afterFractionalChange_sdk, getRemainderAmount_afterFractionalChange,
      hmove.measure_eq hbank.tracks_supply, atInteger_self]
    linear_combination hcirculating

theorem valueFlow_mintExtendedCoin (hname : name ≠ moduleName) (hacc : k.modules.getModuleAccount name = some acc)
    (hamt : 0 ≤ amt) (hok : k.mintExtendedCoin ctx name amt = .ok ctx') :
    ValueFlow k ctx ctx' [acc.address] (fun a => weightOf a acc.address * amt) amt :=
  valueFlow_of_fractionalChange hbank hbacked (module_address_ne_reserve hname hacc)
    (fractionalChange_of_mint hbank.toMovesExactly hbacked.fractional hbacked.remainder hname hacc hamt hok)

theorem valueFlow_burnExtendedCoin (hname : name ≠ moduleName) (hacc : k.modules.getModuleAccount name = some acc)
    (hamt : 0 ≤ amt) (hok : k.burnExtendedCoin ctx name amt = .ok ctx') :
    ValueFlow k ctx ctx' [acc.address] (fun a => weightOf a acc.address * -amt) (-amt) :=
  valueFlow_of_fractionalChange hbank hbacked (module_address_ne_reserve hname hacc)
    (fractionalChange_of_burn hbank.toMovesExactly hbacked.fractional hbacked.remainder hname hacc hamt hok)

/-- Borrow and carry cancel out with the coins that pass through the reserve. -/
theorem valueFlow_sendExtendedCoins (hsender : sender ≠ k.reserve.address) (hrecipient : recipient ≠ k.reserve.address)
    (hamt : 0 ≤ amt) (hok : k.sendExtendedCoins ctx sender recipient amt = .ok ctx') :
    ValueFlow k ctx ctx' [sender, recipient]
      (fun a => (weightOf a recipient - weightOf a sender) * amt) 0 := by
  have hsent := fractionalSend_of_ok hbank.toMovesExactly hbacked.fractional hsender hrecipient hamt hok
  have hmoved : ctx'.store.evm = ctx.store.evm ∧
      k.bk.Reaches k.modules (k.Touched [sender, recipient]) ctx.store.sdk ctx'.store.sdk := by
    cases hsent with
    | self => exact ⟨rfl, .refl⟩
    | moved _ _ _ hmove hreaches =>
      exact ⟨hmove.evm_eq, hreaches (k.touched_reserve _) (k.touched_of_mem (by simp)) (k.touched_of_mem (by simp))⟩
  refine ⟨(hbacked.backedWith.of_fractionalSend hbank.toMovesExactly hsender hrecipient hsent).backed,
    fun ha htracks => hsent.valueOf_eq htracks ha, ?_, hmoved.1, hmoved.2⟩
  unfold circulatingValue
  rw [hsent.frame.1, hsent.frame.2 hbank.tracks_supply, add_zero]

end

end

end CosmosEvm.PreciseBank.Keeper
