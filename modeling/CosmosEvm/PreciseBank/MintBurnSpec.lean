import CosmosEvm.PreciseBank.Spec

namespace CosmosEvm.PreciseBank.Keeper

open SparseLedger Digit Result BankKeeper

variable {S : Type} {k : Keeper S} {ctx ctx' : Ctx S}

/-- What a mint or a burn leaves behind once the bank has moved the integer coins. -/
def afterFractionalChange (k : Keeper S) (ctx : Ctx S) (address : AccAddress)
    (f f' r' : ℤ) : Ctx S :=
  k.emitEventFractionalBalanceChange
    (withRemainder (withFractional ctx (assign ctx.store.fractionalBalances address f')) r')
    address f f'

@[simp]
theorem afterFractionalChange_sdk (address : AccAddress) (f f' r' : ℤ) :
    (k.afterFractionalChange ctx address f f' r').store.sdk = ctx.store.sdk := rfl

@[simp]
theorem getRemainderAmount_afterFractionalChange (address : AccAddress) (f f' r' : ℤ) :
    getRemainderAmount (k.afterFractionalChange ctx address f f' r') = r' :=
  getRemainderAmount_withRemainder r'

theorem getFractionalBalance_afterFractionalChange (address other : AccAddress) (f f' r' : ℤ) :
    getFractionalBalance (k.afterFractionalChange ctx address f f' r') other =
      if other = address then f' else getFractionalBalance ctx other :=
  valueAt_assign _ _ _ _

theorem getTotalSumFractionalBalances_afterFractionalChange (address : AccAddress) (f f' r' : ℤ) :
    getTotalSumFractionalBalances (k.afterFractionalChange ctx address f f' r') =
      getTotalSumFractionalBalances ctx + f' - getFractionalBalance ctx address :=
  total_assign _ _ _

theorem callBank_withFractional_eq_ok_iff {fractional : Finmap fun _ : AccAddress => ℤ}
    {call : S → Except Err (S × List Event)} :
    callBank (withFractional ctx fractional) call = .ok ctx' ↔
      ∃ ctx₁, callBank ctx call = .ok ctx₁ ∧ ctx' = withFractional ctx₁ fractional := by
  simp only [callBank_eq_ok_iff]
  constructor
  · rintro ⟨sdk, events, hcall, rfl⟩
    exact ⟨_, ⟨sdk, events, hcall, rfl⟩, rfl⟩
  · rintro ⟨_, ⟨sdk, events, hcall, rfl⟩, rfl⟩
    exact ⟨sdk, events, hcall, rfl⟩

theorem ite_callBank_withFractional_eq_ok_iff {condition : Prop} [Decidable condition]
    {fractional : Finmap fun _ : AccAddress => ℤ} {call : S → Except Err (S × List Event)}
    {rewrite : Err → Err} :
    (if condition then (callBank (withFractional ctx fractional) call).mapError rewrite
      else .ok (withFractional ctx fractional)) = .ok ctx' ↔
      ∃ ctx₁, (if condition then callBank ctx call else .ok ctx) = .ok ctx₁ ∧
        ctx' = withFractional ctx₁ fractional := by
  by_cases hcondition : condition
  · simp only [hcondition, if_true, mapError_eq_ok_iff, callBank_withFractional_eq_ok_iff]
  · simp [hcondition, eq_comm]

theorem fractionalBalances_of_ite_callBank {condition : Prop} [Decidable condition]
    {call : S → Except Err (S × List Event)}
    (hok : (if condition then callBank ctx call else .ok ctx) = .ok ctx') :
    ctx'.store.fractionalBalances = ctx.store.fractionalBalances := by
  rcases ite_eq_ok_iff.mp hok with ⟨_, hcall⟩ | ⟨_, rfl⟩
  · obtain ⟨sdk, events, _, rfl⟩ := callBank_eq_ok_iff.mp hcall
    rfl
  · rfl

def mintIntegerCoins (k : Keeper S) (ctx : Ctx S) (name : ModuleName)
    (integerMintAmount : ℤ) (carries short : Bool) : Except Err (Ctx S) := do
  let ctx ← (if carries && !short then
      callBank ctx fun s => k.bk.sendCoinsFromModuleToModule s moduleName name (k.integerCoins 1)
    else .ok ctx)
  let minted := if carries && short then integerMintAmount + 1 else integerMintAmount
  let ctx ← (if 0 < minted then
      callBank ctx fun s => k.bk.mintCoins s name (k.integerCoins minted)
    else .ok ctx)
  if short && !carries then callBank ctx fun s => k.bk.mintCoins s moduleName (k.integerCoins 1)
  else .ok ctx

theorem mintExtendedCoin_eq_ok_iff {name : ModuleName} {acc : ModuleAccount} {amt : ℤ}
    (hname : name ≠ moduleName) (hacc : k.modules.getModuleAccount name = some acc)
    (hamt : 0 ≤ amt)
    (hf : IsDigit k.conversionFactor (getFractionalBalance ctx acc.address))
    (hr : IsDigit k.conversionFactor (getRemainderAmount ctx)) :
    let f := getFractionalBalance ctx acc.address
    let r := getRemainderAmount ctx
    let e := amt % k.conversionFactor
    k.mintExtendedCoin ctx name amt = .ok ctx' ↔
      ∃ ctx₁, k.mintIntegerCoins ctx name (amt / k.conversionFactor)
          (decide (k.conversionFactor ≤ f + e)) (decide (r < e)) = .ok ctx₁ ∧
        ctx' = k.afterFractionalChange ctx₁ acc.address
          f (f + e - carry k.conversionFactor f e * k.conversionFactor)
          (r - e + borrow r e * k.conversionFactor) := by
  intro f r e
  have he : IsDigit k.conversionFactor e := k.isDigit_fraction amt
  have hf' := isDigit_add_sub_carry hf he
  have hr' := isDigit_sub_add_borrow hr he
  have haddress : k.modules.getModuleAddress name = acc.address := by
    simp [ModuleAccounts.getModuleAddress, hacc]
  unfold mintExtendedCoin mintIntegerCoins
  simp only [hname, if_false, Int.tdiv_eq_ediv_of_nonneg hamt, haddress, Bool.and_eq_true,
    decide_eq_true_eq, Bool.not_eq_true', decide_eq_false_iff_not, sub_neg, sub_nonneg, not_lt]
  rw [ite_le_add_eq, ite_lt_sub_eq]
  simp only [bind_eq_ok_iff, pure_eq_ok_iff, setFractionalBalance_eq_ok_iff,
    setRemainderAmount_eq_ok_iff]
  constructor
  · rintro ⟨ctx₁, hsend, ctx₂, hmint, _, ⟨_, _, rfl⟩, ctx₄, hreserve, _, ⟨_, rfl⟩, rfl⟩
    obtain ⟨ctx₃, hreserve', rfl⟩ := ite_callBank_withFractional_eq_ok_iff.mp hreserve
    refine ⟨ctx₃, ⟨ctx₁, hsend, ctx₂, hmint, hreserve'⟩, ?_⟩
    rw [afterFractionalChange, fractionalBalances_of_ite_callBank hreserve']
  · rintro ⟨ctx₃, ⟨ctx₁, hsend, ctx₂, hmint, hreserve⟩, rfl⟩
    refine ⟨ctx₁, hsend, ctx₂, hmint, _, ⟨acc.address_ne_nil, hf', rfl⟩, _,
      ite_callBank_withFractional_eq_ok_iff.mpr ⟨ctx₃, hreserve, rfl⟩, _, ⟨hr', rfl⟩, ?_⟩
    rw [afterFractionalChange, fractionalBalances_of_ite_callBank hreserve]

theorem mintIntegerCoins_moves (hbank : MovesExactly k.bk k.modules) {name : ModuleName}
    {acc : ModuleAccount} {integerMintAmount f r e : ℤ}
    (hacc : k.modules.getModuleAccount name = some acc) (hnonneg : 0 ≤ integerMintAmount)
    (hok : k.mintIntegerCoins ctx name integerMintAmount (decide (k.conversionFactor ≤ f + e))
      (decide (r < e)) = .ok ctx') :
    (BankMove k ctx ctx' fun weight => k.atInteger
      (weight acc.address * (integerMintAmount + carry k.conversionFactor f e) +
        weight k.reserve.address * (borrow r e - carry k.conversionFactor f e))) ∧
    ∀ {touched : AccAddress → Prop}, touched k.reserve.address → touched acc.address →
      k.bk.Reaches k.modules touched ctx.store.sdk ctx'.store.sdk := by
  unfold mintIntegerCoins at hok
  obtain ⟨ctx₁, hfirst, hok⟩ := bind_eq_ok_iff.mp hok
  obtain ⟨ctx₂, hsecond, hthird⟩ := bind_eq_ok_iff.mp hok
  simp only [hbank.sendCoinsFromModuleToModule_eq k.getModuleAccount_moduleName hacc] at hfirst
  have hcarry := BankMove.ite bankMove_sendCoins hfirst
  have hdirect := BankMove.ite (bankMove_mintCoins hacc) hsecond
  have hreserve := BankMove.ite (bankMove_mintCoins k.getModuleAccount_moduleName) hthird
  refine ⟨((hcarry.trans hdirect).trans hreserve).congr fun weight denom => ?_, fun hreserve haddress =>
    ((reaches_ite (reaches_sendCoins hreserve haddress) hfirst).trans
      (reaches_ite (reaches_mintCoins hacc haddress) hsecond)).trans
      (reaches_ite (reaches_mintCoins k.getModuleAccount_moduleName hreserve) hthird)⟩
  simp only [amountOf_integerCoins, atInteger]
  by_cases hdenom : k.integerCoinDenom = denom
  · simp only [hdenom, if_true]
    rw [ite_pos_mul_eq _ (by split <;> omega)]
    unfold borrow carry
    by_cases hc : k.conversionFactor ≤ f + e <;> by_cases hs : r < e <;> simp [hc, hs]
    ring
  · simp [hdenom]

def burnIntegerCoins (k : Keeper S) (ctx : Ctx S) (name : ModuleName)
    (integerBurnAmount : ℤ) (borrows overflows : Bool) : Except Err (Ctx S) := do
  let ctx ← (if borrows && !overflows then
      callBank ctx fun s => k.bk.sendCoinsFromModuleToModule s name moduleName (k.integerCoins 1)
    else .ok ctx)
  let ctx ← (if !borrows && overflows then
      callBank ctx fun s => k.bk.burnCoins s moduleName (k.integerCoins 1)
    else .ok ctx)
  let burned := if borrows && overflows then integerBurnAmount + 1 else integerBurnAmount
  if burned ≠ 0 then callBank ctx fun s => k.bk.burnCoins s name (k.integerCoins burned)
  else .ok ctx

section

variable {name : ModuleName} {acc : ModuleAccount} {amt : Coins} {denom : Denom}

theorem burnExtendedCoin_eq_ok_iff {amt : ℤ} (hname : name ≠ moduleName)
    (hacc : k.modules.getModuleAccount name = some acc) (hamt : 0 ≤ amt)
    (hf : IsDigit k.conversionFactor (getFractionalBalance ctx acc.address))
    (hr : IsDigit k.conversionFactor (getRemainderAmount ctx)) :
    let f := getFractionalBalance ctx acc.address
    let r := getRemainderAmount ctx
    let e := amt % k.conversionFactor
    k.burnExtendedCoin ctx name amt = .ok ctx' ↔
      ∃ ctx₁, k.burnIntegerCoins ctx name (amt / k.conversionFactor)
          (decide (f < e)) (decide (k.conversionFactor ≤ r + e)) = .ok ctx₁ ∧
        ctx' = k.afterFractionalChange ctx₁ acc.address
          f (f - e + borrow f e * k.conversionFactor)
          (r + e - carry k.conversionFactor r e * k.conversionFactor) := by
  intro f r e
  have he : IsDigit k.conversionFactor e := k.isDigit_fraction amt
  have hf' := isDigit_sub_add_borrow hf he
  have hr' := isDigit_add_sub_carry hr he
  have haddress : k.modules.getModuleAddress name = acc.address := by
    simp [ModuleAccounts.getModuleAddress, hacc]
  unfold burnExtendedCoin burnIntegerCoins
  simp only [hname, if_false, Int.tdiv_eq_ediv_of_nonneg hamt, haddress, Bool.and_eq_true,
    decide_eq_true_eq, Bool.not_eq_true', decide_eq_false_iff_not, sub_neg]
  rw [ite_le_add_eq, ite_lt_sub_eq]
  simp only [bind_eq_ok_iff, pure_eq_ok_iff, setFractionalBalance_eq_ok_iff,
    setRemainderAmount_eq_ok_iff, ite_eq_ok_iff, mapError_eq_ok_iff]
  constructor
  · rintro ⟨ctx₁, hsend, ctx₂, hreserve, ctx₃, hburn, _, ⟨_, _, rfl⟩, _, ⟨_, rfl⟩, rfl⟩
    exact ⟨ctx₃, ⟨ctx₁, hsend, ctx₂, hreserve, hburn⟩, rfl⟩
  · rintro ⟨ctx₃, ⟨ctx₁, hsend, ctx₂, hreserve, hburn⟩, rfl⟩
    exact ⟨ctx₁, hsend, ctx₂, hreserve, ctx₃, hburn, _, ⟨acc.address_ne_nil, hf', rfl⟩, _,
      ⟨hr', rfl⟩, rfl⟩

theorem burnIntegerCoins_moves (hbank : MovesExactly k.bk k.modules) {integerBurnAmount f r e : ℤ}
    (hacc : k.modules.getModuleAccount name = some acc)
    (hok : k.burnIntegerCoins ctx name integerBurnAmount (decide (f < e))
      (decide (k.conversionFactor ≤ r + e)) = .ok ctx') :
    (BankMove k ctx ctx' fun weight => k.atInteger
      (weight acc.address * -(integerBurnAmount + borrow f e) +
        weight k.reserve.address * (borrow f e - carry k.conversionFactor r e))) ∧
    ∀ {touched : AccAddress → Prop}, touched k.reserve.address → touched acc.address →
      k.bk.Reaches k.modules touched ctx.store.sdk ctx'.store.sdk := by
  unfold burnIntegerCoins at hok
  obtain ⟨ctx₁, hfirst, hok⟩ := bind_eq_ok_iff.mp hok
  obtain ⟨ctx₂, hsecond, hthird⟩ := bind_eq_ok_iff.mp hok
  simp only [hbank.sendCoinsFromModuleToModule_eq hacc k.getModuleAccount_moduleName] at hfirst
  have hborrow := BankMove.ite bankMove_sendCoins hfirst
  have hreserve := BankMove.ite (bankMove_burnCoins k.getModuleAccount_moduleName) hsecond
  have hdirect := BankMove.ite (bankMove_burnCoins hacc) hthird
  refine ⟨((hborrow.trans hreserve).trans hdirect).congr fun weight denom => ?_, fun hreserve haddress =>
    ((reaches_ite (reaches_sendCoins haddress hreserve) hfirst).trans
      (reaches_ite (reaches_burnCoins k.getModuleAccount_moduleName hreserve) hsecond)).trans
      (reaches_ite (reaches_burnCoins hacc haddress) hthird)⟩
  simp only [amountOf_integerCoins, atInteger]
  by_cases hdenom : k.integerCoinDenom = denom
  · simp only [hdenom, if_true, ne_eq, ite_not]
    rw [show ∀ burned : ℤ, (if burned = 0 then 0 else -(weight acc.address * burned)) =
        -(weight acc.address * burned) from fun burned => by split <;> simp [*]]
    unfold borrow carry
    by_cases hb : f < e <;> by_cases ho : k.conversionFactor ≤ r + e <;> simp [hb, ho] <;> ring
  · simp [hdenom]

/-- A mint of `delta` extended units at `address`, or a burn of `-delta`: whole units go through the bank, and the
digits of the account and of the remainder take the rest. -/
inductive FractionalChange (k : Keeper S) (ctx : Ctx S) (address : AccAddress) (delta : ℤ) : Ctx S → Prop where
  | moved {ctx₁ : Ctx S} {f' r' units reserveUnits : ℤ}
      (hmove : BankMove k ctx ctx₁ fun weight => k.atInteger
        (weight address * units + weight k.reserve.address * reserveUnits))
      (hreaches : ∀ {touched : AccAddress → Prop}, touched k.reserve.address → touched address →
        k.bk.Reaches k.modules touched ctx.store.sdk ctx₁.store.sdk)
      (hf' : IsDigit k.conversionFactor f') (hr' : IsDigit k.conversionFactor r')
      (hvalue : units * k.conversionFactor + f' - getFractionalBalance ctx address = delta)
      (hcirculating : (units + reserveUnits) * k.conversionFactor - r' + getRemainderAmount ctx = delta) :
      FractionalChange k ctx address delta
        (k.afterFractionalChange ctx₁ address (getFractionalBalance ctx address) f' r')

section

variable {amt : ℤ} (hbank : MovesExactly k.bk k.modules)
  (hdigits : ∀ a, IsDigit k.conversionFactor (getFractionalBalance ctx a))
  (hr : IsDigit k.conversionFactor (getRemainderAmount ctx)) (hname : name ≠ moduleName)
  (hacc : k.modules.getModuleAccount name = some acc) (hamt : 0 ≤ amt)

include hbank hdigits hr hname hacc hamt

theorem fractionalChange_of_mint (hok : k.mintExtendedCoin ctx name amt = .ok ctx') :
    FractionalChange k ctx acc.address amt ctx' := by
  obtain ⟨ctx₁, hinteger, rfl⟩ := (mintExtendedCoin_eq_ok_iff hname hacc hamt (hdigits acc.address) hr).mp hok
  obtain ⟨hmove, hreaches⟩ := mintIntegerCoins_moves hbank hacc
    (Int.ediv_nonneg hamt k.conversionFactor_pos.le) hinteger
  have he := k.isDigit_fraction amt
  have hsplit := k.ediv_mul_add_emod amt
  refine .moved hmove hreaches (isDigit_add_sub_carry (hdigits acc.address) he) (isDigit_sub_add_borrow hr he) ?_ ?_
  · linear_combination hsplit
  · linear_combination hsplit

theorem fractionalChange_of_burn (hok : k.burnExtendedCoin ctx name amt = .ok ctx') :
    FractionalChange k ctx acc.address (-amt) ctx' := by
  obtain ⟨ctx₁, hinteger, rfl⟩ := (burnExtendedCoin_eq_ok_iff hname hacc hamt (hdigits acc.address) hr).mp hok
  obtain ⟨hmove, hreaches⟩ := burnIntegerCoins_moves hbank hacc hinteger
  have he := k.isDigit_fraction amt
  have hsplit := k.ediv_mul_add_emod amt
  refine .moved hmove hreaches (isDigit_sub_add_borrow (hdigits acc.address) he) (isDigit_add_sub_carry hr he) ?_ ?_
  · linear_combination -hsplit
  · linear_combination -hsplit

end

theorem checkModule_eq_ok_iff {permission : Permission} {reserveText permissionText : String} {checked : Unit} :
    k.checkModule name permission amt reserveText permissionText = .ok checked ↔
      name ≠ moduleName ∧ (∃ acc, k.modules.getModuleAccount name = some acc ∧
        permission ∈ acc.permissions) ∧ amt.IsValid := by
  unfold checkModule
  by_cases hname : name = moduleName
  · simp [hname]
  cases hacc : k.modules.getModuleAccount name with
  | none => simp [hname]
  | some acc =>
    by_cases hpermission : permission ∈ acc.permissions
    · by_cases hvalid : amt.IsValid <;> simp [hname, hpermission, hvalid]
    · simp [hname, hpermission]

theorem mintCoins_eq_ok_iff :
    k.mintCoins ctx name amt = .ok ctx' ↔
      (name ≠ moduleName ∧ (∃ acc, k.modules.getModuleAccount name = some acc ∧
        .minter ∈ acc.permissions) ∧ amt.IsValid) ∧ ∃ ctx₁,
      (if k.passthroughCoins amt ≠ [] then
        callBank ctx fun s => k.bk.mintCoins s name (k.passthroughCoins amt)
      else .ok ctx) = .ok ctx₁ ∧
      (if 0 < amt.amountOf k.extendedCoinDenom then
        k.mintExtendedCoin ctx₁ name (amt.amountOf k.extendedCoinDenom)
      else .ok ctx₁) = .ok ctx' := by
  unfold mintCoins
  simp only [bind_eq_ok_iff, exists_const, checkModule_eq_ok_iff]

theorem burnCoins_eq_ok_iff :
    k.burnCoins ctx name amt = .ok ctx' ↔
      (name ≠ moduleName ∧ (∃ acc, k.modules.getModuleAccount name = some acc ∧
        .burner ∈ acc.permissions) ∧ amt.IsValid) ∧ ∃ ctx₁,
      (if k.passthroughCoins amt ≠ [] then
        callBank ctx fun s => k.bk.burnCoins s name (k.passthroughCoins amt)
      else .ok ctx) = .ok ctx₁ ∧
      (if 0 < amt.amountOf k.extendedCoinDenom then
        k.burnExtendedCoin ctx₁ name (amt.amountOf k.extendedCoinDenom)
      else .ok ctx₁) = .ok ctx' := by
  unfold burnCoins
  simp only [bind_eq_ok_iff, exists_const, checkModule_eq_ok_iff]

theorem bankMove_passthrough_mintCoins (hacc : k.modules.getModuleAccount name = some acc)
    (hok : (if k.passthroughCoins amt ≠ [] then
        callBank ctx fun s => k.bk.mintCoins s name (k.passthroughCoins amt)
      else .ok ctx) = .ok ctx') :
    BankMove k ctx ctx' fun weight denom =>
      weight acc.address * (k.passthroughCoins amt).amountOf denom :=
  BankMove.passthrough (fun weight => weight acc.address) Iff.rfl (bankMove_mintCoins hacc) hok

theorem bankMove_passthrough_burnCoins (hacc : k.modules.getModuleAccount name = some acc)
    (hok : (if k.passthroughCoins amt ≠ [] then
        callBank ctx fun s => k.bk.burnCoins s name (k.passthroughCoins amt)
      else .ok ctx) = .ok ctx') :
    BankMove k ctx ctx' fun weight denom =>
      -weight acc.address * (k.passthroughCoins amt).amountOf denom := by
  refine BankMove.passthrough (fun weight => -weight acc.address) Iff.rfl (fun hburn => ?_) hok
  exact (bankMove_burnCoins hacc hburn).congr fun weight denom => by ring

theorem amountOf_passthroughCoins_singleton {amt : ℤ} (hne : denom ≠ k.extendedCoinDenom)
    (hvalid : Coins.IsValid [⟨denom, amt⟩]) (other : Denom) :
    (k.passthroughCoins [⟨denom, amt⟩]).amountOf other = Coins.amountOf [⟨denom, amt⟩] other := by
  rw [amountOf_passthroughCoins hvalid]
  split
  · rename_i heq
    rw [heq]
    simp [Coins.amountOf, hne]
  · rfl

theorem bankMove_sendCoins_singleton {amt : ℤ} {sender recipient : AccAddress}
    (hne : denom ≠ k.extendedCoinDenom) (hok : k.sendCoins ctx sender recipient [⟨denom, amt⟩] = .ok ctx') :
    BankMove k ctx ctx' fun weight other =>
      (weight recipient - weight sender) * Coins.amountOf [⟨denom, amt⟩] other := by
  obtain ⟨hvalid, ctx₁, hpass, hrest⟩ := sendCoins_eq_ok_iff.mp hok
  have hzero : ¬ 0 < Coins.amountOf [⟨denom, amt⟩] k.extendedCoinDenom := by simp [Coins.amountOf, hne]
  rw [if_neg hzero] at hrest
  cases hrest
  refine (bankMove_passthrough_sendCoins hvalid hpass).congr fun weight other => ?_
  rw [amountOf_passthroughCoins_singleton hne hvalid]

theorem bankMove_burnCoins_singleton {amt : ℤ} (hacc : k.modules.getModuleAccount name = some acc)
    (hne : denom ≠ k.extendedCoinDenom) (hok : k.burnCoins ctx name [⟨denom, amt⟩] = .ok ctx') :
    BankMove k ctx ctx' fun weight other =>
      -weight acc.address * Coins.amountOf [⟨denom, amt⟩] other := by
  obtain ⟨⟨-, -, hvalid⟩, ctx₁, hpass, hrest⟩ := burnCoins_eq_ok_iff.mp hok
  have hzero : ¬ 0 < Coins.amountOf [⟨denom, amt⟩] k.extendedCoinDenom := by simp [Coins.amountOf, hne]
  rw [if_neg hzero] at hrest
  cases hrest
  refine (bankMove_passthrough_burnCoins hacc hpass).congr fun weight other => ?_
  rw [amountOf_passthroughCoins_singleton hne hvalid]

theorem module_address_ne_reserve (hname : name ≠ moduleName)
    (hacc : k.modules.getModuleAccount name = some acc) : acc.address ≠ k.reserve.address := fun heq =>
  hname (k.modules.address_injective hacc k.getModuleAccount_moduleName heq)

end

end CosmosEvm.PreciseBank.Keeper
