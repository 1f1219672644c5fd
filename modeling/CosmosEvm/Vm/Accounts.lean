import CosmosEvm.Vm.Balance

namespace CosmosEvm.Vm.Keeper

open Result BankKeeper PreciseBank.Keeper

variable {S Acc : Type} {k : Keeper S Acc} {ctx ctx' ctx'' : Ctx S}

structure SameAt (k : Keeper S Acc) (ctx ctx' : Ctx S) (a : AccAddress) : Prop where
  account : k.ak.getAccount ctx'.store.sdk a = k.ak.getAccount ctx.store.sdk a ∨
    (a = k.account.address ∨ a = k.bank.reserve.address) ∧ k.ak.getAccount ctx.store.sdk a = none
  balance : k.bank.getBalance ctx' a k.bank.extendedCoinDenom =
    k.bank.getBalance ctx a k.bank.extendedCoinDenom
  spendable : k.bank.spendableCoin ctx' a k.bank.extendedCoinDenom =
    k.bank.spendableCoin ctx a k.bank.extendedCoinDenom
  codeHash : ∀ {addr : Address}, addr.bytes = a →
    ctx'.store.evm.codeHash.lookup addr = ctx.store.evm.codeHash.lookup addr
  storage : ∀ {addr : Address} {key : Hash}, addr.bytes = a →
    ctx'.store.evm.storage.lookup (addr, key) = ctx.store.evm.storage.lookup (addr, key)

theorem SameAt.refl (k : Keeper S Acc) (ctx : Ctx S) (a : AccAddress) :
    SameAt k ctx ctx a :=
  ⟨.inl rfl, rfl, rfl, fun _ => rfl, fun _ => rfl⟩

theorem SameAt.trans {a : AccAddress} (hfirst : SameAt k ctx ctx' a) (hsecond : SameAt k ctx' ctx'' a) :
    SameAt k ctx ctx'' a where
  account := by
    rcases hfirst.account with hsame | hnew
    · rw [← hsame]
      exact hsecond.account
    · exact .inr hnew
  balance := hsecond.balance.trans hfirst.balance
  spendable := hsecond.spendable.trans hfirst.spendable
  codeHash haddr := (hsecond.codeHash haddr).trans (hfirst.codeHash haddr)
  storage haddr := (hsecond.storage haddr).trans (hfirst.storage haddr)

/-- From `ctx` to `ctx'` nothing of another address than `addr` changes. -/
def Untouched (k : Keeper S Acc) (addr : Address) (ctx ctx' : Ctx S) : Prop :=
  ∀ a, a ≠ addr.bytes → SameAt k ctx ctx' a

theorem Untouched.trans {addr : Address} (hfirst : Untouched k addr ctx ctx')
    (hsecond : Untouched k addr ctx' ctx'') : Untouched k addr ctx ctx'' :=
  fun a ha => (hfirst a ha).trans (hsecond a ha)

theorem untouched_setBalance (hwired : k.Wired) (hbacked : Backed k.bank ctx) {addr : Address}
    {amount : BitVec 256} (hok : k.setBalance ctx addr amount = .ok ctx') :
    Untouched k addr ctx ctx' := by
  obtain ⟨hflow, -⟩ := valueFlow_setBalance hwired hbacked hok
  intro a ha
  refine ⟨?_, ?_, ?_, fun _ => ?_, fun _ => ?_⟩
  · rcases hwired.auth.getAccount_of_reaches hflow.reaches a with hsame | ⟨htouched, hnone, _⟩
    · exact .inl hsame
    · refine .inr ⟨?_, hnone⟩
      rcases htouched with hreserve | hparty
      · exact .inr hreserve
      · simp only [List.mem_cons, ha, List.not_mem_nil, or_false, false_or] at hparty
        exact .inl hparty
  · rw [getBalance_setBalance hwired hbacked hok, weightOf_of_ne (Ne.symm ha), zero_mul, add_zero]
  · rw [spendableCoin_setBalance hwired hbacked hok, weightOf_of_ne (Ne.symm ha), zero_mul, add_zero]
  · rw [hflow.evm_eq]
  · rw [hflow.evm_eq]

theorem sameCoins_withEvm {bank : PreciseBank.Keeper S} (evm : EvmStore) :
    SameCoins bank ctx (withEvm ctx evm) :=
  ⟨rfl, rfl, rfl, rfl⟩

theorem untouched_withEvm {addr : Address} {evm : EvmStore}
    (hcodeHash : ∀ other, other ≠ addr → evm.codeHash.lookup other = ctx.store.evm.codeHash.lookup other)
    (hstorage : ∀ other key, other ≠ addr →
      evm.storage.lookup (other, key) = ctx.store.evm.storage.lookup (other, key)) :
    Untouched k addr ctx (withEvm ctx evm) := fun _ ha =>
  ⟨.inl rfl, rfl, rfl, fun heq => hcodeHash _ fun hne => ha (hne ▸ heq.symm),
    fun heq => hstorage _ _ fun hne => ha (hne ▸ heq.symm)⟩

theorem untouched_withSdk {addr : Address} {sdk : S} (hsame : SameCoins k.bank ctx (withSdk ctx sdk))
    (haccount : ∀ a, a ≠ addr.bytes → k.ak.getAccount sdk a = k.ak.getAccount ctx.store.sdk a)
    (hspendable : ∀ a, a ≠ addr.bytes →
      k.bank.bk.spendableCoin sdk a = k.bank.bk.spendableCoin ctx.store.sdk a) :
    Untouched k addr ctx (withSdk ctx sdk) := fun a ha =>
  ⟨.inl (haccount a ha), hsame.balance_eq a, hsame.spendable_eq (hspendable a ha), fun _ => rfl,
    fun _ => rfl⟩

def codeHashEntry (k : Keeper S Acc) (codeHash : Hash) : Option Hash :=
  if codeHash = k.emptyCodeHash then none else some codeHash

def recordCodeHash (k : Keeper S Acc) (evm : EvmStore) (addr : Address) (codeHash : Hash) : EvmStore :=
  { evm with codeHash :=
      if codeHash = k.emptyCodeHash then evm.codeHash.erase addr else evm.codeHash.insert addr codeHash }

theorem lookup_recordCodeHash (evm : EvmStore) (addr other : Address) (codeHash : Hash) :
    (k.recordCodeHash evm addr codeHash).codeHash.lookup other =
      if other = addr then k.codeHashEntry codeHash else evm.codeHash.lookup other := by
  unfold recordCodeHash codeHashEntry
  by_cases heq : other = addr
  · subst heq
    by_cases hempty : codeHash = k.emptyCodeHash
    · simp [hempty, Finmap.lookup_erase]
    · simp [hempty, Finmap.lookup_insert]
  · by_cases hempty : codeHash = k.emptyCodeHash
    · simp [hempty, heq, Finmap.lookup_erase_ne heq]
    · simp [hempty, heq, Finmap.lookup_insert_of_ne _ heq]

structure Recorded (k : Keeper S Acc) (ctx ctx' : Ctx S) (addr : Address)
    (account : Statedb.Account) : Prop where
  coins : SameCoins k.bank ctx ctx'
  spendable_eq : k.bank.bk.spendableCoin ctx'.store.sdk = k.bank.bk.spendableCoin ctx.store.sdk
  nonce : (k.ak.getAccount ctx'.store.sdk addr.bytes).map k.ak.getSequence = some account.nonce
  others : ∀ a, a ≠ addr.bytes → k.ak.getAccount ctx'.store.sdk a = k.ak.getAccount ctx.store.sdk a
  evm_eq : ctx'.store.evm = k.recordCodeHash ctx.store.evm addr account.codeHash

theorem Recorded.untouched {addr : Address} {account : Statedb.Account}
    (hrecorded : Recorded k ctx ctx' addr account) : Untouched k addr ctx ctx' := by
  intro a ha
  refine ⟨.inl (hrecorded.others a ha), hrecorded.coins.balance_eq a,
    hrecorded.coins.spendable_eq (congrFun hrecorded.spendable_eq a), fun {other} heq => ?_,
    fun _ => ?_⟩
  · have hne : other ≠ addr := fun hother => ha (hother ▸ heq.symm)
    rw [hrecorded.evm_eq, lookup_recordCodeHash, if_neg hne]
  · rw [hrecorded.evm_eq]
    rfl

/-- Setting a nonce changes one account and no coin. -/
theorem setSequence_spec (hwired : k.Wired) {sdk : S} {addr : Address} {acct acct' : Acc}
    {sdk' : S} {nonce : UInt64}
    (hacct : k.getOrNewAccount sdk addr = (acct, sdk'))
    (hsequence : k.ak.setSequence acct nonce = .ok acct') :
    k.bank.bk.getBalance (k.ak.setAccount sdk' acct') = k.bank.bk.getBalance sdk ∧
      k.bank.bk.getSupply (k.ak.setAccount sdk' acct') = k.bank.bk.getSupply sdk ∧
      k.bank.bk.spendableCoin (k.ak.setAccount sdk' acct') = k.bank.bk.spendableCoin sdk ∧
      ∀ a, k.ak.getAccount (k.ak.setAccount sdk' acct') a =
        if a = addr.bytes then some acct' else k.ak.getAccount sdk a := by
  have hauth := hwired.auth
  obtain ⟨-, haddress⟩ := hauth.getSequence_setSequence hsequence
  rw [hauth.getBalance_setAccount, hauth.getSupply_setAccount]
  unfold getOrNewAccount at hacct
  cases hget : k.ak.getAccount sdk addr.bytes with
  | some old =>
    rw [hget] at hacct
    obtain ⟨rfl, rfl⟩ := Prod.mk.inj hacct
    refine ⟨rfl, rfl, hauth.spendable_setSequence hget hsequence, fun a => ?_⟩
    rw [hauth.getAccount_setAccount, haddress, hauth.getAddress_getAccount hget]
  | none =>
    rw [hget] at hacct
    obtain rfl : (k.ak.newAccountWithAddress sdk addr.bytes).1 = acct := congrArg Prod.fst hacct
    obtain rfl : (k.ak.newAccountWithAddress sdk addr.bytes).2 = sdk' := congrArg Prod.snd hacct
    refine ⟨hauth.getBalance_newAccount .., hauth.getSupply_newAccount ..,
      hauth.spendable_newAccount hget hsequence, fun a => ?_⟩
    rw [hauth.getAccount_setAccount, haddress, hauth.getAddress_newAccount,
      hauth.getAccount_newAccount]

theorem exists_setAccountRecord (hwired : k.Wired) (ctx : Ctx S) (addr : Address)
    (account : Statedb.Account) :
    ∃ ctx', k.setAccountRecord ctx addr account = .ok ctx' ∧ Recorded k ctx ctx' addr account := by
  unfold setAccountRecord
  rcases hacct : k.getOrNewAccount ctx.store.sdk addr with ⟨acct, sdk⟩
  obtain ⟨acct', hsequence⟩ := hwired.auth.setSequence_ok acct account.nonce
  obtain ⟨hbalance, hsupply, hspendable, haccounts⟩ := setSequence_spec hwired hacct hsequence
  have hstore : (if account.codeHash = k.emptyCodeHash then deleteCodeHash ctx addr
      else setCodeHash ctx addr account.codeHash) =
        withEvm ctx (k.recordCodeHash ctx.store.evm addr account.codeHash) := by
    unfold recordCodeHash
    split <;> rfl
  refine ⟨withSdk (withEvm ctx (k.recordCodeHash ctx.store.evm addr account.codeHash))
    (k.ak.setAccount sdk acct'), ?_, ⟨hbalance, hsupply, rfl, rfl⟩, hspendable, ?_, ?_, rfl⟩
  · simp only [hsequence, hstore]
    rfl
  · change (k.ak.getAccount (k.ak.setAccount sdk acct') addr.bytes).map k.ak.getSequence = _
    rw [haccounts, if_pos rfl, Option.map_some, (hwired.auth.getSequence_setSequence hsequence).1]
  · intro a ha
    change k.ak.getAccount (k.ak.setAccount sdk acct') a = _
    rw [haccounts, if_neg ha]

structure AccountSet (k : Keeper S Acc) (ctx ctx' : Ctx S) (addr : Address)
    (account : Statedb.Account) : Prop where
  backed : Backed k.bank ctx'
  untouched : Untouched k addr ctx ctx'
  spendable : k.spendableCoin ctx' addr = account.balance.toNat
  nonce : (k.ak.getAccount ctx'.store.sdk addr.bytes).map k.ak.getSequence = some account.nonce
  codeHash : ctx'.store.evm.codeHash.lookup addr = k.codeHashEntry account.codeHash
  code_eq : ctx'.store.evm.code = ctx.store.evm.code
  storage_eq : ctx'.store.evm.storage = ctx.store.evm.storage
  circulating : k.bank.circulatingValue ctx' =
    k.bank.circulatingValue ctx + k.balanceDelta ctx addr account.balance

theorem setAccount_spec (hwired : k.Wired) (hbacked : Backed k.bank ctx) {addr : Address}
    {account : Statedb.Account} (hok : k.setAccount ctx addr account = .ok ctx') :
    AccountSet k ctx ctx' addr account := by
  unfold setAccount at hok
  obtain ⟨ctx₁, hrecord, hset⟩ := bind_eq_ok_iff.mp hok
  obtain ⟨_, hrecord', hrecorded⟩ := exists_setAccountRecord hwired ctx addr account
  obtain rfl := Except.ok.inj (hrecord'.symm.trans hrecord)
  have hbacked₁ := hrecorded.coins.backed hbacked
  obtain ⟨hflow, -⟩ := valueFlow_setBalance hwired hbacked₁ hset
  refine ⟨hflow.backed, hrecorded.untouched.trans (untouched_setBalance hwired hbacked₁ hset),
    setBalance_spendableCoin hwired hbacked₁ hset, ?_, ?_, ?_, ?_, ?_⟩
  · rcases hwired.auth.getAccount_of_reaches hflow.reaches addr.bytes with hsame | ⟨_, hnone, _⟩
    · rw [hsame]
      exact hrecorded.nonce
    · have hnonce := hrecorded.nonce
      simp [hnone] at hnonce
  · rw [hflow.evm_eq, hrecorded.evm_eq, lookup_recordCodeHash, if_pos rfl]
  · rw [hflow.evm_eq, hrecorded.evm_eq]
    rfl
  · rw [hflow.evm_eq, hrecorded.evm_eq]
    rfl
  · have hspendable := hrecorded.coins.spendable_eq (congrFun hrecorded.spendable_eq addr.bytes)
    rw [hflow.circulating, hrecorded.coins.circulatingValue_eq, balanceDelta, spendableCoin, hspendable]
    rfl

/-- The context in which `DeleteAccount` clears the balance: all coins of the account are spendable. -/
def unlocked (k : Keeper S Acc) (ctx : Ctx S) (acct : Acc) : Ctx S :=
  withSdk ctx (k.ak.setAccount ctx.store.sdk (k.ak.newBaseAccount acct))

theorem deleteAccount_eq_ok_iff {addr : Address} {acct : Acc}
    (hacct : k.ak.getAccount ctx.store.sdk addr.bytes = some acct)
    (hcontract : isContract ctx.store addr = true) :
    k.deleteAccount ctx addr = .ok ctx' ↔
      ∃ ctx₁, k.setBalance (k.unlocked ctx acct) addr 0 = .ok ctx₁ ∧
        k.clearAccount ctx₁ addr acct = ctx' := by
  unfold deleteAccount
  simp only [hacct, hcontract, not_true_eq_false, if_false]
  rw [bind_eq_ok_iff]
  simp only [pure_eq_ok_iff]
  rfl

theorem mem_storageKeys {store : MultiStore S} {addr : Address} {key : Hash} :
    key ∈ storageKeys store addr ↔ (addr, key) ∈ store.evm.storage := by
  unfold storageKeys
  rw [Finset.mem_sort, Finset.mem_image]
  constructor
  · rintro ⟨⟨other, slot⟩, hmem, rfl⟩
    rw [Finset.mem_filter] at hmem
    obtain ⟨hmem, rfl⟩ := hmem
    exact Finmap.mem_keys.mp hmem
  · intro hmem
    exact ⟨(addr, key), Finset.mem_filter.mpr ⟨Finmap.mem_keys.mpr hmem, rfl⟩, rfl⟩

/-- A loop of writes to single slots of an account, each of which leaves `value` in its slot. -/
theorem foldl_storage {addr : Address} {write : Ctx S → Hash → Ctx S}
    {value : Hash → Option Bytes}
    (hwrite : ∀ ctx first, ∃ storage, write ctx first = withEvm ctx { ctx.store.evm with storage } ∧
      ∀ slot, storage.lookup slot =
        if slot = (addr, first) then value first else ctx.store.evm.storage.lookup slot)
    (ctx : Ctx S) (keys : List Hash) :
    ∃ storage, keys.foldl write ctx = withEvm ctx { ctx.store.evm with storage } ∧
      ∀ other key, storage.lookup (other, key) =
        if other = addr ∧ key ∈ keys then value key else ctx.store.evm.storage.lookup (other, key) := by
  induction keys generalizing ctx with
  | nil => exact ⟨ctx.store.evm.storage, rfl, by simp⟩
  | cons first keys ih =>
    obtain ⟨written, hwritten, hslot⟩ := hwrite ctx first
    obtain ⟨storage, hfold, hlookup⟩ := ih (write ctx first)
    rw [hwritten] at hfold hlookup
    refine ⟨storage, by rw [List.foldl_cons, hwritten, hfold]; rfl, fun other key => ?_⟩
    rw [hlookup]
    change (if other = addr ∧ key ∈ keys then value key else written.lookup (other, key)) = _
    rw [hslot]
    simp only [Prod.mk.injEq, List.mem_cons]
    grind

theorem foldl_deleteState (ctx : Ctx S) (addr : Address) (keys : List Hash) :
    ∃ storage, keys.foldl (fun ctx key => deleteState ctx addr key) ctx =
        withEvm ctx { ctx.store.evm with storage } ∧
      ∀ other key, storage.lookup (other, key) =
        if other = addr ∧ key ∈ keys then none else ctx.store.evm.storage.lookup (other, key) := by
  refine foldl_storage (fun ctx first => ⟨_, rfl, fun slot => ?_⟩) ctx keys
  split_ifs with hslot
  · rw [hslot, Finmap.lookup_erase]
  · exact Finmap.lookup_erase_ne hslot

structure AccountDeleted (k : Keeper S Acc) (ctx ctx' : Ctx S) (addr : Address) :
    Prop where
  backed : Backed k.bank ctx'
  untouched : Untouched k addr ctx ctx'
  account : k.ak.getAccount ctx'.store.sdk addr.bytes = none
  codeHash : ctx'.store.evm.codeHash.lookup addr = none
  storage : ∀ key, ctx'.store.evm.storage.lookup (addr, key) = none
  code_eq : ctx'.store.evm.code = ctx.store.evm.code

theorem sameCoins_unlocked (hwired : k.Wired) (acct : Acc) : SameCoins k.bank ctx (k.unlocked ctx acct) :=
  ⟨hwired.auth.getBalance_setAccount .., hwired.auth.getSupply_setAccount .., rfl, rfl⟩

theorem untouched_unlocked (hwired : k.Wired) {addr : Address} {acct : Acc}
    (hacct : k.ak.getAccount ctx.store.sdk addr.bytes = some acct) :
    Untouched k addr ctx (k.unlocked ctx acct) := by
  have haddress := hwired.auth.getAddress_getAccount hacct
  refine untouched_withSdk (sameCoins_unlocked hwired acct) (fun a ha => ?_) fun a ha => ?_
  · rw [hwired.auth.getAccount_setAccount, hwired.auth.getAddress_newBaseAccount, haddress, if_neg ha]
  · rw [hwired.auth.spendable_newBaseAccount hacct, if_neg ha]

/-- The account goes with its storage and its code hash, and nothing else changes. -/
theorem clearAccount_spec (hwired : k.Wired) (hbacked : Backed k.bank ctx) {addr : Address} {acct : Acc}
    (haddress : k.ak.getAddress acct = addr.bytes)
    (hspendable : k.bank.bk.spendableCoin ctx.store.sdk addr.bytes =
      k.bank.bk.getBalance ctx.store.sdk addr.bytes) :
    AccountDeleted k ctx (k.clearAccount ctx addr acct) addr := by
  obtain ⟨storage, hfold, hlookup⟩ := foldl_deleteState ctx addr (storageKeys ctx.store addr)
  let evm : EvmStore :=
    { ctx.store.evm with storage, codeHash := ctx.store.evm.codeHash.erase addr }
  have hclear : k.clearAccount ctx addr acct =
      withSdk (withEvm ctx evm) (k.ak.removeAccount ctx.store.sdk acct) := by
    unfold clearAccount
    simp only [hfold]
    rfl
  have hsame : SameCoins k.bank (withEvm ctx evm)
      (withSdk (withEvm ctx evm) (k.ak.removeAccount ctx.store.sdk acct)) :=
    ⟨hwired.auth.getBalance_removeAccount .., hwired.auth.getSupply_removeAccount .., rfl, rfl⟩
  have hremoved : ∀ a, k.ak.getAccount (k.ak.removeAccount ctx.store.sdk acct) a =
      if a = addr.bytes then none else k.ak.getAccount ctx.store.sdk a := by
    intro a
    rw [hwired.auth.getAccount_removeAccount, haddress]
  have hbacked' : Backed k.bank (withEvm ctx evm) := (sameCoins_withEvm evm).backed hbacked
  rw [hclear]
  refine ⟨hsame.backed hbacked', ?_, ?_, ?_, fun key => ?_, rfl⟩
  · refine Untouched.trans (untouched_withEvm (fun other hne => ?_) fun other key hne => ?_)
      (untouched_withSdk hsame (fun a ha => ?_) fun a _ => ?_)
    · exact Finmap.lookup_erase_ne hne
    · rw [hlookup, if_neg fun hmem => hne hmem.1]
    · rw [hremoved, if_neg ha]
      rfl
    · rw [hwired.auth.spendable_removeAccount (haddress.symm ▸ hspendable)]
      rfl
  · change k.ak.getAccount (k.ak.removeAccount ctx.store.sdk acct) addr.bytes = none
    rw [hremoved, if_pos rfl]
  · exact Finmap.lookup_erase _ _
  · change storage.lookup (addr, key) = none
    rw [hlookup]
    by_cases hmem : (addr, key) ∈ ctx.store.evm.storage
    · rw [if_pos ⟨rfl, mem_storageKeys.mpr hmem⟩]
    · rw [if_neg fun hkey => hmem (mem_storageKeys.mp hkey.2)]
      exact Finmap.lookup_eq_none.mpr hmem

theorem deleteAccount_spec (hwired : k.Wired) (hbacked : Backed k.bank ctx) {addr : Address} {acct : Acc}
    (hacct : k.ak.getAccount ctx.store.sdk addr.bytes = some acct)
    (hcontract : isContract ctx.store addr = true) (hok : k.deleteAccount ctx addr = .ok ctx') :
    AccountDeleted k ctx ctx' addr := by
  obtain ⟨ctx₁, hset, rfl⟩ := (deleteAccount_eq_ok_iff hacct hcontract).mp hok
  have hbacked₀ := (sameCoins_unlocked hwired acct).backed hbacked
  obtain ⟨hflow, -⟩ := valueFlow_setBalance hwired hbacked₀ hset
  -- the base account frees every coin, and the burn locks none
  have hfreed : k.bank.bk.spendableCoin (k.unlocked ctx acct).store.sdk addr.bytes =
      k.bank.bk.getBalance (k.unlocked ctx acct).store.sdk addr.bytes := by
    change k.bank.bk.spendableCoin (k.ak.setAccount ctx.store.sdk (k.ak.newBaseAccount acct)) _ =
      k.bank.bk.getBalance (k.ak.setAccount ctx.store.sdk (k.ak.newBaseAccount acct)) _
    rw [hwired.auth.spendable_newBaseAccount hacct, if_pos rfl, hwired.auth.getBalance_setAccount]
  have hspendable : k.bank.bk.spendableCoin ctx₁.store.sdk addr.bytes =
      k.bank.bk.getBalance ctx₁.store.sdk addr.bytes := by
    funext denom
    have hlocked := hwired.bank.locked_of_reaches hflow.reaches addr.bytes denom
    rw [congrFun hfreed denom, sub_self] at hlocked
    omega
  have hcleared := clearAccount_spec hwired hflow.backed (hwired.auth.getAddress_getAccount hacct)
    hspendable
  have huntouched := (untouched_unlocked hwired hacct).trans (untouched_setBalance hwired hbacked₀ hset)
  exact { hcleared with
    untouched := huntouched.trans hcleared.untouched
    code_eq := hcleared.code_eq.trans (congrArg EvmStore.code hflow.evm_eq) }

end CosmosEvm.Vm.Keeper
