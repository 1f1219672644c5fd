import CosmosEvm.Evmd.Chain
import CosmosEvm.Statedb.Coherent
import CosmosEvm.Vm.Commit

namespace CosmosEvm.Vm.Keeper

open Result BankKeeper PreciseBank.Keeper Statedb

variable {S Acc : Type} {k : Keeper S Acc} {ctx ctx' : Ctx S}
  {addressString : Address → String} {s : StateDB (MultiStore S)} {addr : Address}

def knownCodes (s : StateDB (MultiStore S)) : Set Bytes :=
  {code | code = [] ∨ (∃ hash, s.ctx.store.evm.code.lookup hash = some code) ∨
    ∃ addr obj, s.stateObjects.lookup addr = some obj ∧ obj.code = some code}

structure CodesStored (k : Keeper S Acc) (store : MultiStore S) : Prop where
  hash : ∀ {hash code}, store.evm.code.lookup hash = some code → hash = k.keccak256 code
  code : ∀ {addr hash}, store.evm.codeHash.lookup addr = some hash → hash = k.emptyCodeHash ∨
    ∃ code, store.evm.code.lookup hash = some code

def KeepsCodes (k : Keeper S Acc) (codes : Set Bytes) (ctx ctx' : Ctx S) : Prop :=
  ∀ code ∈ codes, code ≠ [] → ctx.store.evm.code.lookup (k.keccak256 code) = some code →
    ctx'.store.evm.code.lookup (k.keccak256 code) = some code

theorem keepsCodes_codeAfter {codes : Set Bytes} (hinjective : Set.InjOn k.keccak256 codes)
    (hempty : [] ∈ codes) {obj : StateObject}
    (hobj : obj.Coherent (k.env addressString) s.ctx.store addr)
    (hknown : ∀ code, obj.code = some code → code ∈ codes)
    (hcode : ctx'.store.evm.code = codeAfter ctx.store.evm.code obj) : KeepsCodes k codes ctx ctx' := by
  intro code hmem hne hlookup
  rw [hcode]
  unfold codeAfter
  cases hset : obj.code with
  | none => exact hlookup
  | some bytes =>
    cases hdirty : obj.dirtyCode with
    | false => exact hlookup
    | true =>
      have hhash : obj.account.codeHash = k.keccak256 bytes := by
        have hhash := hobj.codeHash_of_dirty hdirty
        rw [hset] at hhash
        exact hhash
      simp only [hhash]
      split
      · rename_i hlength
        obtain rfl := List.eq_nil_of_length_eq_zero hlength
        rw [Finmap.lookup_erase_ne]
        · exact hlookup
        · exact fun heq => hne (hinjective hmem hempty heq)
      · by_cases heq : code = bytes
        · subst heq
          exact Finmap.lookup_insert _
        · rw [Finmap.lookup_insert_of_ne _ fun hcollision =>
            heq (hinjective hmem (hknown bytes hset) hcollision)]
          exact hlookup

theorem codeHash_of_getAccount {store : MultiStore S} {account : Account}
    (hget : k.getAccount store addr = some account) :
    account.codeHash = k.emptyCodeHash ∨ ∃ addr, store.evm.codeHash.lookup addr = some account.codeHash := by
  obtain ⟨acct, -, rfl⟩ := Option.map_eq_some_iff.mp hget
  simp only [getCodeHash]
  cases hlookup : store.evm.codeHash.lookup addr with
  | none => exact .inl rfl
  | some hash => exact .inr ⟨addr, hlookup⟩

theorem resolveCode_of_keeps {codes : Set Bytes} (hstored : CodesStored k ctx.store)
    (hcodes : ∀ hash code, ctx.store.evm.code.lookup hash = some code → code ∈ codes)
    (hkeeps : KeepsCodes k codes ctx ctx') {hash : Hash}
    (hhash : hash = k.emptyCodeHash ∨ ∃ addr, ctx.store.evm.codeHash.lookup addr = some hash) :
    StateObject.resolveCode (k.env addressString) ctx'.store none hash =
      StateObject.resolveCode (k.env addressString) ctx.store none hash := by
  by_cases hempty : hash = k.emptyCodeHash
  · have hempty' : hash = (k.env addressString).emptyCodeHash := hempty
    simp [StateObject.resolveCode, hempty']
  · have hempty' : ¬ hash = (k.env addressString).emptyCodeHash := hempty
    obtain ⟨addr, haddr⟩ := hhash.resolve_left hempty
    obtain ⟨code, hlookup⟩ := (hstored.code haddr).resolve_left hempty
    obtain rfl := hstored.hash hlookup
    have hne : code ≠ [] := fun hnil => hempty (by rw [hnil]; rfl)
    simp only [StateObject.resolveCode, if_neg hempty']
    exact (hkeeps code (hcodes _ _ hlookup) hne hlookup).trans hlookup.symm

/-- The mint or burn that committing an object makes succeeds: `SetBalance` does, in the context in which
`SetAccount` or `DeleteAccount` calls it. -/
def CoinsMoveAt (k : Keeper S Acc) (env : Env (MultiStore S)) (ctx : Ctx S)
    (addr : Address) (obj : StateObject) : Prop :=
  if obj.selfDestructed then ∀ acct, k.ak.getAccount ctx.store.sdk addr.bytes = some acct →
    ∃ ctx', k.setBalance (k.unlocked ctx acct) addr 0 = .ok ctx'
  else ∀ ctx₁, k.setAccountRecord (commitCode env ctx obj) addr obj.account = .ok ctx₁ →
    ∃ ctx', k.setBalance ctx₁ addr obj.account.balance = .ok ctx'

/-- The mints and burns of `Commit` succeed, for each dirty address in the context that the addresses
before it leave behind. -/
def CoinsMove (k : Keeper S Acc) (env : Env (MultiStore S)) (s : StateDB (MultiStore S)) : Prop :=
  ∀ done addr rest ctx obj, s.journal.sortedDirties = done ++ addr :: rest →
    Result.run (s.commitAddress env) s.ctx done = .ok ctx → s.stateObjects.lookup addr = some obj →
      k.CoinsMoveAt env ctx addr obj

/-- What `Commit` relies on: the two module accounts that coins pass through are there, every destructed
account can be deleted, and no account was replaced by `CreateAccount` and left at that, unless the account
was as good as new. -/
structure Committable (k : Keeper S Acc) (s : StateDB (MultiStore S)) : Prop where
  modules : ∀ a, a = k.account.address ∨ a = k.bank.reserve.address →
    (k.ak.getAccount s.ctx.store.sdk a).isSome
  destructed : ∀ {addr obj}, s.stateObjects.lookup addr = some obj → obj.selfDestructed = true →
    Deletable k s.ctx addr
  replaced : ∀ {addr obj account}, s.stateObjects.lookup addr = some obj → addr ∉ s.journal.dirties →
    k.getAccount s.ctx.store addr = some account →
      obj.account.nonce = account.nonce ∧ obj.account.codeHash = account.codeHash

theorem exists_commitAddress (hwired : k.Wired) {obj : StateObject}
    (hlookup : s.stateObjects.lookup addr = some obj)
    (hdeletable : obj.selfDestructed = true → Deletable k ctx addr)
    (hcoins : k.CoinsMoveAt (k.env addressString) ctx addr obj) :
    ∃ ctx', s.commitAddress (k.env addressString) ctx addr = .ok ctx' := by
  simp only [StateDB.commitAddress, hlookup]
  unfold CoinsMoveAt at hcoins
  cases hdestructed : obj.selfDestructed with
  | false =>
    rw [hdestructed] at hcoins
    obtain ⟨ctx₁, hrecord, -⟩ := exists_setAccountRecord hwired
      (commitCode (k.env addressString) ctx obj) addr obj.account
    obtain ⟨ctx₂, hset⟩ := hcoins ctx₁ hrecord
    refine ⟨_, (commitObject_eq_ok_iff hdestructed).mpr ⟨ctx₂, ?_, rfl⟩⟩
    unfold setAccount
    exact bind_eq_ok_iff.mpr ⟨ctx₁, hrecord, hset⟩
  | true =>
    rw [hdestructed] at hcoins
    simp only [commitObject, hdestructed, if_true, mapError_eq_ok_iff]
    change ∃ ctx', k.deleteAccount ctx addr = .ok ctx'
    cases hacct : k.ak.getAccount ctx.store.sdk addr.bytes with
    | none => exact ⟨ctx, by simp only [deleteAccount, hacct]⟩
    | some acct =>
      obtain ⟨ctx₁, hset⟩ := hcoins acct hacct
      exact ⟨_, (deleteAccount_eq_ok_iff hacct ((hdeletable hdestructed).contract hacct)).mpr
        ⟨ctx₁, hset, rfl⟩⟩

theorem ready_of_committable (hcommittable : k.Committable s) (hloaded : s.Loaded) :
    ∀ addr ∈ s.journal.sortedDirties, k.Ready s s.ctx addr := by
  intro addr hmem
  obtain ⟨obj, hlookup⟩ := Finmap.mem_iff.mp (hloaded addr (mem_sortedDirties.mp hmem))
  exact ⟨obj, hlookup, hcommittable.destructed hlookup⟩

theorem local_commitAddress_codes (hwired : k.Wired) (hcoherent : Coherent (k.env addressString) s)
    (hinjective : Set.InjOn k.keccak256 (knownCodes s)) :
    Local (s.commitAddress (k.env addressString)) FixedBytes.bytes (Backed k.bank) (k.Ready s)
      fun ctx ctx' a => SameAt k ctx ctx' a ∧ KeepsCodes k (knownCodes s) ctx ctx' := by
  refine (local_commitAddress hwired s).and_step (fun ctx code _ _ hlookup => hlookup)
    (fun hfirst hsecond code hmem hne hlookup => hsecond code hmem hne (hfirst code hmem hne hlookup))
    fun {ctx addr ctx'} hready hok hbacked => ?_
  obtain ⟨obj, hlookup, hdeletable⟩ := hready
  simp only [StateDB.commitAddress, hlookup] at hok
  cases hdestructed : obj.selfDestructed with
  | false =>
    have hcommitted := commitObject_spec hwired hbacked hdestructed hok
    exact keepsCodes_codeAfter hinjective (.inl rfl) (hcoherent.object hlookup)
      (fun code hcode => .inr (.inr ⟨addr, obj, hlookup, hcode⟩)) hcommitted.code_eq
  | true =>
    simp only [commitObject, hdestructed, if_true, mapError_eq_ok_iff] at hok
    change k.deleteAccount ctx addr = .ok ctx' at hok
    cases hacct : k.ak.getAccount ctx.store.sdk addr.bytes with
    | none =>
      simp only [deleteAccount, hacct, Except.ok.injEq] at hok
      exact hok ▸ fun code _ _ hlookup => hlookup
    | some acct =>
      have hdeleted := deleteAccount_spec hwired hbacked hacct
        ((hdeletable hdestructed).contract hacct) hok
      intro code _ _ hlookup
      rw [hdeleted.code_eq]
      exact hlookup

structure ReadAs (read shown : AccountView) : Prop where
  nonce : read.nonce = shown.nonce
  balance : read.balance = shown.balance
  codeHash : read.codeHash = shown.codeHash
  code : read.code.getD [] = shown.code.getD []
  state : read.state = shown.state

theorem committed_eq {obj : StateObject} {env : Env (MultiStore S)} {store : MultiStore S}
    (hobj : obj.Coherent env store addr) (key : Hash) :
    obj.committed env store addr key = env.keeper.getState store addr key := by
  unfold StateObject.committed
  cases hlookup : obj.originStorage.lookup key with
  | none => rfl
  | some value => exact hobj.origin hlookup

theorem uint256_toNat (amount : BitVec 256) : uint256 amount.toNat = amount := by
  have hlt : (amount.toNat : ℤ) < 2 ^ 256 := by exact_mod_cast amount.isLt
  rw [uint256, if_pos hlt]
  exact BitVec.ofInt_natCast .. |>.trans (BitVec.ofNat_toNat ..) |>.trans (BitVec.setWidth_eq amount)

theorem getCodeHash_of_entry {store : MultiStore S} {codeHash : Hash}
    (hlookup : store.evm.codeHash.lookup addr = k.codeHashEntry codeHash) :
    k.getCodeHash store addr = codeHash := by
  unfold getCodeHash
  rw [hlookup, codeHashEntry]
  split
  · rename_i hempty
    rw [hempty]
    rfl
  · rfl

theorem getAccount_of_committed {obj : StateObject} {before after : Ctx S}
    (hcommitted : ObjectCommitted k before after addr obj) (hafter : SameAt k after ctx' addr.bytes) :
    k.getAccount ctx'.store addr = some obj.account := by
  obtain ⟨acct, hacct, hnonce⟩ := Option.map_eq_some_iff.mp hcommitted.nonce
  have hsame : k.ak.getAccount ctx'.store.sdk addr.bytes = some acct := by
    rcases hafter.account with hsame | ⟨_, hnone⟩
    · exact hsame.trans hacct
    · rw [hacct] at hnone
      simp at hnone
  have hspendable : k.spendableCoin ctx' addr = obj.account.balance.toNat :=
    hafter.spendable.trans hcommitted.spendable
  have hcodeHash := getCodeHash_of_entry ((hafter.codeHash rfl).trans hcommitted.codeHash)
  unfold getAccount
  rw [hsame, Option.map_some, hnonce, hcodeHash]
  change some (Account.mk _ (uint256 (k.spendableCoin ctx' addr)) _) = _
  rw [hspendable, uint256_toNat]

section

variable {obj : StateObject} {before after : Ctx S}
  (hobj : obj.Coherent (k.env addressString) s.ctx.store addr)

include hobj

theorem getState_of_committed (hcommitted : ObjectCommitted k before after addr obj)
    (hbefore : SameAt k s.ctx before addr.bytes) (hafter : SameAt k after ctx' addr.bytes) (key : Hash) :
    getState ctx'.store addr key = (obj.view (k.env addressString) s.ctx.store addr).state key := by
  change _ = (obj.dirtyStorage.lookup key).getD (obj.committed (k.env addressString) s.ctx.store addr key)
  have hslot : obj.committed (k.env addressString) s.ctx.store addr key = getState before.store addr key := by
    rw [committed_eq hobj, hbefore.getState_eq]
    rfl
  rw [hafter.getState_eq, hcommitted.getState_eq, hslot]

theorem code_of_not_set (hclean : obj.dirtyCode = false) (hstored : CodesStored k s.ctx.store)
    (hkeeps : KeepsCodes k (knownCodes s) s.ctx ctx') :
    StateObject.resolveCode (k.env addressString) ctx'.store none obj.account.codeHash =
      StateObject.resolveCode (k.env addressString) s.ctx.store obj.code obj.account.codeHash := by
  rw [hobj.code_of_clean hclean]
  refine resolveCode_of_keeps hstored (fun hash code hcode => .inr (.inl ⟨hash, hcode⟩)) hkeeps ?_
  rcases hobj.codeHash_of_clean hclean with hempty | ⟨account, hget, hhash⟩
  · exact .inl hempty
  · rw [hhash]
    exact codeHash_of_getAccount hget

/-- No other code has the hash, so that the one found under it is the account's own. -/
theorem code_of_committed (hlookup : s.stateObjects.lookup addr = some obj)
    (hstored : CodesStored k s.ctx.store) (hinjective : Set.InjOn k.keccak256 (knownCodes s))
    (hcommitted : ObjectCommitted k before after addr obj) (hkeeps : KeepsCodes k (knownCodes s) s.ctx ctx')
    (hafter : KeepsCodes k (knownCodes s) after ctx') :
    (StateObject.resolveCode (k.env addressString) ctx'.store none obj.account.codeHash).getD [] =
      (StateObject.resolveCode (k.env addressString) s.ctx.store obj.code obj.account.codeHash).getD [] := by
  cases hdirty : obj.dirtyCode with
  | false => rw [code_of_not_set hobj hdirty hstored hkeeps]
  | true =>
    have hhash := hobj.codeHash_of_dirty hdirty
    by_cases hempty : obj.code.getD [] = []
    · -- no code: nothing is looked up under the hash of the empty code
      have hemptyHash : obj.account.codeHash = (k.env addressString).emptyCodeHash := by
        rw [hhash, hempty]
        rfl
      rw [hemptyHash]
      cases hcode : obj.code with
      | none => simp [StateObject.resolveCode]
      | some code =>
        rw [hcode] at hempty
        simpa [StateObject.resolveCode] using hempty.symm
    · cases hcode : obj.code with
      | none => exact absurd (by rw [hcode]; rfl) hempty
      | some code =>
        rw [hcode, Option.getD_some] at hhash hempty
        have hknown : code ∈ knownCodes s := .inr (.inr ⟨addr, obj, hlookup, hcode⟩)
        have hne : ¬ obj.account.codeHash = (k.env addressString).emptyCodeHash := by
          rw [hhash]
          exact fun heq => hempty (hinjective hknown (.inl rfl) heq)
        have hstoredAfter : after.store.evm.code.lookup (k.keccak256 code) = some code := by
          have hlength : ¬ code.length = 0 := fun hzero => hempty (List.eq_nil_of_length_eq_zero hzero)
          have hhash' : obj.account.codeHash = k.keccak256 code := hhash
          rw [hcommitted.code_eq]
          simp only [codeAfter, hcode, hdirty, hlength, if_false, hhash']
          exact Finmap.lookup_insert _
        have hread := hafter code hknown hempty hstoredAfter
        simp only [StateObject.resolveCode, if_neg hne]
        rw [hhash]
        exact congrArg (Option.getD · []) hread

end

structure ReadsBack (env : Env (MultiStore S)) (fresh s : StateDB (MultiStore S)) (addr : Address) :
    Prop where
  nonce : (fresh.observe env).nonce addr = (s.observe env).nonce addr
  balance : (fresh.observe env).balance addr = (s.observe env).balance addr
  codeHash : (fresh.observe env).codeHash addr = (s.observe env).codeHash addr
  code : ((fresh.observe env).code addr).getD [] = ((s.observe env).code addr).getD []
  state : ∀ key, (fresh.observe env).state addr key = (s.observe env).state addr key

structure ReadsNothing (env : Env (MultiStore S)) (fresh : StateDB (MultiStore S)) (addr : Address) :
    Prop where
  exist : (fresh.observe env).exist addr = false
  code : (fresh.observe env).code addr = none
  state : ∀ key, (fresh.observe env).state addr key = zeroHash

structure Cleared (ctx : Ctx S) (addr : Address) : Prop where
  codeHash : ctx.store.evm.codeHash.lookup addr = none
  storage : ∀ key, ctx.store.evm.storage.lookup (addr, key) = none

structure Faithful (k : Keeper S Acc) (env : Env (MultiStore S)) (s : StateDB (MultiStore S))
    (ctx' : Ctx S) : Prop where
  kept : ∀ addr, (s.observe env).selfDestructed addr = false →
    ∀ txConfig, ReadsBack env (new ctx' txConfig) s addr
  destructed : ∀ addr, (s.observe env).selfDestructed addr = true →
    ∀ txConfig, ReadsNothing env (new ctx' txConfig) addr
  cleared : ∀ addr, (s.observe env).selfDestructed addr = true →
    (k.ak.getAccount s.ctx.store.sdk addr.bytes).isSome → Cleared ctx' addr

theorem readsBack_of_readAs {env : Env (MultiStore S)} {fresh : StateDB (MultiStore S)}
    (hread : Option.Rel ReadAs ((fresh.view env).account addr) ((s.view env).account addr)) :
    ReadsBack env fresh s addr := by
  generalize hfresh : (fresh.view env).account addr = read at hread
  generalize hshown : (s.view env).account addr = shown at hread
  constructor
  all_goals
    rw [observe_eq, observe_eq]
    simp only [View.observe, hfresh, hshown]
    cases hread with
    | none => simp
    | some hread => simp [hread.nonce, hread.balance, hread.codeHash, hread.code, hread.state]

theorem readsNothing_of_none {env : Env (MultiStore S)} {fresh : StateDB (MultiStore S)}
    (hnone : (fresh.view env).account addr = none) : ReadsNothing env fresh addr := by
  constructor
  all_goals
    rw [observe_eq]
    simp [View.observe, hnone]

abbrev CommitRun (k : Keeper S Acc) (addressString : Address → String) (s : StateDB (MultiStore S))
    (ctx' : Ctx S) : Prop :=
  LocalRun (s.commitAddress (k.env addressString)) FixedBytes.bytes (Backed k.bank) (k.Ready s)
    (fun ctx ctx' a => SameAt k ctx ctx' a ∧ KeepsCodes k (knownCodes s) ctx ctx') s.ctx
    s.journal.sortedDirties ctx'

theorem CommitRun.keepsCodes (hcalls : CommitRun k addressString s ctx') :
    KeepsCodes k (knownCodes s) s.ctx ctx' := by
  -- no address is empty, so nothing is committed at the empty one
  refine (hcalls.same_elsewhere [] fun hmem => ?_).2
  obtain ⟨addr, -, hbytes⟩ := List.mem_map.mp hmem
  have hlength := addr.length_bytes
  rw [hbytes] at hlength
  simp at hlength

theorem readAs_of_dirty (hwired : k.Wired) (hcoherent : Coherent (k.env addressString) s)
    (hstored : CodesStored k s.ctx.store) (hinjective : Set.InjOn k.keccak256 (knownCodes s))
    (hcalls : CommitRun k addressString s ctx') (hdirty : addr ∈ s.journal.sortedDirties)
    {obj : StateObject} (hlookup : s.stateObjects.lookup addr = some obj)
    (hdestructed : obj.selfDestructed = false) :
    Option.Rel ReadAs ((k.env addressString).loadedView ctx'.store addr)
      (some (obj.view (k.env addressString) s.ctx.store addr)) := by
  obtain ⟨before, after, hbacked, -, hexec, ⟨hbefore, -⟩, hafter, hkeeps⟩ := hcalls.called addr hdirty
  simp only [StateDB.commitAddress, hlookup] at hexec
  have hcommitted := commitObject_spec hwired hbacked hdestructed hexec
  have hobj := hcoherent.object hlookup
  have haccount : (k.env addressString).keeper.getAccount ctx'.store addr = some obj.account :=
    getAccount_of_committed hcommitted hafter
  unfold Env.loadedView
  rw [haccount, Option.map_some]
  refine .some ⟨rfl, rfl, rfl, ?_, ?_⟩
  · exact code_of_committed hobj hlookup hstored hinjective hcommitted hcalls.keepsCodes hkeeps
  · funext key
    exact getState_of_committed hobj hcommitted hbefore hafter key

theorem getAccount_of_clean (hcommittable : k.Committable s) (hcalls : CommitRun k addressString s ctx')
    (hclean : addr ∉ s.journal.sortedDirties) :
    SameAt k s.ctx ctx' addr.bytes ∧ k.getAccount ctx'.store addr = k.getAccount s.ctx.store addr := by
  have hsame : SameAt k s.ctx ctx' addr.bytes := by
    refine (hcalls.same_elsewhere addr.bytes fun hmem => ?_).1
    obtain ⟨other, hother, hbytes⟩ := List.mem_map.mp hmem
    exact hclean (FixedBytes.bytes_injective hbytes ▸ hother)
  have haccount : k.ak.getAccount ctx'.store.sdk addr.bytes = k.ak.getAccount s.ctx.store.sdk addr.bytes := by
    rcases hsame.account with hsame | ⟨hmodule, hnone⟩
    · exact hsame
    · have hsome := hcommittable.modules _ hmodule
      simp [hnone] at hsome
  refine ⟨hsame, ?_⟩
  have hspendable : k.spendableCoin ⟨ctx'.store, []⟩ addr = k.spendableCoin ⟨s.ctx.store, []⟩ addr :=
    hsame.spendable
  unfold getAccount getCodeHash
  rw [haccount, hspendable, hsame.codeHash rfl]

/-- The commits of other addresses leave the account of a clean one as it was. -/
theorem readAs_of_clean (hcommittable : k.Committable s) (hcoherent : Coherent (k.env addressString) s)
    (hgood : s.Good (k.env addressString)) (hstored : CodesStored k s.ctx.store)
    (hcalls : CommitRun k addressString s ctx') (hclean : addr ∉ s.journal.sortedDirties) :
    Option.Rel ReadAs ((k.env addressString).loadedView ctx'.store addr)
      ((s.view (k.env addressString)).account addr) := by
  obtain ⟨hsame, haccount⟩ := getAccount_of_clean hcommittable hcalls hclean
  have hdirties : addr ∉ s.journal.dirties := fun hmem => hclean (mem_sortedDirties.mpr hmem)
  have hloaded : (k.env addressString).loadedView ctx'.store addr =
      (k.getAccount s.ctx.store addr).map fun account =>
        (newObject account).view (k.env addressString) ctx'.store addr := by
    rw [← haccount]
    rfl
  rw [hloaded]
  cases hlookup : s.stateObjects.lookup addr with
  | none =>
    rw [view_account_of_not_loaded _ hlookup]
    change Option.Rel ReadAs _ ((k.getAccount s.ctx.store addr).map _)
    cases hget : k.getAccount s.ctx.store addr with
    | none => exact .none
    | some account =>
      refine .some ⟨rfl, rfl, rfl, ?_, funext fun key => hsame.getState_eq key⟩
      refine congrArg (Option.getD · []) (resolveCode_of_keeps hstored
        (fun hash code hcode => .inr (.inl ⟨hash, hcode⟩)) hcalls.keepsCodes ?_)
      exact codeHash_of_getAccount hget
  | some obj =>
    have hobj := hcoherent.object hlookup
    have hnothing := hcoherent.clean hlookup hdirties
    obtain ⟨account, hget⟩ := hnothing.account
    have hget' : k.getAccount s.ctx.store addr = some account := hget
    obtain ⟨hnonce, hcodeHash⟩ := hcommittable.replaced hlookup hdirties hget'
    have hbalance : obj.account.balance = account.balance := by
      have hshown := hgood.balance_of_clean hdirties
      change (((s.view (k.env addressString)).account addr).map AccountView.balance).getD 0 = _ at hshown
      rw [view_account_of_lookup _ hlookup, Env.keeperBalance, hget] at hshown
      exact hshown
    rw [view_account_of_lookup _ hlookup, hget', Option.map_some]
    refine .some ⟨hnonce.symm, hbalance.symm, hcodeHash.symm, ?_, ?_⟩
    · change (StateObject.resolveCode _ _ none account.codeHash).getD [] = _
      rw [← hcodeHash, code_of_not_set hobj hnothing.dirtyCode_eq hstored hcalls.keepsCodes]
      rfl
    · funext key
      change getState ctx'.store addr key = (obj.dirtyStorage.lookup key).getD _
      rw [hnothing.dirtyStorage_eq, Finmap.lookup_empty, Option.getD_none, committed_eq hobj]
      exact hsame.getState_eq key

theorem cleared_of_destructed (hwired : k.Wired) (hcommittable : k.Committable s)
    (hcalls : CommitRun k addressString s ctx') (hdirty : addr ∈ s.journal.sortedDirties)
    {obj : StateObject} (hlookup : s.stateObjects.lookup addr = some obj)
    (hdestructed : obj.selfDestructed = true) :
    k.ak.getAccount ctx'.store.sdk addr.bytes = none ∧
      ((k.ak.getAccount s.ctx.store.sdk addr.bytes).isSome → Cleared ctx' addr) := by
  obtain ⟨before, after, hbacked, -, hexec, ⟨hbefore, -⟩, hafter, -⟩ := hcalls.called addr hdirty
  have hdeletable := hcommittable.destructed hlookup hdestructed
  simp only [StateDB.commitAddress, hlookup, commitObject, hdestructed, if_true, mapError_eq_ok_iff] at hexec
  change k.deleteAccount before addr = .ok after at hexec
  rw [hafter.getAccount_eq hdeletable.ne_account hdeletable.ne_reserve]
  have hsame := hbefore.getAccount_eq hdeletable.ne_account hdeletable.ne_reserve
  cases hacct : k.ak.getAccount before.store.sdk addr.bytes with
  | none =>
    simp only [deleteAccount, hacct, Except.ok.injEq] at hexec
    subst hexec
    refine ⟨hacct, fun hsome => ?_⟩
    rw [← hsame, hacct] at hsome
    simp at hsome
  | some acct =>
    have hdeleted := deleteAccount_spec hwired hbacked hacct
      ((hdeletable.of_same hbefore).contract hacct) hexec
    refine ⟨hdeleted.account, fun _ => ⟨?_, fun key => ?_⟩⟩
    · rw [hafter.codeHash rfl]
      exact hdeleted.codeHash
    · rw [hafter.storage rfl]
      exact hdeleted.storage key

/-- Dirty accounts are read as they were committed, and the others as the keeper has them. -/
theorem faithful_of_commitRun (hwired : k.Wired) (hcommittable : k.Committable s)
    (hcoherent : Coherent (k.env addressString) s) (hgood : s.Good (k.env addressString))
    (hloaded : s.Loaded) (hstored : CodesStored k s.ctx.store)
    (hinjective : Set.InjOn k.keccak256 (knownCodes s)) (hcalls : CommitRun k addressString s ctx') :
    k.Faithful (k.env addressString) s ctx' := by
  have hshown : ∀ addr, (s.observe (k.env addressString)).selfDestructed addr =
      ((s.view (k.env addressString)).account addr).any (·.selfDestructed) := by
    intro addr
    rw [observe_eq]
    rfl
  -- what is destructed is loaded and dirty
  have hfound : ∀ addr, (s.observe (k.env addressString)).selfDestructed addr = true →
      ∃ obj, s.stateObjects.lookup addr = some obj ∧ obj.selfDestructed = true ∧
        addr ∈ s.journal.sortedDirties := by
    intro addr hdestructed
    rw [hshown] at hdestructed
    cases hlookup : s.stateObjects.lookup addr with
    | none =>
      rw [view_account_of_not_loaded _ hlookup, Env.loadedView] at hdestructed
      cases hget : (k.env addressString).keeper.getAccount s.ctx.store addr with
      | none => simp [hget] at hdestructed
      | some account => simp [hget, StateObject.view, newObject] at hdestructed
    | some obj =>
      rw [view_account_of_lookup _ hlookup] at hdestructed
      have hobj : obj.selfDestructed = true := hdestructed
      refine ⟨obj, rfl, hobj, ?_⟩
      by_contra hclean
      have hnothing := hcoherent.clean hlookup fun hmem => hclean (mem_sortedDirties.mpr hmem)
      rw [hnothing.selfDestructed_eq] at hobj
      simp at hobj
  refine ⟨fun addr hkept txConfig => readsBack_of_readAs ?_, fun addr hdestructed txConfig => ?_,
    fun addr hdestructed => ?_⟩
  · change Option.Rel ReadAs ((k.env addressString).loadedView ctx'.store addr) _
    by_cases hdirty : addr ∈ s.journal.sortedDirties
    · obtain ⟨obj, hlookup⟩ := Finmap.mem_iff.mp (hloaded addr (mem_sortedDirties.mp hdirty))
      rw [hshown, view_account_of_lookup _ hlookup] at hkept
      rw [view_account_of_lookup _ hlookup]
      exact readAs_of_dirty hwired hcoherent hstored hinjective hcalls hdirty hlookup hkept
    · exact readAs_of_clean hcommittable hcoherent hgood hstored hcalls hdirty
  · obtain ⟨obj, hlookup, hobj, hdirty⟩ := hfound addr hdestructed
    obtain ⟨hnone, -⟩ := cleared_of_destructed hwired hcommittable hcalls hdirty hlookup hobj
    apply readsNothing_of_none
    change (k.getAccount ctx'.store addr).map _ = none
    simp [getAccount, hnone]
  · obtain ⟨obj, hlookup, hobj, hdirty⟩ := hfound addr hdestructed
    exact (cleared_of_destructed hwired hcommittable hcalls hdirty hlookup hobj).2

/-- `Commit` after a run that was not reverted and called no precompile succeeds, and a new StateDB over the
store reads what the old one showed, where every destructed account can be deleted and no account was
replaced without becoming dirty. -/
theorem commit_faithful (hwired : k.Wired) (hbacked : Backed k.bank ctx)
    {start : StateDB (MultiStore S)} (hstart : Start ctx start) {ops : List (Op (MultiStore S))}
    (hops : ∀ op ∈ ops, op.Onward) (hrun : start.run (k.env addressString) ops = some s)
    (hstored : CodesStored k ctx.store) (hinjective : Set.InjOn k.keccak256 (knownCodes s))
    (hcoins : k.CoinsMove (k.env addressString) s) (hcommittable : k.Committable s) :
    ∃ ctx', s.commit (k.env addressString) = .ok ctx' ∧ k.Faithful (k.env addressString) s ctx' := by
  have hsince := hstart.since_run hrun
  have hcoherent := (hstart.coherent (k.env addressString)).run hops hrun
  obtain ⟨-, -, -, -, -, -, hctx⟩ := hstart.spec
  obtain rfl : s.ctx = ctx := hsince.ctx_eq.trans hctx
  have hlocal := local_commitAddress_codes hwired hcoherent hinjective
  have hready := ready_of_committable hcommittable hsince.loaded
  have hwrite : s.writeCache = s.ctx := by
    unfold StateDB.writeCache
    rw [hcoherent.cache_eq]
  obtain ⟨ctx', hloop⟩ := hlocal.exists_run (nodup_sortedDirties _) hready hbacked
    fun done addr rest ctx hsplit hdone hready => by
      obtain ⟨obj, hlookup, hdeletable⟩ := hready
      exact exists_commitAddress hwired hlookup hdeletable
        (hcoins done addr rest ctx obj hsplit hdone hlookup)
  refine ⟨ctx', ?_, ?_⟩
  · unfold StateDB.commit StateDB.commitWithCtx
    rw [hwrite]
    exact hloop
  · have hcalls := hlocal.run (nodup_sortedDirties _) hready hbacked hloop
    exact faithful_of_commitRun hwired hcommittable hcoherent hsince.good hsince.loaded hstored hinjective
      hcalls

theorem coinsMove_singleton {env : Env (MultiStore S)} {obj : StateObject}
    (hsorted : s.journal.sortedDirties = [addr]) (hlookup : s.stateObjects.lookup addr = some obj)
    (hcoins : k.CoinsMoveAt env s.ctx addr obj) : k.CoinsMove env s := by
  intro done other rest ctx found hsplit hrun hfound
  rw [hsorted] at hsplit
  obtain ⟨rfl, rfl⟩ : done = [] ∧ other = addr := by
    cases done with
    | nil => exact ⟨rfl, (List.cons.inj hsplit).1.symm⟩
    | cons _ done => simp at hsplit
  cases hrun
  obtain rfl := Option.some.inj (hlookup.symm.trans hfound)
  exact hcoins

/-- An account becomes a contract with a slot and more coins. -/
theorem commit_faithful_contract :
    let k := Evmd.vmKeeper Evmd.sixDecimalsCoin
    let env := k.env fun _ => ""
    let addr := bytesToAddress [7]
    let slot := bytesToHash [2]
    let ctx := Evmd.genesisChain [(addr.bytes, [⟨"utest", 5⟩])]
    ∃ s ctx', (new ctx ⟨zeroHash, zeroHash, 0, 0⟩).run env
        [.snapshot, .createContract addr, .setNonce addr 1, .setCode addr (some [96]), .addBalance addr 3,
          .setState addr slot slot] = some s ∧
      s.commit env = .ok ctx' ∧ k.Faithful env s ctx' := by
  intro k env addr slot ctx
  let ops : List (Op (MultiStore (AuthLedger Evmd.moduleAccounts))) :=
    [.snapshot, .createContract addr, .setNonce addr 1, .setCode addr (some [96]), .addBalance addr 3,
      .setState addr slot slot]
  have hsome : ((new ctx ⟨zeroHash, zeroHash, 0, 0⟩).run env ops).isSome = true := by decide +kernel
  obtain ⟨s, hrun⟩ := Option.isSome_iff_exists.mp hsome
  have hvalues : ((new ctx ⟨zeroHash, zeroHash, 0, 0⟩).run env ops).map (fun s =>
      (s.stateObjects.keys, s.journal.sortedDirties)) = some ({addr}, [addr]) := by
    decide +kernel
  have hobject : ((new ctx ⟨zeroHash, zeroHash, 0, 0⟩).run env ops).bind (fun s =>
      (s.stateObjects.lookup addr).map fun obj => (obj.code, obj.selfDestructed,
        (k.setAccount (commitCode env s.ctx obj) addr obj.account).toOption.isSome)) =
      some (some [96], false, true) := by
    decide +kernel
  rw [hrun] at hvalues hobject
  obtain ⟨hkeys, hsorted⟩ := Prod.mk.inj (Option.some.inj hvalues)
  obtain ⟨obj, hlookup, hobj⟩ := Option.map_eq_some_iff.mp hobject
  simp only [Prod.mk.injEq] at hobj
  obtain ⟨hcode, hdestructed, hset⟩ := hobj
  have hctx : s.ctx = ctx := ((Start.new _).since_run hrun).ctx_eq
  -- the only object is that of the address
  have honly : ∀ {other found}, s.stateObjects.lookup other = some found → other = addr ∧ found = obj := by
    intro other found hfound
    have hmem : other ∈ s.stateObjects.keys := Finmap.mem_keys.mpr (Finmap.mem_of_lookup_eq_some hfound)
    rw [hkeys, Finset.mem_singleton] at hmem
    subst hmem
    exact ⟨rfl, Option.some.inj (hfound.symm.trans hlookup)⟩
  have hknown : knownCodes s ⊆ {[], [96]} := by
    rintro code (hnil | ⟨hash, hstored⟩ | ⟨other, found, hfound, hcode'⟩)
    · exact .inl hnil
    · rw [hctx] at hstored
      exact absurd hstored (by simp [ctx, Evmd.genesisChain])
    · obtain ⟨-, rfl⟩ := honly hfound
      exact .inr (Option.some.inj (hcode'.symm.trans hcode))
  have hcoins : k.CoinsMove env s := by
    refine coinsMove_singleton hsorted hlookup ?_
    unfold CoinsMoveAt
    rw [hdestructed]
    intro ctx₁ hrecord
    obtain ⟨ctx', hok⟩ := exists_eq_ok_of_isSome hset
    obtain ⟨ctx₂, hrecord', hbalance⟩ := bind_eq_ok_iff.mp hok
    obtain rfl := Except.ok.inj (hrecord'.symm.trans hrecord)
    exact ⟨ctx', hbalance⟩
  have hcommittable : k.Committable s := by
    refine ⟨?_, fun hfound hflag => ?_, fun {other _ _} hfound hclean _ => absurd ?_ hclean⟩
    · rw [hctx]
      rintro a (rfl | rfl)
      · decide +kernel
      · decide +kernel
    · obtain ⟨-, rfl⟩ := honly hfound
      simp [hdestructed] at hflag
    · rw [(honly hfound).1, ← mem_sortedDirties, hsorted]
      exact List.mem_singleton_self addr
  have hinjective : Set.InjOn k.keccak256 {[], [96]} := by
    have hne : k.keccak256 [] ≠ k.keccak256 [96] := by decide +kernel
    rintro left (rfl | rfl) right (rfl | rfl) heq
    · rfl
    · exact absurd heq hne
    · exact absurd heq.symm hne
    · rfl
  obtain ⟨ctx', hfaithful⟩ := commit_faithful (Evmd.vmKeeper_wired _)
    (Evmd.backed_genesisChain _ _ (by decide +kernel)) (.new _)
    (by simp [ops, Op.Onward]) hrun ⟨by simp [Evmd.genesisChain], by simp [Evmd.genesisChain]⟩
    (hinjective.mono hknown) hcoins hcommittable
  exact ⟨s, ctx', hrun, hfaithful⟩

/-- A contract is created and destructed at an address that was sent coins before. The account that is
stored there has no code, and `Commit` refuses to delete it. -/
theorem commit_refuses_prefunded :
    let k := Evmd.vmKeeper Evmd.sixDecimalsCoin
    let env := k.env fun _ => ""
    let addr := bytesToAddress [7]
    let ctx := Evmd.genesisChain [(addr.bytes, [⟨"utest", 5⟩])]
    ∃ s, (new ctx ⟨zeroHash, zeroHash, 0, 0⟩).run env
        [.createContract addr, .setNonce addr 1, .setCode addr (some [96]), .selfDestruct6780 addr] =
          some s ∧
      k.CoinsMove env s ∧
      s.commit env = .error (.wrapped .other
        "failed to delete account : only smart contracts can be self-destructed") := by
  intro k env addr ctx
  let ops : List (Op (MultiStore (AuthLedger Evmd.moduleAccounts))) :=
    [.createContract addr, .setNonce addr 1, .setCode addr (some [96]), .selfDestruct6780 addr]
  have hvalues : ((new ctx ⟨zeroHash, zeroHash, 0, 0⟩).run env ops).map (fun s =>
      (s.journal.sortedDirties, match s.commit env with | .ok _ => none | .error err => some err)) =
      some ([addr], some (.wrapped .other
        "failed to delete account : only smart contracts can be self-destructed")) := by
    decide +kernel
  have hobject : ((new ctx ⟨zeroHash, zeroHash, 0, 0⟩).run env ops).bind (fun s =>
      (s.stateObjects.lookup addr).map fun obj => (obj.selfDestructed,
        (k.ak.getAccount s.ctx.store.sdk addr.bytes).all fun acct =>
          (k.setBalance (k.unlocked s.ctx acct) addr 0).toOption.isSome)) = some (true, true) := by
    decide +kernel
  obtain ⟨s, hrun, hvalues⟩ := Option.map_eq_some_iff.mp hvalues
  have hrun' : (new ctx ⟨zeroHash, zeroHash, 0, 0⟩).run env ops = some s := hrun
  rw [hrun'] at hobject
  obtain ⟨hsorted, herror⟩ := Prod.mk.inj hvalues
  obtain ⟨obj, hlookup, hobj⟩ := Option.map_eq_some_iff.mp hobject
  obtain ⟨hdestructed, hburn⟩ := Prod.mk.inj hobj
  refine ⟨s, hrun, coinsMove_singleton hsorted hlookup ?_, ?_⟩
  · unfold CoinsMoveAt
    rw [hdestructed]
    intro acct hacct
    rw [hacct, Option.all_some] at hburn
    exact exists_eq_ok_of_isSome hburn
  · cases hcommit : s.commit env with
    | ok ctx' => simp [hcommit] at herror
    | error err =>
      rw [hcommit] at herror
      rw [Option.some.inj herror]

end CosmosEvm.Vm.Keeper
