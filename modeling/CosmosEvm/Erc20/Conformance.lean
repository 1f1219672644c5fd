import CosmosEvm.Erc20.Allowances

namespace CosmosEvm.Erc20

open Result BankKeeper PreciseBank.Keeper

namespace Precompile

variable {S : Type} (p : Precompile S)

def pairEnabled (store : Store) : Bool :=
  (store.getTokenPair (store.byErc20.lookup p.address)).any StoredPair.enabled

def coinEnabled (st : TokenState S) : Bool :=
  p.bank.isSendEnabledCoin p.sendEnabled st.ctx p.tokenPair.denom

/-- A transfer of the extended coin to oneself of more than one has. -/
def Oversends (st : TokenState S) (source recipient : Address) (amount : ℤ) : Prop :=
  source = recipient ∧ p.tokenPair.denom = p.bank.extendedCoinDenom ∧ p.balanceOf st source < amount

/-- The balances of the two parties change by the amount, and not at all for one party. -/
def Moves (st st' : TokenState S) (source recipient : Address) (amount : ℤ) : Prop :=
  if source = recipient then p.balanceOf st' source = p.balanceOf st source
  else p.balanceOf st' source = p.balanceOf st source - amount ∧
    p.balanceOf st' recipient = p.balanceOf st recipient + amount

variable {p} {st st' : TokenState S} {caller source recipient : Address} {amount : ℤ}
  {logs : List TokenLog}

theorem ne_reserve_of_not_blocked (hreserve : p.bank.bk.blockedAddr p.bank.reserve.address = true)
    {address : Address} (hblocked : p.bank.bk.blockedAddr address.bytes = false) :
    address.bytes ≠ p.bank.reserve.address := by
  intro heq
  rw [heq, hreserve] at hblocked
  cases hblocked

section

variable (hbank : Lawful p.bank.bk p.bank.modules) (hcodec : p.bank.codec.RoundTrips)
  (hreserve : p.bank.bk.blockedAddr p.bank.reserve.address = true) (hbacked : Backed p.bank st.ctx)
  (hsource : p.bank.bk.blockedAddr source.bytes = false)
  (hrecipient : p.bank.bk.blockedAddr recipient.bytes = false)

include hbank hcodec hreserve hbacked hsource hrecipient

theorem exists_sendTokens_iff (hself : ¬ p.Oversends st source recipient amount) :
    (∃ ctx', p.sendTokens st.ctx source recipient amount = .ok ctx') ↔
      Coins.IsValid [⟨p.tokenPair.denom, amount⟩] ∧ amount ≤ p.balanceOf st source ∧
        p.coinEnabled st = true := by
  have hne : ∀ address : Address, address.bytes ≠ [] := fun address =>
    List.ne_nil_of_length_pos (by rw [address.length_bytes]; decide)
  have hsend : (∃ ctx', p.bank.sendCoins st.ctx source.bytes recipient.bytes
      [⟨p.tokenPair.denom, amount⟩] = .ok ctx') ↔ _ :=
    exists_sendCoins_singleton_iff hbank hbacked (ne_reserve_of_not_blocked hreserve hsource)
      (ne_reserve_of_not_blocked hreserve hrecipient) (hne source) (hne recipient)
  simp only [sendTokens_eq_ok_iff hcodec, hrecipient, true_and, exists_and_left]
  rw [hsend, isValid_singleton_iff]
  constructor
  · rintro ⟨henabled, hdenom, hpos, hcovered | ⟨hsame, hext⟩⟩
    · exact ⟨⟨hdenom, hpos⟩, hcovered, henabled⟩
    · refine ⟨⟨hdenom, hpos⟩, ?_, henabled⟩
      by_contra hover
      exact hself ⟨FixedBytes.bytes_injective hsame, hext, not_le.mp hover⟩
  · rintro ⟨⟨hdenom, hpos⟩, hcovered, henabled⟩
    exact ⟨henabled, hdenom, hpos, .inl hcovered⟩

theorem moves_sendTokens (hok : p.sendTokens st.ctx source recipient amount = .ok st'.ctx) :
    p.Moves st st' source recipient amount := by
  have hsource' := ne_reserve_of_not_blocked hreserve hsource
  have hrecipient' := ne_reserve_of_not_blocked hreserve hrecipient
  have hbalance : ∀ account : Address, account.bytes ≠ p.bank.reserve.address →
      p.balanceOf st' account = p.balanceOf st account +
        (weightOf account.bytes recipient.bytes - weightOf account.bytes source.bytes) * amount :=
    fun account haccount => spendableCoin_sendCoins_singleton hbank hbacked hsource' hrecipient'
      ((sendTokens_eq_ok_iff hcodec).mp hok).2.2 haccount
  unfold Moves
  split_ifs with hsame
  · subst hsame
    rw [hbalance source hsource', sub_self, zero_mul, add_zero]
  · have hne : source.bytes ≠ recipient.bytes := fun heq => hsame (FixedBytes.bytes_injective heq)
    rw [hbalance source hsource', hbalance recipient hrecipient', weightOf_self, weightOf_self,
      weightOf_of_ne hne.symm, weightOf_of_ne hne]
    constructor
    · ring
    · ring

end

section

variable (hbank : Lawful p.bank.bk p.bank.modules) (hcodec : p.bank.codec.RoundTrips)
  (hreserve : p.bank.bk.blockedAddr p.bank.reserve.address = true)

include hbank hcodec hreserve

theorem backed_exec {call : TokenCall} (hbacked : Backed p.bank st.ctx)
    (hsource : ∀ payment ∈ call.payment, p.bank.bk.blockedAddr payment.1.bytes = false)
    (hok : p.exec st call = .ok st') : Backed p.bank st'.ctx := by
  obtain ⟨-, hctx⟩ | ⟨source, recipient, amount, hpayment, hsend⟩ := exec_payment hok
  · rw [hctx]
    exact hbacked
  · obtain ⟨-, hrecipient, hsend⟩ := (sendTokens_eq_ok_iff hcodec).mp hsend
    change (Call.sendCoins _ _ _).exec p.bank st.ctx = .ok st'.ctx at hsend
    refine (hbacked.backedWith.exec hbank.toMovesExactly ?_ hsend).backed
    simp [Call.parties, Ne.symm (ne_reserve_of_not_blocked hreserve (hsource _ hpayment)),
      Ne.symm (ne_reserve_of_not_blocked hreserve hrecipient)]

/-- What a run counts as taken by a spender has left the owner's balance for the recipient's, at the call that
took it. -/
theorem moves_of_taken {before after : List TokenCall} {owner spender : Address} {word : BitVec 256}
    (hbacked : Backed p.bank st.ctx)
    (hsources : ∀ call ∈ before, ∀ payment ∈ call.payment, p.bank.bk.blockedAddr payment.1.bytes = false)
    (howner : p.bank.bk.blockedAddr owner.bytes = false)
    (hrun : run p.exec st (before ++ .method spender (.transferFrom owner recipient word) :: after) = .ok st') :
    ∃ st₁ st₂, run p.exec st before = .ok st₁ ∧ run p.exec st₂ after = .ok st' ∧
      p.Moves st₁ st₂ owner recipient
        (TokenCall.taken owner spender (.method spender (.transferFrom owner recipient word))) := by
  induction before generalizing st with
  | nil =>
    obtain ⟨st₂, hcall, hafter⟩ := bind_eq_ok_iff.mp hrun
    obtain ⟨hnone, -⟩ | ⟨source, found, amount, hpayment, hsend⟩ := exec_payment hcall
    · cases hnone
    · cases hpayment
      have hrecipient := ((sendTokens_eq_ok_iff hcodec).mp hsend).2.1
      refine ⟨st, st₂, rfl, hafter, ?_⟩
      rw [TokenCall.taken, if_pos ⟨rfl, rfl⟩]
      exact moves_sendTokens hbank hcodec hreserve hbacked howner hrecipient hsend
  | cons call before ih =>
    obtain ⟨hcall, hrest⟩ := List.forall_mem_cons.mp hsources
    obtain ⟨middle, hexec, hrun⟩ := bind_eq_ok_iff.mp hrun
    obtain ⟨st₁, st₂, hbefore, hafter⟩ :=
      ih (backed_exec hbank hcodec hreserve hbacked hcall hexec) hrest hrun
    exact ⟨st₁, st₂, bind_eq_ok_iff.mpr ⟨middle, hexec, hbefore⟩, hafter⟩

end

theorem exists_spendAllowance_iff {store : Store} (hkept : p.lib.Kept store) (hpos : 0 < amount) :
    (∃ store', p.spendAllowance store source caller amount = .ok store') ↔
      amount ≤ store.getAllowance p.address source caller ∧ p.pairEnabled store = true := by
  simp only [spendAllowance_eq_ok_iff, Libraries.setAllowance_eq_ok_iff]
  constructor
  · rintro ⟨store', hle, pair, hpair, henabled, -⟩
    refine ⟨hle, ?_⟩
    rw [pairEnabled, hpair]
    simpa using henabled
  · rintro ⟨hle, henabled⟩
    unfold pairEnabled at henabled
    cases hpair : store.getTokenPair (store.byErc20.lookup p.address) with
    | none =>
      rw [hpair] at henabled
      cases henabled
    | some pair =>
    rw [hpair] at henabled
    -- the allowance is stored, since it is not zero
    cases hlookup : store.allowances.lookup (p.address, source, caller) with
    | none =>
      unfold Store.getAllowance at hle
      rw [hlookup] at hle
      exact absurd hle (not_le.mpr hpos)
    | some value =>
      obtain ⟨hsource, hcaller, -, hbound⟩ := hkept.validAllowances _ _ _ _ hlookup
      have hvalue : store.getAllowance p.address source caller = value := by
        rw [Store.getAllowance, hlookup]
        rfl
      rw [hvalue] at hle ⊢
      exact ⟨_, hle, pair, rfl, .inr henabled, hsource, hcaller, by omega, by omega, rfl⟩

/-- **Transfers conform to EIP-20** where they are not of zero, of a coin that may not be sent, or from an
allowance of a disabled pair. -/
theorem transfer_conforms (hbank : Lawful p.bank.bk p.bank.modules) (hcodec : p.bank.codec.RoundTrips)
    (hreserve : p.bank.bk.blockedAddr p.bank.reserve.address = true) (hbacked : Backed p.bank st.ctx)
    (hkept : p.lib.Kept st.store) (hdenom : validateDenom p.tokenPair.denom = true)
    (hsource : p.bank.bk.blockedAddr source.bytes = false)
    (hrecipient : p.bank.bk.blockedAddr recipient.bytes = false) (caller : Address) (word : BitVec 256)
    (hself : ¬ p.Oversends st source recipient (wordAmount word)) :
    ((∃ result, p.transfer st source recipient (wordAmount word) = .ok result) ↔
      0 < wordAmount word ∧ wordAmount word ≤ p.balanceOf st source ∧ p.coinEnabled st = true) ∧
    ((∃ result, p.transferFrom st caller source recipient (wordAmount word) = .ok result) ↔
      0 < wordAmount word ∧ wordAmount word ≤ p.balanceOf st source ∧
        wordAmount word ≤ p.allowance st source caller ∧ p.coinEnabled st = true ∧
        p.pairEnabled st.store = true) ∧
    (∀ st' logs, p.transfer st source recipient (wordAmount word) = .ok (st', logs) ∨
      p.transferFrom st caller source recipient (wordAmount word) = .ok (st', logs) →
        p.Moves st st' source recipient (wordAmount word)) := by
  have hsend : (∃ ctx', p.sendTokens st.ctx source recipient (wordAmount word) = .ok ctx') ↔ _ :=
    exists_sendTokens_iff hbank hcodec hreserve hbacked hsource hrecipient hself
  have hvalid : Coins.IsValid [⟨p.tokenPair.denom, wordAmount word⟩] ↔ 0 < wordAmount word := by
    rw [isValid_singleton_iff, hdenom]
    exact and_iff_right rfl
  refine ⟨?_, ?_, ?_⟩
  · simp only [Prod.exists, transfer_eq_ok_iff, hvalid]
    constructor
    · rintro ⟨st', logs, hpos, -, hok, -⟩
      obtain ⟨-, hcovered, henabled⟩ := hsend.mp ⟨st'.ctx, hok⟩
      exact ⟨hpos, hcovered, henabled⟩
    · rintro ⟨hpos, hcovered, henabled⟩
      obtain ⟨ctx', hok⟩ := hsend.mpr ⟨hvalid.mpr hpos, hcovered, henabled⟩
      exact ⟨⟨ctx', st.store⟩, _, hpos, rfl, hok, rfl⟩
  · simp only [Prod.exists, transferFrom_eq_ok_iff, hvalid]
    constructor
    · rintro ⟨st', logs, hpos, hspend, hok, -⟩
      obtain ⟨-, hcovered, henabled⟩ := hsend.mp ⟨st'.ctx, hok⟩
      obtain ⟨hallowed, hpair⟩ := (exists_spendAllowance_iff hkept hpos).mp ⟨_, hspend⟩
      exact ⟨hpos, hcovered, hallowed, henabled, hpair⟩
    · rintro ⟨hpos, hcovered, hallowed, henabled, hpair⟩
      obtain ⟨ctx', hok⟩ := hsend.mpr ⟨hvalid.mpr hpos, hcovered, henabled⟩
      obtain ⟨store', hspend⟩ := (exists_spendAllowance_iff hkept hpos).mpr ⟨hallowed, hpair⟩
      exact ⟨⟨ctx', store'⟩, _, hpos, hspend, hok, rfl⟩
  · rintro st' logs (hok | hok)
    · obtain ⟨-, -, hok, -⟩ := transfer_eq_ok_iff.mp hok
      exact moves_sendTokens hbank hcodec hreserve hbacked hsource hrecipient hok
    · obtain ⟨-, -, hok, -⟩ := transferFrom_eq_ok_iff.mp hok
      exact moves_sendTokens hbank hcodec hreserve hbacked hsource hrecipient hok

end Precompile

def registeredState (pair : StoredPair) : TokenState (AuthLedger Evmd.moduleAccounts) where
  ctx := nativeState.ctx
  store := { Store.empty with
    pairs := Finmap.insert (plainLibraries.getID pair) pair ∅
    byErc20 := Finmap.insert pair.getERC20Contract (plainLibraries.getID pair) ∅
    byDenom := Finmap.insert pair.denom (plainLibraries.getID pair) ∅
    allowances := Finmap.insert (pair.getERC20Contract, tokenOwner, tokenSpender) 5 ∅ }

theorem kept_registeredState : plainLibraries.Kept (registeredState nativePair).store := by
  have htoken : plainLibraries.setToken Store.empty nativePair = .ok
      { (registeredState nativePair).store with allowances := ∅ } := rfl
  have hpair := Libraries.kept_empty.setToken plainLibraries_lawful (by decide +kernel) htoken
  have hallowance : plainLibraries.setAllowance { (registeredState nativePair).store with allowances := ∅ }
      nativePair.getERC20Contract tokenOwner tokenSpender 5 false =
        .ok (registeredState nativePair).store := by
    refine Libraries.setAllowance_eq_ok_iff.mpr ⟨nativePair, ?_, .inr rfl, by decide +kernel,
      by decide +kernel, by decide, by decide, rfl⟩
    have hid : (registeredState nativePair).store.byErc20.lookup nativePair.getERC20Contract =
        some (plainLibraries.getID nativePair) := Finmap.lookup_insert _
    exact Option.bind_eq_some_iff.mpr ⟨_, hid, Finmap.lookup_insert _⟩
  exact hpair.setAllowance hallowance

theorem transferFrom_within_allowance : ∃ result, (nativePrecompile fun _ => true).transferFrom
    (registeredState nativePair) tokenSpender tokenOwner tokenSpender 3 = .ok result :=
  (Precompile.transfer_conforms authBank_lawful textCodec_roundTrips
    (Evmd.vmKeeper_wired Evmd.sixDecimalsCoin).reserve_blocked
    (Evmd.backed_genesisChain _ _ (by decide +kernel)) kept_registeredState (by decide +kernel)
    (by decide +kernel) (by decide +kernel) tokenSpender 3
    (fun hself => absurd hself.1 (by decide +kernel))).2.1.mpr
      ⟨by decide +kernel, by decide +kernel, by decide +kernel, rfl, by decide +kernel⟩

/-- Transfers are refused within the balance and the allowance: of zero, of a coin that may not be sent,
and from an allowance of a disabled pair. A transfer to oneself of twice the balance succeeds. -/
theorem transfers_differ_from_eip20 :
    let p := nativePrecompile fun _ => true
    let st := registeredState nativePair
    let disabled := registeredState { nativePair with enabled := false }
    p.balanceOf st tokenOwner = 10 ^ 12 ∧
      (p.transfer st tokenOwner tokenSpender 0).toOption.isSome = false ∧
      ((nativePrecompile fun _ => false).transfer st tokenOwner tokenSpender 1).toOption.isSome = false ∧
      p.balanceOf disabled tokenOwner = 10 ^ 12 ∧ p.allowance disabled tokenOwner tokenSpender = 5 ∧
      (p.transferFrom disabled tokenSpender tokenOwner tokenSpender 3).toOption.isSome = false ∧
      (p.transfer st tokenOwner tokenOwner (2 * 10 ^ 12)).toOption.isSome = true := by
  decide +kernel

end CosmosEvm.Erc20
