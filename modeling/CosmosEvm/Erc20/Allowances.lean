import CosmosEvm.Erc20.Precompile
import CosmosEvm.Evmd.Chain

namespace CosmosEvm.Erc20

open Result BankKeeper

inductive TokenMethod where
  | transfer (recipient : Address) (amount : BitVec 256)
  | transferFrom (source recipient : Address) (amount : BitVec 256)
  | approve (spender : Address) (amount : BitVec 256)

inductive TokenCall where
  | method (caller : Address) (method : TokenMethod)
  | toggleConversion (token : String)

def wordAmount (amount : BitVec 256) : ℤ := amount.toNat

theorem wordAmount_nonneg (amount : BitVec 256) : 0 ≤ wordAmount amount := Int.natCast_nonneg _

namespace Precompile

variable {S : Type} (p : Precompile S)

def handleMethod (st : TokenState S) (caller : Address) : TokenMethod →
    Except Err (TokenState S × List TokenLog)
  | .transfer recipient amount => p.transfer st caller recipient (wordAmount amount)
  | .transferFrom source recipient amount => p.transferFrom st caller source recipient (wordAmount amount)
  | .approve spender amount => p.approve st caller spender (wordAmount amount)

def exec (st : TokenState S) : TokenCall → Except Err (TokenState S)
  | .method caller method => do
    let (st, _) ← p.handleMethod st caller method
    .ok st
  | .toggleConversion token => do
    let (_, store) ← p.lib.toggleConversion st.store token
    .ok { st with store }

end Precompile

structure Grant where
  granted : ℤ
  spent : ℤ

def Grant.after (owner spender : Address) (grant : Grant) : TokenCall → Grant
  | .method caller (.approve other amount) =>
    if caller = owner ∧ other = spender then ⟨wordAmount amount, 0⟩ else grant
  | .method caller (.transferFrom source _ amount) =>
    if source = owner ∧ caller = spender then ⟨grant.granted, grant.spent + wordAmount amount⟩
    else grant
  | .method _ (.transfer _ _) => grant
  | .toggleConversion _ => grant

namespace TokenCall

def Approves (owner spender : Address) : TokenCall → Prop
  | .method caller (.approve other _) => caller = owner ∧ other = spender
  | _ => False

def Takes (owner spender : Address) : TokenCall → Prop
  | .method caller (.transferFrom source _ _) => source = owner ∧ caller = spender
  | _ => False

def taken (owner spender : Address) : TokenCall → ℤ
  | .method caller (.transferFrom source _ amount) =>
    if source = owner ∧ caller = spender then wordAmount amount else 0
  | _ => 0

def payment : TokenCall → Option (Address × Address × ℤ)
  | .method caller (.transfer recipient amount) => some (caller, recipient, wordAmount amount)
  | .method _ (.transferFrom source recipient amount) => some (source, recipient, wordAmount amount)
  | _ => none

end TokenCall

theorem Grant.after_of_not_approves {owner spender : Address} {call : TokenCall}
    (hother : ¬ call.Approves owner spender) (grant : Grant) :
    grant.after owner spender call = ⟨grant.granted, grant.spent + call.taken owner spender⟩ := by
  cases call with
  | toggleConversion token => simp [Grant.after, TokenCall.taken]
  | method caller method =>
    cases method with
    | transfer recipient amount => simp [Grant.after, TokenCall.taken]
    | transferFrom source recipient amount =>
      by_cases heq : source = owner ∧ caller = spender <;> simp [Grant.after, TokenCall.taken, heq]
    | approve other amount =>
      have hne : ¬ (caller = owner ∧ other = spender) := hother
      simp [Grant.after, TokenCall.taken, hne]

theorem Grant.foldl_after_of_not_approves {owner spender : Address} {calls : List TokenCall}
    (hothers : ∀ call ∈ calls, ¬ call.Approves owner spender) (grant : Grant) :
    calls.foldl (Grant.after owner spender) grant =
      ⟨grant.granted, grant.spent + (calls.map (TokenCall.taken owner spender)).sum⟩ := by
  induction calls generalizing grant with
  | nil => simp
  | cons call calls ih =>
    obtain ⟨hcall, hcalls⟩ := List.forall_mem_cons.mp hothers
    rw [List.foldl_cons, Grant.after_of_not_approves hcall, ih hcalls, List.map_cons, List.sum_cons,
      add_assoc]

theorem TokenCall.taken_of_not_takes {owner spender : Address} {call : TokenCall}
    (hother : ¬ call.Takes owner spender) : call.taken owner spender = 0 := by
  cases call with
  | toggleConversion token => rfl
  | method caller method =>
    cases method with
    | transfer recipient amount => rfl
    | transferFrom source recipient amount => exact if_neg hother
    | approve other amount => rfl

namespace Precompile

variable {S : Type} {p : Precompile S} {st st' : TokenState S} {store store' : Store}
  {owner spender : Address} {amount : ℤ}

theorem approveAllowance_spec (hvalid : store.ValidAllowances) (hnonneg : 0 ≤ amount)
    (hok : p.approveAllowance store owner spender amount = .ok store') :
    store'.ValidAllowances ∧ ∀ owner' spender', store'.getAllowance p.address owner' spender' =
      if owner' = owner ∧ spender' = spender then amount
      else store.getAllowance p.address owner' spender' := by
  have hset : ∀ {value}, p.lib.setAllowance store p.address owner spender value false = .ok store' →
      value = amount → store'.ValidAllowances ∧
        ∀ owner' spender', store'.getAllowance p.address owner' spender' =
          if owner' = owner ∧ spender' = spender then amount
          else store.getAllowance p.address owner' spender' := by
    rintro value hstored rfl
    refine ⟨hvalid.setAllowance hstored, fun owner' spender' => ?_⟩
    rw [getAllowance_setAllowance hstored]
    simp only [Prod.mk.injEq, true_and]
  have hallowance := hvalid.getAllowance_nonneg p.address owner spender
  unfold approveAllowance at hok
  dsimp only at hok
  split_ifs at hok with hnegative hcreate hdelete hupdate
  · exact hset (ite_error_eq_ok_iff.mp hok).2 rfl
  · exact hset hok (by omega)
  · exact hset (ite_error_eq_ok_iff.mp hok).2 rfl
  · -- nothing was granted and nothing is approved
    cases hok
    refine ⟨hvalid, fun owner' spender' => ?_⟩
    split_ifs with heq
    · obtain ⟨rfl, rfl⟩ := heq
      omega
    · rfl

theorem spendAllowance_spec (hvalid : store.ValidAllowances)
    (hok : p.spendAllowance store owner spender amount = .ok store') :
    store'.ValidAllowances ∧ amount ≤ store.getAllowance p.address owner spender ∧
      ∀ owner' spender', store'.getAllowance p.address owner' spender' =
        if owner' = owner ∧ spender' = spender then store.getAllowance p.address owner spender - amount
        else store.getAllowance p.address owner' spender' := by
  obtain ⟨hle, hset⟩ := spendAllowance_eq_ok_iff.mp hok
  refine ⟨hvalid.setAllowance hset, hle, fun owner' spender' => ?_⟩
  rw [getAllowance_setAllowance hset]
  simp only [Prod.mk.injEq, true_and]

theorem toggleConversion_allowances {lib : Libraries} {token : String} {pair : StoredPair}
    (hok : lib.toggleConversion store token = .ok (pair, store')) :
    store'.allowances = store.allowances := by
  unfold Libraries.toggleConversion at hok
  split at hok
  · cases hok
  · split at hok
    · cases hok
    · cases hok
      rfl

structure Accounted (p : Precompile S) (owner spender : Address) (st : TokenState S) (grant : Grant) :
    Prop where
  valid : st.store.ValidAllowances
  allowance_eq : p.allowance st owner spender = grant.granted - grant.spent
  spent_nonneg : 0 ≤ grant.spent

theorem Accounted.spent_le {grant : Grant} (haccounted : p.Accounted owner spender st grant) :
    grant.spent ≤ grant.granted := by
  have hnonneg := haccounted.valid.getAllowance_nonneg p.address owner spender
  have heq := haccounted.allowance_eq
  unfold allowance at heq
  omega

/-- An approval starts the account anew, and a payment moves its amount from what is left to what is taken. -/
theorem Accounted.exec {grant : Grant} {call : TokenCall} (haccounted : p.Accounted owner spender st grant)
    (hok : p.exec st call = .ok st') :
    p.Accounted owner spender st' (grant.after owner spender call) := by
  obtain ⟨hvalid, heq, hspent⟩ := haccounted
  unfold allowance at heq
  cases call with
  | toggleConversion token =>
    obtain ⟨⟨pair, store⟩, htoggle, hok⟩ := bind_eq_ok_iff.mp hok
    cases hok
    have hsame := toggleConversion_allowances htoggle
    refine ⟨?_, ?_, hspent⟩
    · unfold Store.ValidAllowances
      rw [hsame]
      exact hvalid
    · unfold allowance Store.getAllowance
      rw [hsame]
      exact heq
  | method caller method =>
  obtain ⟨⟨st₁, logs⟩, hmethod, hok⟩ := bind_eq_ok_iff.mp hok
  cases hok
  cases method with
  | transfer recipient amount =>
    obtain ⟨-, hstore, -, -⟩ := transfer_eq_ok_iff.mp hmethod
    refine ⟨hstore ▸ hvalid, ?_, hspent⟩
    unfold allowance
    rw [hstore]
    exact heq
  | transferFrom source recipient amount =>
    obtain ⟨-, hspend, -, -⟩ := transferFrom_eq_ok_iff.mp hmethod
    obtain ⟨hvalid', hle, hother⟩ := spendAllowance_spec hvalid hspend
    have hamount := wordAmount_nonneg amount
    simp only [Grant.after]
    by_cases hconcerns : source = owner ∧ caller = spender
    · obtain ⟨rfl, rfl⟩ := hconcerns
      rw [if_pos ⟨rfl, rfl⟩]
      refine ⟨hvalid', ?_, by dsimp only; omega⟩
      unfold allowance
      rw [hother, if_pos ⟨rfl, rfl⟩, heq]
      dsimp only
      omega
    · rw [if_neg hconcerns]
      refine ⟨hvalid', ?_, hspent⟩
      unfold allowance
      rw [hother, if_neg fun hsame => hconcerns ⟨hsame.1.symm, hsame.2.symm⟩, heq]
  | approve other amount =>
    obtain ⟨happrove, -, -⟩ := approve_eq_ok_iff.mp hmethod
    obtain ⟨hvalid', hother⟩ := approveAllowance_spec hvalid (wordAmount_nonneg amount) happrove
    simp only [Grant.after]
    by_cases hconcerns : caller = owner ∧ other = spender
    · obtain ⟨rfl, rfl⟩ := hconcerns
      rw [if_pos ⟨rfl, rfl⟩]
      refine ⟨hvalid', ?_, le_rfl⟩
      unfold allowance
      rw [hother, if_pos ⟨rfl, rfl⟩, sub_zero]
    · rw [if_neg hconcerns]
      refine ⟨hvalid', ?_, hspent⟩
      unfold allowance
      rw [hother, if_neg fun hsame => hconcerns ⟨hsame.1.symm, hsame.2.symm⟩, heq]

theorem exec_payment {call : TokenCall} (hok : p.exec st call = .ok st') :
    (call.payment = none ∧ st'.ctx = st.ctx) ∨ ∃ source recipient amount,
      call.payment = some (source, recipient, amount) ∧
        p.sendTokens st.ctx source recipient amount = .ok st'.ctx := by
  cases call with
  | toggleConversion token =>
    obtain ⟨⟨pair, store⟩, -, hok⟩ := bind_eq_ok_iff.mp hok
    cases hok
    exact .inl ⟨rfl, rfl⟩
  | method caller method =>
  obtain ⟨⟨st₁, logs⟩, hmethod, hok⟩ := bind_eq_ok_iff.mp hok
  cases hok
  cases method with
  | transfer recipient amount =>
    obtain ⟨-, -, hsend, -⟩ := transfer_eq_ok_iff.mp hmethod
    exact .inr ⟨caller, recipient, _, rfl, hsend⟩
  | transferFrom source recipient amount =>
    obtain ⟨-, -, hsend, -⟩ := transferFrom_eq_ok_iff.mp hmethod
    exact .inr ⟨source, recipient, _, rfl, hsend⟩
  | approve other amount =>
    obtain ⟨-, hctx, -⟩ := approve_eq_ok_iff.mp hmethod
    exact .inl ⟨rfl, hctx⟩

theorem keepsSupply_exec (hbank : Lawful p.bank.bk p.bank.modules) (hcodec : p.bank.codec.RoundTrips)
    {call : TokenCall} (hok : p.exec st call = .ok st') :
    PreciseBank.Keeper.KeepsSupply p.bank st.ctx st'.ctx := by
  obtain ⟨-, hctx⟩ | ⟨source, recipient, amount, -, hsend⟩ := exec_payment hok
  · rw [hctx]
    exact .refl st.ctx
  · exact .of_send hbank ((sendTokens_eq_ok_iff hcodec).mp hsend).2.2

theorem Accounted.run {grant : Grant} {calls : List TokenCall}
    (haccounted : p.Accounted owner spender st grant) (hrun : run p.exec st calls = .ok st') :
    p.Accounted owner spender st' (calls.foldl (Grant.after owner spender) grant) := by
  induction calls generalizing st grant with
  | nil =>
    cases hrun
    exact haccounted
  | cons call calls ih =>
    obtain ⟨middle, hcall, hrest⟩ := bind_eq_ok_iff.mp hrun
    exact ih (haccounted.exec hcall) hrest

theorem keepsSupply_run (hbank : Lawful p.bank.bk p.bank.modules) (hcodec : p.bank.codec.RoundTrips)
    {calls : List TokenCall} (hrun : run p.exec st calls = .ok st') :
    PreciseBank.Keeper.KeepsSupply p.bank st.ctx st'.ctx := by
  induction calls generalizing st with
  | nil =>
    cases hrun
    exact .refl _
  | cons call calls ih =>
    obtain ⟨middle, hcall, hrest⟩ := bind_eq_ok_iff.mp hrun
    exact (keepsSupply_exec hbank hcodec hcall).trans (ih hrest)

/-- **Allowances are safe.** Since the last approval the spender has taken at most the approved amount and
the allowance is the rest. Only the owner's approvals and what the spender takes change it, and no call
changes a supply. -/
theorem allowance_safe (hbank : Lawful p.bank.bk p.bank.modules) (hcodec : p.bank.codec.RoundTrips)
    (hvalid : st.store.ValidAllowances) {calls : List TokenCall}
    (hrun : run p.exec st calls = .ok st') (owner spender : Address) :
    (∀ before amount after, calls = before ++ .method owner (.approve spender amount) :: after →
      (∀ call ∈ after, ¬ call.Approves owner spender) →
      (after.map (TokenCall.taken owner spender)).sum ≤ wordAmount amount ∧
        p.allowance st' owner spender =
          wordAmount amount - (after.map (TokenCall.taken owner spender)).sum) ∧
    ((∀ call ∈ calls, ¬ call.Approves owner spender ∧ ¬ call.Takes owner spender) →
      p.allowance st' owner spender = p.allowance st owner spender) ∧
    p.totalSupply st' = p.totalSupply st ∧
    PreciseBank.Keeper.KeepsSupply p.bank st.ctx st'.ctx := by
  have hstart : p.Accounted owner spender st ⟨p.allowance st owner spender, 0⟩ :=
    ⟨hvalid, (sub_zero _).symm, le_rfl⟩
  have hend := hstart.run hrun
  have hsupply := keepsSupply_run hbank hcodec hrun
  refine ⟨?_, ?_, hsupply.getSupply_eq _, hsupply⟩
  · rintro before amount after rfl hlast
    have happrove : ∀ grant : Grant,
        grant.after owner spender (.method owner (.approve spender amount)) = ⟨wordAmount amount, 0⟩ :=
      fun _ => if_pos ⟨rfl, rfl⟩
    rw [List.foldl_append, List.foldl_cons, happrove, Grant.foldl_after_of_not_approves hlast,
      zero_add] at hend
    exact ⟨hend.spent_le, hend.allowance_eq⟩
  · intro hothers
    rw [Grant.foldl_after_of_not_approves fun call hmem => (hothers call hmem).1] at hend
    have hzero : (calls.map (TokenCall.taken owner spender)).sum = 0 := by
      refine List.sum_eq_zero fun amount hmem => ?_
      obtain ⟨call, hcall, rfl⟩ := List.mem_map.mp hmem
      exact TokenCall.taken_of_not_takes (hothers call hcall).2
    rw [hend.allowance_eq, hzero, zero_add, sub_zero]

end Precompile

def nativePair : StoredPair := ⟨"0x000000000000000000000000000000000000ee0e", "atest", true, .module⟩

def nativePrecompile (sendEnabled : Denom → Bool) : Precompile (AuthLedger Evmd.moduleAccounts) where
  bank := Evmd.chainBank Evmd.sixDecimalsCoin
  sendEnabled _ := sendEnabled
  lib := plainLibraries
  tokenPair := nativePair

def tokenOwner : Address := bytesToAddress [0xa1]

def tokenSpender : Address := bytesToAddress [0xb2]

def nativeState : TokenState (AuthLedger Evmd.moduleAccounts) where
  ctx := Evmd.genesisChain [(tokenOwner.bytes, [⟨"utest", 1⟩])]
  store := { Store.empty with
    pairs := Finmap.singleton [1] nativePair
    byErc20 := Finmap.singleton nativePair.getERC20Contract [1]
    byDenom := Finmap.singleton nativePair.denom [1] }

def sampleCalls : List TokenCall :=
  [.method tokenOwner (.approve tokenSpender 5),
    .method tokenSpender (.transferFrom tokenOwner tokenSpender 2),
    .toggleConversion nativePair.denom,
    .method tokenOwner (.transfer tokenSpender 7),
    .toggleConversion nativePair.denom,
    .method tokenSpender (.transferFrom tokenOwner tokenSpender 3)]

theorem nativeState_validAllowances : nativeState.store.ValidAllowances :=
  fun _ _ _ _ hlookup => nomatch hlookup

theorem allowance_safe_sample : ∃ st', run (nativePrecompile fun _ => true).exec nativeState sampleCalls =
    .ok st' ∧ (nativePrecompile fun _ => true).allowance st' tokenOwner tokenSpender = 0 := by
  have hsome : (run (nativePrecompile fun _ => true).exec nativeState sampleCalls).toOption.isSome = true := by
    decide +kernel
  obtain ⟨st', hrun⟩ := exists_eq_ok_of_isSome hsome
  have hsafe := Precompile.allowance_safe authBank_lawful textCodec_roundTrips nativeState_validAllowances
    hrun tokenOwner tokenSpender
  obtain ⟨-, hleft⟩ := hsafe.1 [] 5 _ rfl (by simp [TokenCall.Approves])
  exact ⟨st', hrun, hleft.trans (by decide +kernel)⟩

end CosmosEvm.Erc20
