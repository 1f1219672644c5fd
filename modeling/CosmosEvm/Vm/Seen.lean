import CosmosEvm.Vm.Conserve

/-!
# The coins a new StateDB sees

A new StateDB looks a balance up only where there is an account. Coins at an address without one, which a
transfer of less than an integer coin leaves there, are not seen, and lost once the address is written.
-/

namespace CosmosEvm

namespace Statedb

variable {σ : Type} {s : StateDB σ}

theorem getOrNewStateObject_balance (env : Env σ) (s : StateDB σ) (addr : Address) :
    ∃ obj s', s.getOrNewStateObject env addr = (obj, s') ∧ s'.stateObjects.lookup addr = some obj ∧
      obj.account.balance = (s.observe env).balance addr := by
  have hshown : (s.observe env).balance addr =
      ((s.getStateObject env addr).1.map (·.account.balance)).getD 0 := rfl
  obtain ⟨obj, s', hget, -, hlookup⟩ := getOrNewStateObject_moves env s addr
  refine ⟨obj, s', hget, hlookup, ?_⟩
  rw [hshown]
  unfold StateDB.getOrNewStateObject StateDB.createObject at hget
  rcases getStateObject_moves env s addr with ⟨hnone, -⟩ | ⟨found, loaded, hfound, -⟩
  · simp only [hnone] at hget ⊢
    rw [← (Prod.mk.inj hget).1]
    rfl
  · simp only [hfound] at hget ⊢
    rw [← (Prod.mk.inj hget).1]
    rfl

theorem addBalance_balance (env : Env σ) (s : StateDB σ) (addr : Address) (amount : BitVec 256) :
    ∃ obj, (s.addBalance env addr amount).2.stateObjects.lookup addr = some obj ∧
      obj.account.balance = (s.observe env).balance addr + amount := by
  obtain ⟨obj, s', hget, hlookup, hbalance⟩ := getOrNewStateObject_balance env s addr
  unfold StateDB.addBalance
  simp only [hget]
  split
  · rename_i hzero
    exact ⟨obj, hlookup, by rw [hbalance, hzero]; exact (BitVec.add_zero _).symm⟩
  · exact ⟨_, Finmap.lookup_insert _, by rw [← hbalance]; rfl⟩

end Statedb

namespace Vm.Keeper

open Result BankKeeper PreciseBank.Keeper Statedb

variable {S Acc : Type} {k : Keeper S Acc} {ctx ctx' : Ctx S}
  {addressString : Address → String} {s : StateDB (MultiStore S)} {addr : Address}

structure SeesBalance (k : Keeper S Acc) (env : Env (MultiStore S)) (ctx : Ctx S)
    (addr : Address) : Prop where
  balance : ∀ txConfig, (((new ctx txConfig).observe env).balance addr).toNat = k.spendableCoin ctx addr
  addBalance : ∀ txConfig (amount : BitVec 256) s ctx',
    k.spendableCoin ctx addr + amount.toNat < 2 ^ 256 →
      (new ctx txConfig).run env [.addBalance addr amount] = some s → s.commit env = .ok ctx' →
        k.spendableCoin ctx' addr = k.spendableCoin ctx addr + amount.toNat

theorem spendableCoin_of_commit (hwired : k.Wired) (hspared : Spared s) (hloaded : s.Loaded)
    (hgood : s.Good (k.env addressString)) (hbacked : Backed k.bank s.ctx) (hfits : k.Fits s.ctx)
    (hseen : k.hiddenCoins s.ctx addr = 0) (hcommit : s.commit (k.env addressString) = .ok ctx') :
    k.spendableCoin ctx' addr = ((s.observe (k.env addressString)).balance addr).toNat := by
  by_cases hdirty : addr ∈ s.journal.sortedDirties
  · exact spendableCoin_commit hwired hspared hloaded hbacked hcommit hdirty
  · have hcalls := localRun_commit hwired hspared hloaded hbacked hcommit
    have hsame := hcalls.same_elsewhere addr.bytes fun hmem => by
      obtain ⟨other, hother, hbytes⟩ := List.mem_map.mp hmem
      exact hdirty (FixedBytes.bytes_injective hbytes ▸ hother)
    have hshown : (s.observe (k.env addressString)).balance addr =
        (k.env addressString).keeperBalance s.ctx.store addr := by
      rw [observe_eq]
      exact hgood.balance_of_clean fun hmem => hdirty (mem_sortedDirties.mpr hmem)
    rw [hshown, keeperBalance_toNat addressString hwired hbacked hfits, hseen, sub_zero]
    exact hsame.spendable

/-- The EVM sees the coins of an address exactly when the address has an account or no coins. -/
theorem seesBalance_iff (hwired : k.Wired) (hbacked : Backed k.bank ctx) (hfits : k.Fits ctx) :
    k.SeesBalance (k.env addressString) ctx addr ↔
      (k.ak.getAccount ctx.store.sdk addr.bytes).isSome ∨ k.spendableCoin ctx addr = 0 := by
  have hkeeper := keeperBalance_toNat addressString hwired hbacked hfits addr
  have hfresh : ∀ txConfig, ((new ctx txConfig).observe (k.env addressString)).balance addr =
      (k.env addressString).keeperBalance ctx.store addr := by
    intro txConfig
    have hstart : Start ctx (new ctx txConfig) := .new txConfig
    rw [observe_eq]
    exact (hstart.since (k.env addressString)).good.balance_of_clean Finmap.notMem_empty
  have hhidden : k.hiddenCoins ctx addr = 0 ↔
      (k.ak.getAccount ctx.store.sdk addr.bytes).isSome ∨ k.spendableCoin ctx addr = 0 := by
    unfold hiddenCoins
    split
    · simp [*]
    · simp [*]
  rw [← hhidden]
  constructor
  · intro hsees
    have hbalance := hsees.balance ⟨zeroHash, zeroHash, 0, 0⟩
    rw [hfresh, hkeeper] at hbalance
    omega
  · intro hseen
    have hbalance : ∀ txConfig, ((((new ctx txConfig).observe (k.env addressString)).balance addr).toNat : ℤ) =
        k.spendableCoin ctx addr := by
      intro txConfig
      rw [hfresh, hkeeper, hseen, sub_zero]
    refine ⟨hbalance, fun txConfig amount s ctx' hlt hrun hcommit => ?_⟩
    have hstart : Start ctx (new ctx txConfig) := .new txConfig
    have hsince := hstart.since_run hrun
    have hspared := hstart.spared.run (by simp [Op.Spares]) hrun
    obtain rfl : s.ctx = ctx := hsince.ctx_eq
    rw [spendableCoin_of_commit hwired hspared hsince.loaded hsince.good hbacked hfits hseen hcommit]
    have hadded : ((new s.ctx txConfig).addBalance (k.env addressString) addr amount).2 = s :=
      Option.some.inj hrun
    obtain ⟨obj, hlookup, hobj⟩ :=
      addBalance_balance (k.env addressString) (new s.ctx txConfig) addr amount
    rw [hadded] at hlookup
    have hold := hbalance txConfig
    rw [observe_balance_of_lookup _ hlookup, hobj, BitVec.toNat_add]
    omega

/-- A holder's coins are seen, and three more are added. -/
theorem seesBalance_of_holder :
    let k := Evmd.vmKeeper Evmd.sixDecimalsCoin
    let alice := bytesToAddress [7]
    let ctx := Evmd.genesisChain [(alice.bytes, [⟨"utest", 5⟩])]
    k.spendableCoin ctx alice = 5000000000000 ∧ k.SeesBalance (k.env fun _ => "") ctx alice := by
  intro k alice ctx
  refine ⟨by decide +kernel, ?_⟩
  refine (seesBalance_iff (Evmd.vmKeeper_wired _) (Evmd.backed_genesisChain _ _ (by decide +kernel))
    fun addr => ?_).mpr (.inl (by decide +kernel))
  exact (Evmd.spendableCoin_genesisChain_le _ _ addr).trans_lt (by decide +kernel)

/-- A new StateDB shows no balance for an address that was sent a fraction of a coin, and a transaction that
adds five to it burns the one it did not see. -/
theorem addBalance_loses_unseen_coin :
    let k := Evmd.vmKeeper Evmd.sixDecimalsCoin
    let env := k.env fun _ => ""
    let alice := bytesToAddress [7]
    let bob := bytesToAddress [8]
    ∃ ctx s ctx', k.bank.sendCoins (Evmd.genesisChain [(alice.bytes, [⟨"utest", 5⟩])]) alice.bytes
        bob.bytes (k.bank.extendedCoins 1) = .ok ctx ∧
      k.spendableCoin ctx bob = 1 ∧
      ((new ctx ⟨zeroHash, zeroHash, 0, 0⟩).observe env).balance bob = 0 ∧
      (new ctx ⟨zeroHash, zeroHash, 0, 0⟩).run env [.addBalance bob 5] = some s ∧
      s.commit env = .ok ctx' ∧ k.spendableCoin ctx' bob = 5 ∧ ¬ k.SeesBalance env ctx bob := by
  intro k env alice bob
  let genesis := Evmd.genesisChain [(alice.bytes, [⟨"utest", 5⟩])]
  have hvalues : ((k.bank.sendCoins genesis alice.bytes bob.bytes (k.bank.extendedCoins 1)).toOption.bind
      fun ctx => ((new ctx ⟨zeroHash, zeroHash, 0, 0⟩).run env [.addBalance bob 5]).bind fun s =>
        (s.commit env).toOption.map fun ctx' => (k.spendableCoin ctx bob,
          ((new ctx ⟨zeroHash, zeroHash, 0, 0⟩).observe env).balance bob, k.spendableCoin ctx' bob)) =
      some (1, 0, 5) := by
    decide +kernel
  obtain ⟨ctx, hsend, hvalues⟩ := Option.bind_eq_some_iff.mp hvalues
  obtain ⟨s, hrun, hvalues⟩ := Option.bind_eq_some_iff.mp hvalues
  obtain ⟨ctx', hcommit, hvalues⟩ := Option.map_eq_some_iff.mp hvalues
  simp only [Prod.mk.injEq] at hvalues
  obtain ⟨hbefore, hshown, hafter⟩ := hvalues
  refine ⟨ctx, s, ctx', toOption_eq_some_iff.mp hsend, hbefore, hshown, hrun,
    toOption_eq_some_iff.mp hcommit, hafter, fun hsees => ?_⟩
  have hbalance := hsees.balance ⟨zeroHash, zeroHash, 0, 0⟩
  rw [hshown, hbefore] at hbalance
  simp at hbalance

end Vm.Keeper

end CosmosEvm
