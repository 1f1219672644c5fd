import CosmosEvm.Evmd.Chain
import CosmosEvm.Statedb.Spared
import CosmosEvm.Vm.Commit

/-!
# What Commit conserves

Each dirty balance is set by a mint or a burn of its own. Together they change the circulating value by the
net change of the StateDB less the coins that it never saw.
-/

namespace CosmosEvm

namespace Statedb

variable {σ : Type} {env : Env σ} {s : StateDB σ}

/-- The sum over the loaded addresses of the balance now less the balance read from the keeper. -/
def StateDB.netChange (env : Env σ) (s : StateDB σ) : ℤ :=
  ∑ addr ∈ s.stateObjects.keys,
    (((s.observe env).balance addr).toNat - (env.keeperBalance s.ctx.store addr).toNat : ℤ)

theorem netChange_eq (hgood : s.Good env) (hloaded : s.Loaded) :
    s.netChange env = ∑ addr ∈ s.journal.dirties.keys,
      (((s.observe env).balance addr).toNat - (env.keeperBalance s.ctx.store addr).toNat : ℤ) := by
  symm
  apply Finset.sum_subset
  · intro addr hmem
    exact Finmap.mem_keys.mpr (hloaded addr (Finmap.mem_keys.mp hmem))
  · intro addr _ hclean
    have hbalance : (s.observe env).balance addr = env.keeperBalance s.ctx.store addr := by
      rw [observe_eq]
      exact hgood.balance_of_clean fun hdirty => hclean (Finmap.mem_keys.mpr hdirty)
    rw [hbalance, sub_self]

theorem sum_sortedDirties (journal : Journal) (value : Address → ℤ) :
    (journal.sortedDirties.map value).sum = ∑ addr ∈ journal.dirties.keys, value addr := by
  unfold Journal.sortedDirties
  rw [← List.sum_toFinset _ (Finset.sort_nodup _ _), Finset.sort_toFinset]

theorem sortedDirties_eq {journal : Journal} {addrs : List Address} (hsorted : addrs.Pairwise (· ≤ ·))
    (hnodup : addrs.Nodup) (hkeys : journal.dirties.keys = addrs.toFinset) :
    journal.sortedDirties = addrs := by
  unfold Journal.sortedDirties
  rw [hkeys]
  exact (List.toFinset_sort _ hnodup).mpr hsorted

theorem observe_balance_of_lookup (env : Env σ) {addr : Address} {obj : StateObject}
    (hlookup : s.stateObjects.lookup addr = some obj) :
    (s.observe env).balance addr = obj.account.balance := by
  rw [observe_eq]
  change (((s.view env).account addr).map AccountView.balance).getD 0 = _
  rw [view_account_of_lookup env hlookup]
  rfl

end Statedb

namespace Vm.Keeper

open Result BankKeeper PreciseBank.Keeper Statedb

variable {S Acc : Type} {k : Keeper S Acc} {ctx ctx' : Ctx S}
  {addressString : Address → String} {s : StateDB (MultiStore S)}

/-- Every balance that the bank holds fits a `uint256`, as `sdkmath.Int` guarantees. -/
def Fits (k : Keeper S Acc) (ctx : Ctx S) : Prop :=
  ∀ addr, k.spendableCoin ctx addr < 2 ^ 256

/-- The spendable coins of an address that a new StateDB does not see, for want of an account. -/
def hiddenCoins (k : Keeper S Acc) (ctx : Ctx S) (addr : Address) : ℤ :=
  if (k.ak.getAccount ctx.store.sdk addr.bytes).isSome then 0 else k.spendableCoin ctx addr

theorem spendableCoin_nonneg (hwired : k.Wired) (hbacked : Backed k.bank ctx) (addr : Address) :
    0 ≤ k.spendableCoin ctx addr := by
  unfold spendableCoin
  by_cases hreserve : addr.bytes = k.bank.reserve.address
  · rw [hreserve]
    simp [PreciseBank.Keeper.spendableCoin, k.bank.getModuleAddress_moduleName]
  · rw [spendableCoin_extendedCoinDenom hreserve]
    exact add_nonneg (mul_nonneg (hwired.bank.spendable_nonneg _ _ _) k.bank.conversionFactor_pos.le)
      (hbacked.fractional addr.bytes).1

theorem hiddenCoins_nonneg (hwired : k.Wired) (hbacked : Backed k.bank ctx) (addr : Address) :
    0 ≤ k.hiddenCoins ctx addr := by
  unfold hiddenCoins
  split
  · exact le_rfl
  · exact spendableCoin_nonneg hwired hbacked addr

theorem toNat_uint256 {amt : ℤ} (hnonneg : 0 ≤ amt) (hlt : amt < 2 ^ 256) :
    ((uint256 amt).toNat : ℤ) = amt := by
  rw [uint256, if_pos hlt, BitVec.toNat_ofInt]
  omega

theorem keeperBalance_toNat (addressString : Address → String) (hwired : k.Wired)
    (hbacked : Backed k.bank ctx) (hfits : k.Fits ctx) (addr : Address) :
    (((k.env addressString).keeperBalance ctx.store addr).toNat : ℤ) =
      k.spendableCoin ctx addr - k.hiddenCoins ctx addr := by
  change (((((k.ak.getAccount ctx.store.sdk addr.bytes).map _).map Account.balance).getD 0).toNat : ℤ) = _
  unfold hiddenCoins
  cases k.ak.getAccount ctx.store.sdk addr.bytes with
  | none => simp
  | some acct =>
    simp only [Option.map_some, Option.getD_some, Option.isSome_some, if_true, sub_zero]
    exact toNat_uint256 (spendableCoin_nonneg hwired hbacked addr) (hfits addr)

theorem ready_of_spared (hspared : Spared s) (hloaded : s.Loaded) :
    ∀ addr ∈ s.journal.sortedDirties, k.Ready s ctx addr := by
  intro addr hmem
  obtain ⟨obj, hlookup⟩ := Finmap.mem_iff.mp (hloaded addr (mem_sortedDirties.mp hmem))
  refine ⟨obj, hlookup, fun hdestructed => ?_⟩
  rw [hspared.object hlookup] at hdestructed
  simp at hdestructed

theorem writeCache_of_spared (hspared : Spared s) : s.writeCache = s.ctx := by
  unfold StateDB.writeCache
  rw [hspared.cache_eq]

theorem localRun_commit (hwired : k.Wired) (hspared : Spared s) (hloaded : s.Loaded)
    (hbacked : Backed k.bank s.ctx) (hcommit : s.commit (k.env addressString) = .ok ctx') :
    LocalRun (s.commitAddress (k.env addressString)) FixedBytes.bytes (Backed k.bank) (k.Ready s)
      (SameAt k) s.ctx s.journal.sortedDirties ctx' := by
  unfold StateDB.commit StateDB.commitWithCtx at hcommit
  rw [writeCache_of_spared hspared] at hcommit
  exact (local_commitAddress hwired s).run (nodup_sortedDirties _) (ready_of_spared hspared hloaded)
    hbacked hcommit

theorem spendableCoin_commit (hwired : k.Wired) (hspared : Spared s) (hloaded : s.Loaded)
    (hbacked : Backed k.bank s.ctx) (hcommit : s.commit (k.env addressString) = .ok ctx')
    {addr : Address} (hmem : addr ∈ s.journal.sortedDirties) :
    k.spendableCoin ctx' addr = ((s.observe (k.env addressString)).balance addr).toNat := by
  obtain ⟨before, after, hbefore, ⟨obj, hlookup, -⟩, hexec, -, hafter⟩ :=
    (localRun_commit hwired hspared hloaded hbacked hcommit).called addr hmem
  simp only [StateDB.commitAddress, hlookup] at hexec
  have hcommitted := commitObject_spec hwired hbefore (hspared.object hlookup) hexec
  rw [observe_balance_of_lookup _ hlookup, ← hcommitted.spendable]
  exact hafter.spendable

/-- Each dirty account is set to its balance: the supply changes by all it holds beyond what was spendable. -/
theorem circulatingValue_commit (hwired : k.Wired) (hspared : Spared s) (hloaded : s.Loaded)
    (hgood : s.Good (k.env addressString)) (hbacked : Backed k.bank s.ctx) (hfits : k.Fits s.ctx)
    (hcommit : s.commit (k.env addressString) = .ok ctx') :
    k.bank.circulatingValue ctx' = k.bank.circulatingValue s.ctx + s.netChange (k.env addressString) -
      ∑ addr ∈ s.journal.dirties.keys, k.hiddenCoins s.ctx addr := by
  have hrun := hcommit
  unfold StateDB.commit StateDB.commitWithCtx at hrun
  rw [writeCache_of_spared hspared] at hrun
  have htotal := (local_commitAddress hwired s).run_total (nodup_sortedDirties _)
    (ready_of_spared hspared hloaded) hbacked hrun k.bank.circulatingValue
    (fun ctx addr => ((s.observe (k.env addressString)).balance addr).toNat - k.spendableCoin ctx addr)
    (fun {ctx addr ctx'} hbacked hready hok => by
      obtain ⟨obj, hlookup, -⟩ := hready
      simp only [StateDB.commitAddress, hlookup] at hok
      rw [(commitObject_spec hwired hbacked (hspared.object hlookup) hok).circulating,
        observe_balance_of_lookup _ hlookup, balanceDelta])
    (fun hsame => by simp only [spendableCoin, hsame.spendable])
  have hgain : ∀ addr, (((s.observe (k.env addressString)).balance addr).toNat : ℤ) -
      k.spendableCoin s.ctx addr =
        (((s.observe (k.env addressString)).balance addr).toNat -
          ((k.env addressString).keeperBalance s.ctx.store addr).toNat) -
        k.hiddenCoins s.ctx addr := by
    intro addr
    rw [keeperBalance_toNat addressString hwired hbacked hfits]
    ring
  rw [htotal, sum_sortedDirties, netChange_eq hgood hloaded, Finset.sum_congr rfl fun addr _ => hgain addr,
    Finset.sum_sub_distrib]
  ring

structure Conserved (k : Keeper S Acc) (env : Env (MultiStore S)) (s : StateDB (MultiStore S))
    (ctx' : Ctx S) : Prop where
  circulating : k.bank.circulatingValue ctx' = k.bank.circulatingValue s.ctx
  remainder : getRemainderAmount ctx' = getRemainderAmount s.ctx
  moduleBalance : k.bank.getBalance ctx' k.account.address k.bank.extendedCoinDenom =
    k.bank.getBalance s.ctx k.account.address k.bank.extendedCoinDenom
  clean : ∀ a, (∀ addr ∈ s.journal.sortedDirties, a ≠ addr.bytes) →
    k.bank.getBalance ctx' a k.bank.extendedCoinDenom = k.bank.getBalance s.ctx a k.bank.extendedCoinDenom
  dirty : ∀ addr ∈ s.journal.sortedDirties,
    k.spendableCoin ctx' addr = ((s.observe env).balance addr).toNat

structure SeesCoins (k : Keeper S Acc) (env : Env (MultiStore S)) (s : StateDB (MultiStore S)) :
    Prop where
  loaded : ∀ addr ∈ s.journal.sortedDirties, k.ak.getAccount s.ctx.store.sdk addr.bytes = none →
    k.spendableCoin s.ctx addr = 0
  moduleBalance : ∀ addr ∈ s.journal.sortedDirties, addr.bytes = k.account.address →
    (s.observe env).balance addr = env.keeperBalance s.ctx.store addr

theorem remainder_eq_of_circulatingValue (hbacked : Backed k.bank ctx) (hbacked' : Backed k.bank ctx')
    (hcirculating : k.bank.circulatingValue ctx' = k.bank.circulatingValue ctx) :
    getRemainderAmount ctx' = getRemainderAmount ctx := by
  unfold circulatingValue at hcirculating
  have hdigits : -k.bank.bk.getSupply ctx'.store.sdk k.bank.integerCoinDenom * k.bank.conversionFactor +
      getRemainderAmount ctx' =
        -k.bank.bk.getSupply ctx.store.sdk k.bank.integerCoinDenom * k.bank.conversionFactor +
          getRemainderAmount ctx := by
    linear_combination -hcirculating
  exact (Digit.units_digit_unique hbacked'.remainder hbacked.remainder hdigits).2

theorem spendableCoin_account (hwired : k.Wired) (ctx : Ctx S) {addr : Address}
    (haddr : addr.bytes = k.account.address) : k.spendableCoin ctx addr =
      k.bank.getBalance ctx k.account.address k.bank.extendedCoinDenom := by
  unfold spendableCoin
  rw [haddr, spendableCoin_extendedCoinDenom k.account_ne_reserve,
    getBalance_extendedCoinDenom k.account_ne_reserve, valueOf, valueOf,
    hwired.bank.module_spendable k.getModuleAccount_moduleName]

theorem hiddenCoins_eq_zero_of_sees (hsees : k.SeesCoins (k.env addressString) s) {addr : Address}
    (hmem : addr ∈ s.journal.sortedDirties) : k.hiddenCoins s.ctx addr = 0 := by
  unfold hiddenCoins
  cases hacct : k.ak.getAccount s.ctx.store.sdk addr.bytes with
  | none => simpa using hsees.loaded addr hmem hacct
  | some acct => simp

/-- `Commit` of a StateDB whose balances have no net change conserves the coin exactly when it has seen the
coins of every dirty address, whatever was snapshotted and reverted on the way. -/
theorem commit_conserved_iff (hwired : k.Wired) (hbacked : Backed k.bank ctx) (hfits : k.Fits ctx)
    {start : StateDB (MultiStore S)} (hstart : Start ctx start) {ops : List (Op (MultiStore S))}
    (hops : ∀ op ∈ ops, op.Spares) (hrun : start.run (k.env addressString) ops = some s)
    (hnet : s.netChange (k.env addressString) = 0)
    (hcommit : s.commit (k.env addressString) = .ok ctx') :
    k.Conserved (k.env addressString) s ctx' ↔ k.SeesCoins (k.env addressString) s := by
  have hsince := hstart.since_run hrun
  have hspared := hstart.spared.run hops hrun
  obtain ⟨-, -, -, -, -, -, hctx⟩ := hstart.spec
  obtain rfl : s.ctx = ctx := hsince.ctx_eq.trans hctx
  have hcalls := localRun_commit hwired hspared hsince.loaded hbacked hcommit
  have hdirty : ∀ addr ∈ s.journal.sortedDirties, k.spendableCoin ctx' addr =
      ((s.observe (k.env addressString)).balance addr).toNat := fun addr hmem =>
    spendableCoin_commit hwired hspared hsince.loaded hbacked hcommit hmem
  have hcirculating := circulatingValue_commit hwired hspared hsince.loaded hsince.good hbacked hfits
    hcommit
  rw [hnet, add_zero] at hcirculating
  constructor
  · intro hconserved
    have hhidden : ∀ addr ∈ s.journal.dirties.keys, k.hiddenCoins s.ctx addr = 0 := by
      rw [← Finset.sum_eq_zero_iff_of_nonneg fun addr _ => hiddenCoins_nonneg hwired hbacked addr]
      linarith [hconserved.circulating]
    have hhidden' : ∀ addr ∈ s.journal.sortedDirties, k.hiddenCoins s.ctx addr = 0 := fun addr hmem =>
      hhidden addr (Finmap.mem_keys.mpr (mem_sortedDirties.mp hmem))
    refine ⟨fun addr hmem hnone => ?_, fun addr hmem haddr => ?_⟩
    · have hzero := hhidden' addr hmem
      simpa [hiddenCoins, hnone] using hzero
    · apply BitVec.eq_of_toNat_eq
      have hkeeper := keeperBalance_toNat addressString hwired hbacked hfits addr
      rw [hhidden' addr hmem, sub_zero, spendableCoin_account hwired _ haddr,
        ← hconserved.moduleBalance, ← spendableCoin_account hwired _ haddr, hdirty addr hmem] at hkeeper
      exact_mod_cast hkeeper.symm
  · intro hsees
    have hsum : ∑ addr ∈ s.journal.dirties.keys, k.hiddenCoins s.ctx addr = 0 :=
      Finset.sum_eq_zero fun addr hmem =>
        hiddenCoins_eq_zero_of_sees hsees (mem_sortedDirties.mpr (Finmap.mem_keys.mp hmem))
    rw [hsum, sub_zero] at hcirculating
    have hclean : ∀ a, (∀ addr ∈ s.journal.sortedDirties, a ≠ addr.bytes) →
        k.bank.getBalance ctx' a k.bank.extendedCoinDenom =
          k.bank.getBalance s.ctx a k.bank.extendedCoinDenom := by
      intro a ha
      refine (hcalls.same_elsewhere a fun hmem => ?_).balance
      obtain ⟨addr, haddr, heq⟩ := List.mem_map.mp hmem
      exact ha addr haddr heq.symm
    refine ⟨hcirculating, remainder_eq_of_circulatingValue hbacked hcalls.invariant_end hcirculating, ?_,
      hclean, hdirty⟩
    by_cases hmem : ∃ addr ∈ s.journal.sortedDirties, addr.bytes = k.account.address
    · obtain ⟨addr, hmem, haddr⟩ := hmem
      rw [← spendableCoin_account hwired _ haddr, ← spendableCoin_account hwired _ haddr,
        hdirty addr hmem, hsees.moduleBalance addr hmem haddr, keeperBalance_toNat addressString hwired hbacked hfits,
        hiddenCoins_eq_zero_of_sees hsees hmem, sub_zero]
    · exact hclean _ fun addr haddr heq => hmem ⟨addr, haddr, heq.symm⟩

/-- A transfer of less than an integer coin, after a transfer that was reverted. -/
theorem commit_conserved_transfer :
    let k := Evmd.vmKeeper Evmd.sixDecimalsCoin
    let env := k.env fun _ => ""
    let alice := bytesToAddress [7]
    let bob := bytesToAddress [8]
    let ctx := Evmd.genesisChain [(alice.bytes, [⟨"utest", 5⟩])]
    ∃ s ctx', (new ctx ⟨zeroHash, zeroHash, 0, 0⟩).run env
        [.snapshot, .addBalance bob 3, .revertToSnapshot 0, .subBalance alice 7, .addBalance bob 7] =
          some s ∧
      s.journal.sortedDirties = [alice, bob] ∧ s.commit env = .ok ctx' ∧ k.spendableCoin ctx' bob = 7 ∧
      k.Conserved env s ctx' := by
  intro k env alice bob ctx
  let ops : List (Op (MultiStore (AuthLedger Evmd.moduleAccounts))) :=
    [.snapshot, .addBalance bob 3, .revertToSnapshot 0, .subBalance alice 7, .addBalance bob 7]
  have hsome : ((new ctx ⟨zeroHash, zeroHash, 0, 0⟩).run env ops).isSome = true := by decide +kernel
  obtain ⟨s, hrun⟩ := Option.isSome_iff_exists.mp hsome
  have hvalues : ((new ctx ⟨zeroHash, zeroHash, 0, 0⟩).run env ops).map (fun s =>
      (s.netChange env, s.journal.dirties.keys, (k.ak.getAccount s.ctx.store.sdk alice.bytes).isSome,
        k.spendableCoin s.ctx bob,
        (Result.run (s.commitAddress env) s.writeCache [alice, bob]).toOption.map fun ctx' =>
          k.spendableCoin ctx' bob)) = some (0, [alice, bob].toFinset, true, 0, some 7) := by
    decide +kernel
  rw [hrun] at hvalues
  simp only [Option.map_some, Option.some.injEq, Prod.mk.injEq] at hvalues
  obtain ⟨hnet, hkeys, haccount, hnothing, hcommitted⟩ := hvalues
  have hsorted := sortedDirties_eq (by decide +kernel) (by decide +kernel) hkeys
  obtain ⟨ctx', hloop, hbob⟩ := Option.map_eq_some_iff.mp hcommitted
  have hcommit : s.commit env = .ok ctx' := by
    unfold StateDB.commit StateDB.commitWithCtx
    rw [hsorted]
    exact toOption_eq_some_iff.mp hloop
  refine ⟨s, ctx', hrun, hsorted, hcommit, hbob, ?_⟩
  refine (commit_conserved_iff (Evmd.vmKeeper_wired _) (Evmd.backed_genesisChain _ _ ?_) ?_ (.new _) ?_
    hrun hnet hcommit).mpr ⟨?_, ?_⟩
  · decide +kernel
  · intro addr
    exact (Evmd.spendableCoin_genesisChain_le _ _ addr).trans_lt (by decide +kernel)
  · simp [ops, Op.Spares]
  · rw [hsorted]
    intro addr hmem hnone
    rcases List.mem_pair.mp hmem with rfl | rfl
    · rw [hnone] at haccount
      simp at haccount
    · exact hnothing
  · rw [hsorted]
    have houtside : ∀ addr ∈ [alice, bob], addr.bytes ≠ k.account.address := by decide +kernel
    exact fun addr hmem heq => absurd heq (houtside addr hmem)

/-- An address that was sent a fraction of a coin has no account in `x/auth`. A StateDB sees no balance
there, and `Commit` burns the coins that it did not see. -/
theorem commit_burns_unseen_coins :
    let k := Evmd.vmKeeper Evmd.sixDecimalsCoin
    let env := k.env fun _ => ""
    let alice := bytesToAddress [7]
    let bob := bytesToAddress [8]
    ∃ ctx s ctx', k.bank.sendCoins (Evmd.genesisChain [(alice.bytes, [⟨"utest", 5⟩])]) alice.bytes
        bob.bytes (k.bank.extendedCoins 1) = .ok ctx ∧
      Backed k.bank ctx ∧ k.Fits ctx ∧ k.spendableCoin ctx bob = 1 ∧
      (new ctx ⟨zeroHash, zeroHash, 0, 0⟩).run env [.subBalance alice 5, .addBalance bob 5] = some s ∧
      s.netChange env = 0 ∧ s.commit env = .ok ctx' ∧ k.spendableCoin ctx' bob = 5 ∧
      k.bank.circulatingValue ctx' = k.bank.circulatingValue ctx - 1 ∧ ¬ k.Conserved env s ctx' := by
  intro k env alice bob
  let genesis := Evmd.genesisChain [(alice.bytes, [⟨"utest", 5⟩])]
  let ops : List (Op (MultiStore (AuthLedger Evmd.moduleAccounts))) :=
    [.subBalance alice 5, .addBalance bob 5]
  have hvalues : ((k.bank.sendCoins genesis alice.bytes bob.bytes (k.bank.extendedCoins 1)).toOption.bind
      fun ctx => ((new ctx ⟨zeroHash, zeroHash, 0, 0⟩).run env ops).bind fun s =>
        (Result.run (s.commitAddress env) s.writeCache [alice, bob]).toOption.map fun ctx' =>
          (k.spendableCoin ctx bob, s.netChange env, s.journal.dirties.keys, k.spendableCoin ctx' bob,
            k.bank.circulatingValue ctx' - k.bank.circulatingValue ctx)) =
      some (1, 0, [alice, bob].toFinset, 5, -1) := by
    decide +kernel
  obtain ⟨ctx, hsend, hvalues⟩ := Option.bind_eq_some_iff.mp hvalues
  obtain ⟨s, hrun, hvalues⟩ := Option.bind_eq_some_iff.mp hvalues
  obtain ⟨ctx', hloop, hvalues⟩ := Option.map_eq_some_iff.mp hvalues
  simp only [Prod.mk.injEq] at hvalues
  obtain ⟨hbefore, hnet, hkeys, hafter, hburnt⟩ := hvalues
  have hsent := toOption_eq_some_iff.mp hsend
  have hbacked : Backed k.bank genesis := Evmd.backed_genesisChain _ _ (by decide +kernel)
  have hwired : k.Wired := Evmd.vmKeeper_wired _
  have hextended : k.bank.sendExtendedCoins genesis alice.bytes bob.bytes 1 = .ok ctx := by
    have hcall := (sendCoins_extendedCoins (by decide)).mp hsent
    rwa [if_pos (by decide)] at hcall
  have hflow := valueFlow_sendExtendedCoins hwired.bank hbacked (by decide +kernel) (by decide +kernel)
    (by decide) hextended
  have hfits : k.Fits ctx := by
    intro addr
    have hstart := Evmd.spendableCoin_genesisChain_le Evmd.sixDecimalsCoin
      [(alice.bytes, [⟨"utest", 5⟩])] addr
    have hgain : weightOf addr.bytes bob.bytes - weightOf addr.bytes alice.bytes ≤ 1 := by
      simp only [weightOf]
      split <;> split <;> decide
    have hbound : (Evmd.genesisLedger [(alice.bytes, [⟨"utest", 5⟩])]).supply "utest" *
        k.bank.conversionFactor + 1 < 2 ^ 256 := by decide +kernel
    calc k.spendableCoin ctx addr
      _ = k.spendableCoin genesis addr +
          (weightOf addr.bytes bob.bytes - weightOf addr.bytes alice.bytes) * 1 :=
        hflow.spendableCoin_eq hwired.bank (by decide +kernel) addr.bytes
      _ ≤ (Evmd.genesisLedger [(alice.bytes, [⟨"utest", 5⟩])]).supply "utest" *
          k.bank.conversionFactor + 1 := by rw [mul_one]; exact add_le_add hstart hgain
      _ < 2 ^ 256 := hbound
  refine ⟨ctx, s, ctx', hsent, hflow.backed, hfits, hbefore, hrun, hnet, ?_, hafter, by linarith, ?_⟩
  · unfold StateDB.commit StateDB.commitWithCtx
    rw [sortedDirties_eq (by decide +kernel) (by decide +kernel) hkeys]
    exact toOption_eq_some_iff.mp hloop
  · intro hconserved
    have hctx : s.ctx = ctx := ((Start.new _).since_run hrun).ctx_eq
    have hcirculating := hconserved.circulating
    rw [hctx] at hcirculating
    linarith

end Vm.Keeper

end CosmosEvm
