import CosmosEvm.Ante.Sufficient
import CosmosEvm.Vm.Creations

namespace CosmosEvm.Vm

open Result BankKeeper PreciseBank.Keeper Statedb

section Start

variable {σ : Type} {env : Env σ} {sound : σ → Prop} {start : Address → UInt64} {s s' : StateDB σ}
  {cfg : EvmConfig}

theorem Tracked.runs (htracked : Tracked env sound start s) (hruns : StateDB.Runs env Op.Plain s s') :
    Evolves env sound start s s' [] := by
  obtain ⟨ops, hops, hrun⟩ := hruns
  induction ops generalizing s with
  | nil =>
    cases hrun
    exact htracked.refl
  | cons op ops ih =>
    obtain ⟨middle, hexec, hrest⟩ := Option.bind_eq_some_iff.mp hrun
    have hfirst := htracked.plain (hops op List.mem_cons_self) hexec
    exact hfirst.trans (ih hfirst.tracked (fun other hother => hops other (List.mem_cons_of_mem op hother))
      hrest)

/-- A valid authorization raises the authority's nonce by one, and an invalid one nothing. -/
theorem applyAuthorization_evolves (htracked : Tracked env sound start s) (auth : SetCodeAuthorization) :
    Evolves env sound start s (applyAuthorization env cfg s auth) [] := by
  obtain ⟨hview, hvalid⟩ := validateAuthorization_spec env cfg s auth
  have hvalidated := htracked.runs (runs_validateAuthorization (fun _ => trivial) (fun _ => trivial)
    (fun _ => trivial) cfg auth (.refl env Op.Plain s))
  unfold applyAuthorization
  cases hvalidate : validateAuthorization env cfg s auth with
  | mk answer read =>
    rw [hvalidate] at hview hvalid hvalidated
    cases answer with
    | error err => exact hvalidated
    | ok authority =>
      obtain ⟨hnonce, hoverflow⟩ := hvalid authority rfl
      have hexist := hvalidated.trans (hvalidated.tracked.loads (exist_spec env read authority).2)
      have haccount := (exist_spec env read authority).2.view_eq
      simp only
      -- what the nonce is written to shows the nonce of the authorization
      have hwrite : ∀ {t : StateDB σ}, Evolves env sound start s t [] →
          (t.view env).account = (read.view env).account →
            Evolves env sound start s ((t.setNonce env authority (auth.nonce + 1)).setCode env authority
              (delegationCode auth)).2 [] := by
        intro t ht hsame
        have hcurrent : (t.view env).nonce authority = auth.nonce := by
          rw [← hnonce]
          unfold View.nonce
          rw [hsame, hview]
        have hle : (t.view env).nonce authority ≤ auth.nonce + 1 := by
          rw [hcurrent]
          exact UInt64.le_of_lt (lt_add_one_of_not_lt hoverflow)
        have hraised := ht.trans (ht.tracked.setNonce hle)
        exact hraised.trans (hraised.tracked.setCode authority (delegationCode auth))
      split
      · have hop : (Op.addRefund authExistsRefund : Op σ).Plain := trivial
        have hexec : (read.exist env authority).2.exec env (.addRefund authExistsRefund) =
            some ((read.exist env authority).2.addRefund authExistsRefund) := rfl
        refine hwrite (hexist.trans (hexist.tracked.plain hop hexec)) ?_
        rw [view_account_addRefund, haccount]
      · exact hwrite hexist (congrArg View.account haccount)

theorem callState_evolves (htracked : Tracked env sound start s) (msg : Message) (recipient : Address) :
    Evolves env sound start s (callState env cfg s msg recipient) [] := by
  have hfold : ∀ (auths : List SetCodeAuthorization) {s : StateDB σ}, Tracked env sound start s →
      Evolves env sound start s (auths.foldl (applyAuthorization env cfg) s) [] := by
    intro auths
    induction auths with
    | nil => exact fun htracked => htracked.refl
    | cons auth auths ih =>
      intro s htracked
      have hfirst : Evolves env sound start s (applyAuthorization env cfg s auth) [] :=
        applyAuthorization_evolves htracked auth
      exact hfirst.trans (ih hfirst.tracked)
  have happlied := hfold msg.setCodeAuthorizations htracked
  have hread := happlied.trans (happlied.tracked.loads (getCode_spec env _ recipient).2)
  simp only [callState]
  split
  · rename_i target _
    have hop : (Op.addAddressToAccessList target : Op σ).Plain := trivial
    exact hread.trans (hread.tracked.plain hop rfl)
  · exact hread

end Start

namespace Keeper

variable {S Acc : Type} {k : Keeper S Acc} {addressString : Address → String}
  {ctx ctx' : Ctx S} {addr other : Address} {obj : StateObject}

theorem storedNonce_eq (k : Keeper S Acc) (ctx : Ctx S) (addr : Address) :
    k.storedNonce ctx addr = ((k.ak.getAccount ctx.store.sdk addr.bytes).map k.ak.getSequence).getD 0 := by
  unfold storedNonce getAccount
  rw [Option.map_map]
  rfl

theorem storedNonce_setAccount (hwired : k.Wired) (hbacked : Backed k.bank ctx)
    {account : Statedb.Account} (hok : k.setAccount ctx addr account = .ok ctx') (hne : other ≠ addr) :
    k.storedNonce ctx' other = k.storedNonce ctx other := by
  obtain ⟨ctx₁, hrecord, hset⟩ := bind_eq_ok_iff.mp hok
  obtain ⟨_, hrecord', hrecorded⟩ := exists_setAccountRecord hwired ctx addr account
  obtain rfl := Except.ok.inj (hrecord'.symm.trans hrecord)
  have hflow := (valueFlow_setBalance hwired (hrecorded.coins.backed hbacked) hset).1
  rw [storedNonce_of_valueFlow hwired hflow, storedNonce_eq, storedNonce_eq,
    hrecorded.others _ fun heq => hne (FixedBytes.bytes_injective heq)]

theorem storedNonce_clearAccount (hwired : k.Wired) {acct : Acc}
    (haddress : k.ak.getAddress acct = addr.bytes) (hne : other ≠ addr) :
    k.storedNonce (k.clearAccount ctx addr acct) other = k.storedNonce ctx other := by
  obtain ⟨storage, hfold, -⟩ := foldl_deleteState ctx addr (storageKeys ctx.store addr)
  have hsdk : (k.clearAccount ctx addr acct).store.sdk = k.ak.removeAccount ctx.store.sdk acct := by
    unfold clearAccount
    simp only [hfold]
    rfl
  rw [storedNonce_eq, hsdk, hwired.auth.getAccount_removeAccount, haddress,
    if_neg fun heq => hne (FixedBytes.bytes_injective heq), ← storedNonce_eq]

theorem storedNonce_unlocked (hwired : k.Wired) {acct : Acc}
    (haddress : k.ak.getAddress acct = addr.bytes) (hne : other ≠ addr) :
    k.storedNonce (k.unlocked ctx acct) other = k.storedNonce ctx other := by
  rw [storedNonce_eq]
  change ((k.ak.getAccount (k.ak.setAccount ctx.store.sdk (k.ak.newBaseAccount acct)) other.bytes).map
    k.ak.getSequence).getD 0 = _
  rw [hwired.auth.getAccount_setAccount, hwired.auth.getAddress_newBaseAccount, haddress,
    if_neg fun heq => hne (FixedBytes.bytes_injective heq), ← storedNonce_eq]

theorem storedNonce_deleteAccount (hwired : k.Wired) (hbacked : Backed k.bank ctx)
    (hok : k.deleteAccount ctx addr = .ok ctx') :
    Backed k.bank ctx' ∧ k.storedNonce ctx' addr = 0 ∧
      ∀ {other}, other ≠ addr → k.storedNonce ctx' other = k.storedNonce ctx other := by
  cases hacct : k.ak.getAccount ctx.store.sdk addr.bytes with
  | none =>
    simp only [deleteAccount, hacct, Except.ok.injEq] at hok
    subst hok
    refine ⟨hbacked, ?_, fun _ => rfl⟩
    rw [storedNonce_eq, hacct]
    rfl
  | some acct =>
    have hcontract : isContract ctx.store addr = true := by
      by_contra hnot
      simp [deleteAccount, hacct, hnot] at hok
    have hdeleted := deleteAccount_spec hwired hbacked hacct hcontract hok
    have haddress := hwired.auth.getAddress_getAccount hacct
    refine ⟨hdeleted.backed, ?_, fun hne => ?_⟩
    · rw [storedNonce_eq, hdeleted.account]
      rfl
    · obtain ⟨ctx₁, hset, rfl⟩ := (deleteAccount_eq_ok_iff hacct hcontract).mp hok
      have hflow := (valueFlow_setBalance hwired ((sameCoins_unlocked hwired acct).backed hbacked) hset).1
      rw [storedNonce_clearAccount hwired haddress hne, storedNonce_of_valueFlow hwired hflow,
        storedNonce_unlocked hwired haddress hne]

theorem storedNonce_commitObject (hwired : k.Wired) (hbacked : Backed k.bank ctx)
    (hok : commitObject (k.env addressString) ctx addr obj = .ok ctx') :
    Backed k.bank ctx' ∧
      k.storedNonce ctx' addr = (if obj.selfDestructed then 0 else obj.account.nonce) ∧
      ∀ {other}, other ≠ addr → k.storedNonce ctx' other = k.storedNonce ctx other := by
  cases hdestructed : obj.selfDestructed with
  | true =>
    simp only [commitObject, hdestructed, if_true, mapError_eq_ok_iff] at hok
    exact storedNonce_deleteAccount hwired hbacked hok
  | false =>
    have hcommitted := commitObject_spec hwired hbacked hdestructed hok
    refine ⟨hcommitted.backed, ?_, fun {other} hne => ?_⟩
    · rw [storedNonce_eq, hcommitted.nonce]
      rfl
    · obtain ⟨ctx₁, hset, rfl⟩ := (commitObject_eq_ok_iff hdestructed).mp hok
      obtain ⟨storage, hstorage, -⟩ := commitStorage_spec k addressString ctx₁ addr obj
      rw [commitCode_eq] at hset
      have hbacked₀ := (sameCoins_withEvm
        { ctx.store.evm with code := codeAfter ctx.store.evm.code obj }).backed hbacked
      have hkept := storedNonce_setAccount hwired hbacked₀ hset hne
      rw [hstorage]
      exact hkept

theorem local_nonces (hwired : k.Wired) (s : StateDB (MultiStore S)) :
    Local (s.commitAddress (k.env addressString)) id (Backed k.bank)
      (fun _ addr => ∃ obj, s.stateObjects.lookup addr = some obj)
      (fun ctx ctx' addr => k.storedNonce ctx' addr = k.storedNonce ctx addr) where
  refl _ _ := rfl
  trans hfirst hsecond := hsecond.trans hfirst
  ready_of_same _ hready := hready
  invariant_step hbacked hready hok := by
    obtain ⟨obj, hlookup⟩ := hready
    simp only [StateDB.commitAddress, hlookup] at hok
    exact (storedNonce_commitObject hwired hbacked hok).1
  same_step hbacked hready hok other hne := by
    obtain ⟨obj, hlookup⟩ := hready
    simp only [StateDB.commitAddress, hlookup] at hok
    exact (storedNonce_commitObject hwired hbacked hok).2.2 hne

def Sound (k : Keeper S Acc) (store : MultiStore S) : Prop := Backed k.bank ⟨store, []⟩

theorem commitsNonces (hwired : k.Wired) (addressString : Address → String) :
    (k.env addressString).CommitsNonces k.Sound := by
  have hrun : ∀ {s : StateDB (MultiStore S)} {ctx ctx' : Ctx S}, s.Loaded →
      k.Sound ctx.store → s.commitWithCtx (k.env addressString) ctx = .ok ctx' →
        LocalRun (s.commitAddress (k.env addressString)) id (Backed k.bank)
          (fun _ addr => ∃ obj, s.stateObjects.lookup addr = some obj)
          (fun ctx ctx' addr => k.storedNonce ctx' addr = k.storedNonce ctx addr) ctx
          s.journal.sortedDirties ctx' := by
    intro s ctx ctx' hloaded hbacked hcommit
    refine (local_nonces hwired s).run ?_ (fun addr hmem => ?_) (PreciseBank.Keeper.Backed.of_store_eq hbacked rfl) hcommit
    · rw [List.map_id]
      exact Finset.sort_nodup _ _
    · exact Finmap.mem_iff.mp (hloaded addr (mem_sortedDirties.mp hmem))
  refine ⟨fun hloaded hbacked hcommit => ?_, fun {s _ _} hloaded hbacked hcommit {addr} hclean => ?_,
    fun {s _ _} hloaded hbacked hcommit {addr} hdirty => ?_⟩
  · exact (hrun hloaded hbacked hcommit).invariant_end.of_store_eq rfl
  · refine (hrun hloaded hbacked hcommit).same_elsewhere addr ?_
    rw [List.map_id, mem_sortedDirties]
    exact hclean
  · obtain ⟨before, after, hbefore, ⟨obj, hlookup⟩, hexec, -, hafter⟩ :=
      (hrun hloaded hbacked hcommit).called addr (mem_sortedDirties.mpr hdirty)
    simp only [StateDB.commitAddress, hlookup] at hexec
    have hstored := (storedNonce_commitObject hwired hbefore hexec).2.1
    have hagrees := agrees_of_account (view_account_of_lookup (k.env addressString) hlookup)
    rw [hagrees.nonce, hagrees.destructed] at hstored
    exact hafter.trans hstored

variable {start : Address → UInt64} {s s' : StateDB (MultiStore S)}

theorem tracked_of_start (hbacked : Backed k.bank ctx) (hle : ∀ addr, start addr ≤ k.storedNonce ctx addr)
    (hstart : Start ctx s) : Tracked (k.env addressString) k.Sound start s := by
  have hctx := hstart.spec.2.2.2.2.2.2
  refine ⟨hstart.since _, ?_⟩
  constructor
  all_goals rw [hstart.profile_eq]
  · exact fun _ => hctx ▸ rfl
  · exact fun _ => hctx ▸ rfl
  · exact hbacked.of_store_eq rfl
  · exact hle
  · intro addr hnew
    cases hnew
  · intro addr hdestructed
    cases hdestructed

theorem storedNonce_commit (hwired : k.Wired) (htracked : Tracked (k.env addressString) k.Sound start s)
    (hcommit : s.commit (k.env addressString) = .ok ctx') :
    Backed k.bank ctx' ∧ ∀ addr, k.storedNonce ctx' addr = (s.view (k.env addressString)).nonce addr ∨
      k.storedNonce ctx' addr = 0 ∧ start addr = 0 := by
  have hcommits := commitsNonces hwired addressString
  have htracks := htracked.tracks
  have hsound : k.Sound s.writeCache.store := by
    rw [store_writeCache (k.env addressString)]
    exact htracks.sound_cache
  refine ⟨PreciseBank.Keeper.Backed.of_store_eq
    (hcommits.sound_commit htracked.since.loaded hsound hcommit) rfl, fun addr => ?_⟩
  by_cases hdirty : addr ∈ s.journal.dirties
  · have hstored := hcommits.dirty htracked.since.loaded hsound hcommit hdirty
    split at hstored
    · rename_i hdestructed
      exact .inr ⟨hstored, htracks.start_eq_zero (htracks.newContract hdestructed)⟩
    · exact .inl hstored
  · have hstored := hcommits.clean htracked.since.loaded hsound hcommit hdirty
    rw [store_writeCache (k.env addressString)] at hstored
    exact .inl (hstored.trans ((htracks.cached hdirty).trans (htracks.clean hdirty).symm))

end Keeper

end CosmosEvm.Vm
