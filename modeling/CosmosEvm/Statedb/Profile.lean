import CosmosEvm.Statedb.Revert
import CosmosEvm.Statedb.Writes

namespace CosmosEvm.Statedb

variable {σ : Type}

structure Profile (σ : Type) where
  nonce : Address → UInt64
  newContract : Address → Bool
  destructed : Address → Bool
  cache : SnapshotStack σ

def View.profile (v : View σ) : Profile σ where
  nonce := v.nonce
  newContract addr := ((v.account addr).map AccountView.newContract).getD false
  destructed addr := ((v.account addr).map AccountView.selfDestructed).getD false
  cache := v.cache

def Profile.put (p : Profile σ) (addr : Address) (obj : StateObject) : Profile σ where
  nonce := Function.update p.nonce addr obj.account.nonce
  newContract := Function.update p.newContract addr obj.newContract
  destructed := Function.update p.destructed addr obj.selfDestructed
  cache := p.cache

structure Profile.Agrees (p : Profile σ) (addr : Address) (obj : StateObject) : Prop where
  nonce : obj.account.nonce = p.nonce addr
  newContract : obj.newContract = p.newContract addr
  destructed : obj.selfDestructed = p.destructed addr

theorem Profile.Agrees.put_eq {p : Profile σ} {addr : Address} {obj : StateObject}
    (hagrees : p.Agrees addr obj) : p.put addr obj = p := by
  unfold Profile.put
  rw [hagrees.nonce, hagrees.newContract, hagrees.destructed, Function.update_eq_self,
    Function.update_eq_self, Function.update_eq_self]

structure Quiet (v v' : View σ) : Prop where
  profile_eq : v'.profile = v.profile
  dirties : ∀ {addr}, addr ∈ v.dirties → addr ∈ v'.dirties

theorem Quiet.refl (v : View σ) : Quiet v v := ⟨rfl, id⟩

theorem Quiet.trans {v v' v'' : View σ} (hfirst : Quiet v v') (hsecond : Quiet v' v'') : Quiet v v'' :=
  ⟨hsecond.profile_eq.trans hfirst.profile_eq, fun hmem => hsecond.dirties (hfirst.dirties hmem)⟩

variable {env : Env σ} {s s' : StateDB σ} {addr : Address}

theorem Loads.quiet (hloads : Loads env s s') : Quiet (s.view env) (s'.view env) := by
  rw [hloads.view_eq]
  exact .refl _

theorem profile_setStateObject (obj : StateObject) :
    ((s.setStateObject addr obj).view env).profile = ((s.view env).profile).put addr obj := by
  have hmap : ∀ {α : Type} (read : AccountView → α) (default : α),
      (fun other => ((Function.update (s.view env).account addr
        (some (obj.view env s.ctx.store addr)) other).map read).getD default) =
      Function.update (fun other => (((s.view env).account other).map read).getD default) addr
        (read (obj.view env s.ctx.store addr)) := by
    intro α read default
    funext other
    by_cases heq : other = addr
    · rw [heq, Function.update_self, Function.update_self]
      rfl
    · rw [Function.update_of_ne heq, Function.update_of_ne heq]
  rw [view_setStateObject]
  unfold View.profile View.setAccount Profile.put
  congr 1
  · exact hmap AccountView.nonce 0
  · exact hmap AccountView.newContract false
  · exact hmap AccountView.selfDestructed false

theorem profile_journaled (entry : JournalEntry) (obj : StateObject) :
    ((s.journaled entry addr obj).view env).profile = ((s.view env).profile).put addr obj :=
  profile_setStateObject (s := s.append entry) obj

theorem mem_dirties_journaled {entry : JournalEntry} {obj : StateObject} {other : Address} :
    other ∈ ((s.journaled entry addr obj).view env).dirties ↔
      entry.dirtied = some other ∨ other ∈ (s.view env).dirties :=
  Dirties.mem_increment

theorem quiet_journaled {entry : JournalEntry} {obj : StateObject}
    (hagrees : ((s.view env).profile).Agrees addr obj) :
    Quiet (s.view env) ((s.journaled entry addr obj).view env) where
  profile_eq := by rw [profile_journaled, hagrees.put_eq]
  dirties hmem := mem_dirties_journaled.mpr (.inr hmem)

theorem quiet_setStateObject {obj : StateObject} (hagrees : ((s.view env).profile).Agrees addr obj) :
    Quiet (s.view env) ((s.setStateObject addr obj).view env) where
  profile_eq := by rw [profile_setStateObject, hagrees.put_eq]
  dirties hmem := hmem

theorem agrees_of_shown {obj : StateObject} {shown : Option AccountView}
    (haccount : (s.view env).account addr = shown) (hnonce : obj.account.nonce = (shown.map (·.nonce)).getD 0)
    (hcreated : obj.newContract = (shown.map AccountView.newContract).getD false)
    (hdestructed : obj.selfDestructed = (shown.map AccountView.selfDestructed).getD false) :
    ((s.view env).profile).Agrees addr obj := by
  subst haccount
  exact ⟨hnonce, hcreated, hdestructed⟩

theorem agrees_of_account {obj : StateObject} {store : σ}
    (haccount : (s.view env).account addr = some (obj.view env store addr)) :
    ((s.view env).profile).Agrees addr obj :=
  agrees_of_shown haccount rfl rfl rfl

theorem agrees_of_none (haccount : (s.view env).account addr = none) :
    ((s.view env).profile).Agrees addr (newObject env.emptyAccount) :=
  agrees_of_shown haccount rfl rfl rfl

theorem getStateObject_quiet (env : Env σ) (s : StateDB σ) (addr : Address) :
    (∃ s', s.getStateObject env addr = (none, s') ∧ s'.view env = s.view env ∧
      (s.view env).account addr = none) ∨
    ∃ obj s', s.getStateObject env addr = (some obj, s') ∧ s'.view env = s.view env ∧
      ((s.view env).profile).Agrees addr obj := by
  rcases getStateObject_cases env s addr with ⟨s', hget, haccount, hloads⟩ |
    ⟨obj, s', hget, hloads, haccount, _⟩
  · exact .inl ⟨s', hget, hloads.view_eq, haccount⟩
  · exact .inr ⟨obj, s', hget, hloads.view_eq, agrees_of_account haccount⟩

theorem getOrNewStateObject_quiet (env : Env σ) (s : StateDB σ) (addr : Address) :
    ∃ obj s', s.getOrNewStateObject env addr = (obj, s') ∧ Quiet (s.view env) (s'.view env) ∧
      ((s'.view env).profile).Agrees addr obj := by
  unfold StateDB.getOrNewStateObject StateDB.createObject
  rcases getStateObject_quiet env s addr with ⟨s', hget, hview, haccount⟩ | ⟨obj, s', hget, hview, hagrees⟩
  · rw [← hview] at haccount
    have hagain : s'.getStateObject env addr = (none, s') := by
      rcases getStateObject_cases env s' addr with ⟨s'', hget', -, -⟩ | ⟨obj, s'', -, -, hsome, -⟩
      · rw [hget']
        unfold StateDB.getStateObject at hget'
        split at hget'
        · cases hget'
        · split at hget' <;> cases hget'
          rfl
      · rw [haccount] at hsome
        cases hsome
    have hfresh := agrees_of_none haccount
    have hquiet : Quiet (s'.view env) ((s'.journaled (.createObjectChange addr) addr
        (newObject env.emptyAccount)).view env) := quiet_journaled hfresh
    simp only [hget, hagain]
    refine ⟨_, _, rfl, hview ▸ hquiet, ?_⟩
    rw [hquiet.profile_eq]
    exact hfresh
  · simp only [hget]
    refine ⟨obj, s', rfl, hview ▸ .refl _, ?_⟩
    rw [hview]
    exact hagrees

/-- The operation changes no nonce and no code, and creates and destructs no contract. -/
def Op.Plain : Op σ → Prop
  | .addBalance _ _ | .subBalance _ _ | .setState _ _ _ | .setTransientState _ _ _ | .addLog _ |
    .addRefund _ | .subRefund _ | .addAddressToAccessList _ | .addSlotToAccessList _ _ | .exist _ |
    .getCode _ | .getState _ _ | .getCommittedState _ _ => True
  | _ => False

theorem Op.Plain.simple {op : Op σ} (hop : op.Plain) : op.Simple := by
  cases op <;> trivial

theorem Profile.Agrees.of_view {p : Profile σ} {obj obj' : StateObject} {store : σ}
    (hagrees : p.Agrees addr obj) (hview : obj'.view env store addr = obj.view env store addr) :
    p.Agrees addr obj' where
  nonce := (congrArg AccountView.nonce hview).trans hagrees.nonce
  newContract := (congrArg AccountView.newContract hview).trans hagrees.newContract
  destructed := (congrArg AccountView.selfDestructed hview).trans hagrees.destructed

theorem quiet_setBalance {obj : StateObject} (hagrees : ((s.view env).profile).Agrees addr obj)
    (amount : BitVec 256) : Quiet (s.view env) ((s.setBalance addr obj amount).2.view env) :=
  quiet_journaled ⟨hagrees.nonce, hagrees.newContract, hagrees.destructed⟩

theorem quiet_setState (env : Env σ) (s : StateDB σ) (addr : Address) (key value : Hash) :
    Quiet (s.view env) ((s.setState env addr key value).2.view env) := by
  obtain ⟨obj, s', hget, hquiet, hagrees⟩ := getOrNewStateObject_quiet env s addr
  have hread := hagrees.of_view (StateObject.getState_spec env s'.ctx.store addr obj key).2
  unfold StateDB.setState
  simp only [hget]
  split
  · exact hquiet.trans (quiet_setStateObject hread)
  · exact hquiet.trans (quiet_journaled ⟨hread.nonce, hread.newContract, hread.destructed⟩)

theorem quiet_setCode (env : Env σ) (s : StateDB σ) (addr : Address) (code : Option Bytes) :
    Quiet (s.view env) ((s.setCode env addr code).2.view env) := by
  obtain ⟨obj, s', hget, hquiet, hagrees⟩ := getOrNewStateObject_quiet env s addr
  have hread := hagrees.of_view (StateObject.view_loadCode env s'.ctx.store addr obj)
  unfold StateDB.setCode
  simp only [hget]
  exact hquiet.trans (quiet_journaled ⟨hread.nonce, hread.newContract, hread.destructed⟩)

theorem SameAccounts.quiet (hsame : SameAccounts s s') : Quiet (s.view env) (s'.view env) := by
  have haccount : (s'.view env).account = (s.view env).account := by
    funext addr
    simp only [StateDB.view, hsame.objects_eq, hsame.ctx_eq]
  have hcache : (s'.view env).cache = (s.view env).cache := by
    simp only [StateDB.view, StateDB.getCacheContext, hsame.cache_eq, hsame.ctx_eq]
  constructor
  · unfold View.profile View.nonce
    rw [haccount, hcache]
  · intro addr hmem
    change addr ∈ s'.journal.dirties
    rw [hsame.dirties_eq]
    exact hmem

theorem quiet_of_plain {op : Op σ} (hop : op.Plain) (hexec : s.exec env op = some s') :
    Quiet (s.view env) (s'.view env) := by
  cases op with
  | addBalance addr amount =>
    cases hexec
    obtain ⟨obj, s', hget, hquiet, hagrees⟩ := getOrNewStateObject_quiet env s addr
    simp only [StateDB.addBalance, hget]
    split
    · exact hquiet
    · exact hquiet.trans (quiet_setBalance hagrees _)
  | subBalance addr amount =>
    cases hexec
    obtain ⟨obj, s', hget, hquiet, hagrees⟩ := getOrNewStateObject_quiet env s addr
    simp only [StateDB.subBalance, hget]
    split
    · exact hquiet
    · exact hquiet.trans (quiet_setBalance hagrees _)
  | setState addr key value =>
    cases hexec
    exact quiet_setState env s addr key value
  | exist addr =>
    cases hexec
    exact (exist_spec env s addr).2.quiet
  | getCode addr =>
    cases hexec
    exact (getCode_spec env s addr).2.quiet
  | getState addr key =>
    cases hexec
    exact (getState_spec env s addr key).2.quiet
  | getCommittedState addr key =>
    cases hexec
    exact (getCommittedState_spec env s addr key).2.quiet
  | setTransientState _ _ _ | addLog _ | addRefund _ | subRefund _ | addAddressToAccessList _
  | addSlotToAccessList _ _ =>
    refine SameAccounts.quiet (sameAccounts_of_auxiliary ?_ hexec)
    trivial
  | _ => exact hop.elim

theorem quiet_createAccount (haccount : (s.view env).account addr = none) :
    Quiet (s.view env) ((s.createAccount env addr).view env) := by
  rcases getStateObject_quiet env s addr with ⟨s', hget, hview, -⟩ | ⟨obj, s', hget, hview, -⟩
  · unfold StateDB.createAccount StateDB.createObject
    simp only [hget]
    rw [← hview] at haccount ⊢
    exact quiet_journaled (agrees_of_none haccount)
  · have hsome := (getStateObject_spec env s addr).2.1
    rw [hget, haccount] at hsome
    cases hsome

theorem profile_setNonce (env : Env σ) (s : StateDB σ) (addr : Address) (nonce : UInt64) :
    ((s.setNonce env addr nonce).view env).profile =
      { (s.view env).profile with nonce := Function.update (s.view env).profile.nonce addr nonce } := by
  obtain ⟨obj, s', hget, hquiet, hagrees⟩ := getOrNewStateObject_quiet env s addr
  unfold StateDB.setNonce
  simp only [hget]
  rw [profile_journaled, hquiet.profile_eq]
  rw [hquiet.profile_eq] at hagrees
  unfold Profile.put
  congr 1
  · exact Function.update_eq_self_iff.mpr hagrees.newContract
  · exact Function.update_eq_self_iff.mpr hagrees.destructed

theorem mem_dirties_setNonce (env : Env σ) (s : StateDB σ) (addr : Address) (nonce : UInt64)
    {other : Address} (hmem : other = addr ∨ other ∈ (s.view env).dirties) :
    other ∈ ((s.setNonce env addr nonce).view env).dirties := by
  obtain ⟨obj, s', hget, hquiet, -⟩ := getOrNewStateObject_quiet env s addr
  unfold StateDB.setNonce
  simp only [hget]
  refine mem_dirties_journaled.mpr ?_
  rcases hmem with rfl | hmem
  · exact .inl rfl
  · exact .inr (hquiet.dirties hmem)

theorem profile_createContract (hcreate : s.createContract env addr = some s') :
    (s'.view env).profile = { (s.view env).profile with
        newContract := Function.update (s.view env).profile.newContract addr true } ∧
      ∀ {other}, other ∈ (s.view env).dirties → other ∈ (s'.view env).dirties := by
  unfold StateDB.createContract at hcreate
  rcases getStateObject_quiet env s addr with ⟨loaded, hget, -⟩ | ⟨obj, loaded, hget, hview, hagrees⟩
  · simp [hget] at hcreate
  · simp only [hget] at hcreate
    split at hcreate
    · rename_i hnew
      cases hcreate
      rw [hview]
      refine ⟨?_, id⟩
      rw [Function.update_eq_self_iff.mpr (hnew.symm.trans hagrees.newContract)]
    · cases hcreate
      refine ⟨?_, fun hmem => mem_dirties_journaled.mpr (.inr (hview ▸ hmem))⟩
      rw [profile_journaled, hview]
      unfold Profile.put
      congr 1
      · exact Function.update_eq_self_iff.mpr hagrees.nonce
      · exact Function.update_eq_self_iff.mpr hagrees.destructed

theorem profile_selfDestruct6780 (env : Env σ) (s : StateDB σ) (addr : Address) :
    (∃ destructed, ((s.selfDestruct6780 env addr).2.2.view env).profile =
        { (s.view env).profile with destructed } ∧
      ∀ other, destructed other = true →
        (s.view env).profile.destructed other = true ∨ (s.view env).profile.newContract other = true) ∧
      ∀ {other}, other ∈ (s.view env).dirties →
        other ∈ ((s.selfDestruct6780 env addr).2.2.view env).dirties := by
  unfold StateDB.selfDestruct6780
  rcases getStateObject_quiet env s addr with ⟨loaded, hget, hview, -⟩ | ⟨obj, loaded, hget, hview, hagrees⟩
  · simp only [hget, hview]
    exact ⟨⟨_, rfl, fun other hother => .inl hother⟩, id⟩
  simp only [hget]
  split
  swap
  · simp only [hview]
    exact ⟨⟨_, rfl, fun other hother => .inl hother⟩, id⟩
  rename_i hnew
  unfold StateDB.selfDestruct
  rcases getStateObject_quiet env loaded addr with ⟨_, hget', hview', -⟩ | ⟨obj', _, hget', hview', hagrees'⟩
  · simp only [hget', hview', hview]
    exact ⟨⟨_, rfl, fun other hother => .inl hother⟩, id⟩
  simp only [hget']
  rw [hview] at hagrees'
  refine ⟨⟨Function.update (s.view env).profile.destructed addr true, ?_, fun other hother => ?_⟩,
    fun hmem => mem_dirties_journaled.mpr (.inr (hview'.trans hview ▸ hmem))⟩
  · rw [profile_journaled, hview', hview]
    unfold Profile.put
    congr 1
    · exact Function.update_eq_self_iff.mpr hagrees'.nonce
    · exact Function.update_eq_self_iff.mpr hagrees'.newContract
  · by_cases heq : other = addr
    · rw [heq, ← hagrees.newContract]
      exact .inr hnew
    · rw [Function.update_of_ne heq] at hother
      exact .inl hother

theorem store_writeCache (env : Env σ) (s : StateDB σ) :
    s.writeCache.store = (s.view env).cache.current := by
  unfold StateDB.writeCache
  simp only [StateDB.view, StateDB.getCacheContext]
  cases s.cache <;> rfl

def Env.storedNonce (env : Env σ) (store : σ) (addr : Address) : UInt64 :=
  ((env.keeper.getAccount store addr).map (·.nonce)).getD 0

theorem Start.profile_eq {ctx : Context σ} (env : Env σ) (hstart : Start ctx s) :
    (s.view env).profile = ⟨env.storedNonce ctx.store, fun _ => false, fun _ => false, ⟨ctx.store, []⟩⟩ := by
  obtain ⟨-, -, hobjects, -, -, hcache, rfl⟩ := hstart.spec
  have haccount : ∀ addr, (s.view env).account addr = env.loadedView s.ctx.store addr := fun addr =>
    view_account_of_not_loaded env (by rw [hobjects, Finmap.lookup_empty])
  unfold View.profile View.nonce
  simp only [haccount, Env.loadedView, Option.map_map]
  congr 1
  · funext addr
    cases env.keeper.getAccount s.ctx.store addr <;> rfl
  · funext addr
    cases env.keeper.getAccount s.ctx.store addr <;> rfl
  · simp [StateDB.view, StateDB.getCacheContext, hcache]

structure Env.CommitsNonces (env : Env σ) (sound : σ → Prop) : Prop where
  sound_commit : ∀ {s : StateDB σ} {ctx ctx' : Context σ}, s.Loaded → sound ctx.store →
    s.commitWithCtx env ctx = .ok ctx' → sound ctx'.store
  clean : ∀ {s : StateDB σ} {ctx ctx' : Context σ}, s.Loaded → sound ctx.store →
    s.commitWithCtx env ctx = .ok ctx' → ∀ {addr}, addr ∉ s.journal.dirties →
      env.storedNonce ctx'.store addr = env.storedNonce ctx.store addr
  dirty : ∀ {s : StateDB σ} {ctx ctx' : Context σ}, s.Loaded → sound ctx.store →
    s.commitWithCtx env ctx = .ok ctx' → ∀ {addr}, addr ∈ s.journal.dirties →
      env.storedNonce ctx'.store addr =
        if (s.view env).profile.destructed addr then 0 else (s.view env).nonce addr

end CosmosEvm.Statedb
