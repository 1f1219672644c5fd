import CosmosEvm.Statedb.Written

namespace CosmosEvm.Statedb

variable {σ : Type}

@[ext]
structure Values where
  slot : Address → Hash → Hash
  nonce : Address → UInt64

def Env.values (env : Env σ) (store : σ) : Values where
  slot := env.keeper.getState store
  nonce := env.storedNonce store

/-- What is left of earlier values by a call that found `before` and left `after`. -/
def Values.overwrite (values before after : Values) : Values where
  slot addr key := if before.slot addr key = after.slot addr key then values.slot addr key
    else after.slot addr key
  nonce addr := if before.nonce addr = after.nonce addr then values.nonce addr else after.nonce addr

theorem Values.overwrite_self (values after : Values) : values.overwrite values after = after := by
  refine Values.ext (funext fun addr => funext fun key => ?_) (funext fun addr => ?_)
  · exact ite_eq_right_iff.mpr id
  · exact ite_eq_right_iff.mpr id

structure Region where
  slots : Set (Address × Hash)
  nonces : Set Address

instance : EmptyCollection Region := ⟨⟨∅, ∅⟩⟩

instance : Union Region := ⟨fun left right => ⟨left.slots ∪ right.slots, left.nonces ∪ right.nonces⟩⟩

structure Values.SameOutside (region : Region) (before after : Values) : Prop where
  slot : ∀ {addr key}, (addr, key) ∉ region.slots → after.slot addr key = before.slot addr key
  nonce : ∀ {addr}, addr ∉ region.nonces → after.nonce addr = before.nonce addr

structure Body (env : Env σ) (sound : σ → Prop) where
  run : Context σ → Except Err (Context σ)
  region : Region
  sound_run : ∀ {ctx ctx'}, sound ctx.store → run ctx = .ok ctx' → sound ctx'.store
  within : ∀ {ctx ctx'}, sound ctx.store → run ctx = .ok ctx' →
    (env.values ctx.store).SameOutside region (env.values ctx'.store)

/-- What a transaction does between its start and `Commit`, without reverts. The balances are those that
the `BalanceHandler` of a precompile changes after the call. -/
inductive Action (env : Env σ) (sound : σ → Prop) where
  | setState (addr : Address) (key value : Hash)
  | setNonce (addr : Address) (nonce : UInt64)
  | setCode (addr : Address) (code : Option Bytes)
  | addBalance (addr : Address) (amount : BitVec 256)
  | subBalance (addr : Address) (amount : BitVec 256)
  | getState (addr : Address) (key : Hash)
  | getNonce (addr : Address)
  | call (body : Body env sound)

inductive Answer where
  | done
  | slot (value : Hash)
  | nonce (value : UInt64)
  deriving DecidableEq

variable {env : Env σ} {sound : σ → Prop}

namespace Action

/-- What the StateDB does. A precompile call that fails is reverted, so that there is no way on from it. -/
def exec (s : StateDB σ) : Action env sound → Option (Answer × StateDB σ)
  | .setState addr key value => some (.done, (s.setState env addr key value).2)
  | .setNonce addr nonce => some (.done, s.setNonce env addr nonce)
  | .setCode addr code => some (.done, (s.setCode env addr code).2)
  | .addBalance addr amount => some (.done, (s.addBalance env addr amount).2)
  | .subBalance addr amount => some (.done, (s.subBalance env addr amount).2)
  | .getState addr key => some (.slot (s.getState env addr key).1, (s.getState env addr key).2)
  | .getNonce addr => some (.nonce (s.getNonce env addr).1, (s.getNonce env addr).2)
  | .call body =>
    match s.runPrecompile env body.run with
    | (none, s) => some (.done, s)
    | (some _, _) => none

def answer (values : Values) : Action env sound → Answer
  | .getState addr key => .slot (values.slot addr key)
  | .getNonce addr => .nonce (values.nonce addr)
  | _ => .done

/-- The values last written after the action. Those of a call are what its body has changed in `cacheCtx`. -/
def write (s : StateDB σ) (values : Values) : Action env sound → Values
  | .setState addr key value =>
    { values with slot := setSlot values.slot addr key value }
  | .setNonce addr nonce => { values with nonce := Function.update values.nonce addr nonce }
  | .setCode _ _ | .addBalance _ _ | .subBalance _ _ | .getState _ _ | .getNonce _ => values
  | .call body =>
    match s.commitWithCtx env s.cacheCtx with
    | .error _ => values
    | .ok before =>
      match body.run before with
      | .error _ => values
      | .ok after => values.overwrite (env.values before.store) (env.values after.store)

/-- The action keeps out of the way of precompiles: it writes nothing in the region that is reserved for
them, and reads nothing that they have changed so far. Writing to an account counts for its nonce. -/
def Allowed (reserved changed : Region) : Action env sound → Prop
  | .setState addr key _ => (addr, key) ∉ reserved.slots ∧ addr ∉ reserved.nonces
  | .setNonce addr _ | .setCode addr _ | .addBalance addr _ | .subBalance addr _ => addr ∉ reserved.nonces
  | .getState addr key => (addr, key) ∉ changed.slots
  | .getNonce addr => addr ∉ changed.nonces
  | .call body => body.region.slots ⊆ reserved.slots ∧ body.region.nonces ⊆ reserved.nonces

def changes (changed : Region) : Action env sound → Region
  | .call body => changed ∪ body.region
  | _ => changed

end Action

def StateDB.perform (s : StateDB σ) : List (Action env sound) → Option (List Answer × StateDB σ)
  | [] => some ([], s)
  | action :: actions => (action.exec s).bind fun (answer, s) =>
    (perform s actions).map fun (answers, s) => (answer :: answers, s)

/-- The answers that the values last written give over a run, and those values at its end. -/
def StateDB.expected (s : StateDB σ) (values : Values) : List (Action env sound) → List Answer × Values
  | [] => ([], values)
  | action :: actions =>
    let rest := match action.exec s with
      | none => ([], values)
      | some (_, s') => expected s' (action.write s values) actions
    (action.answer values :: rest.1, rest.2)

/-- Every read of a run returns the value last written, and `Commit` stores the values last written. -/
def Kept (s : StateDB σ) (values : Values) (actions : List (Action env sound)) : Prop :=
  ∀ answers s', s.perform actions = some (answers, s') →
    answers = (s.expected values actions).1 ∧
      ∀ ctx, s'.commit env = .ok ctx → env.values ctx.store = (s.expected values actions).2

def Guarded (reserved changed : Region) : List (Action env sound) → Prop
  | [] => True
  | action :: actions => action.Allowed reserved changed ∧ Guarded reserved (action.changes changed) actions

/-- What `commitWithCtx` does to the slots, when nothing is destructed. -/
def Env.CommitsSlots (env : Env σ) (sound : σ → Prop) : Prop :=
  ∀ {s : StateDB σ} {ctx ctx' : Context σ}, s.Loaded →
    (∀ addr, (s.view env).profile.destructed addr = false) → sound ctx.store →
    s.commitWithCtx env ctx = .ok ctx' → ∀ addr key,
      env.keeper.getState ctx'.store addr key =
        if addr ∈ s.journal.dirties then (s.written addr key).getD (env.keeper.getState ctx.store addr key)
        else env.keeper.getState ctx.store addr key

structure Synced (env : Env σ) (sound : σ → Prop) (reserved changed : Region) (s : StateDB σ)
    (values : Values) : Prop where
  since : Since env s s
  housed : env.Housed s.ctx.store
  sound_cache : sound (s.view env).profile.cache.current
  spared : ∀ addr, (s.view env).profile.destructed addr = false
  slot_shown : ∀ {addr key}, (addr, key) ∉ changed.slots → s.slot env addr key = values.slot addr key
  slot_cached : ∀ addr key, (s.written addr key).getD
    (env.keeper.getState (s.view env).profile.cache.current addr key) = values.slot addr key
  slot_reserved : ∀ {addr key}, (addr, key) ∈ reserved.slots → s.written addr key = none
  dirty_of_written : ∀ {addr key}, s.written addr key ≠ none → addr ∈ s.journal.dirties
  nonce_shown : ∀ {addr}, addr ∉ changed.nonces → (s.view env).profile.nonce addr = values.nonce addr
  nonce_cached : ∀ {addr}, addr ∉ s.journal.dirties →
    env.storedNonce (s.view env).profile.cache.current addr = values.nonce addr
  nonce_reserved : ∀ {addr}, addr ∈ reserved.nonces → addr ∉ s.journal.dirties
  slots_subset : changed.slots ⊆ reserved.slots
  nonces_subset : changed.nonces ⊆ reserved.nonces

variable {reserved changed : Region} {s s' : StateDB σ} {values : Values} {addr : Address}

theorem Synced.commit (hnonces : env.CommitsNonces sound) (hslots : env.CommitsSlots sound)
    (hsynced : Synced env sound reserved changed s values) {ctx ctx' : Context σ}
    (hcache : ctx.store = (s.view env).profile.cache.current) (hcommit : s.commitWithCtx env ctx = .ok ctx') :
    sound ctx'.store ∧ env.values ctx'.store = values := by
  have hsound : sound ctx.store := hcache ▸ hsynced.sound_cache
  have hloaded := hsynced.since.loaded
  refine ⟨hnonces.sound_commit hloaded hsound hcommit, ?_⟩
  refine Values.ext (funext fun addr => funext fun key => ?_) (funext fun addr => ?_)
  · have hcached := hsynced.slot_cached addr key
    rw [← hcache] at hcached
    change env.keeper.getState ctx'.store addr key = _
    rw [hslots hloaded hsynced.spared hsound hcommit]
    split
    · exact hcached
    · rename_i hclean
      have hunwritten : s.written addr key = none := by
        by_contra hwritten
        exact hclean (hsynced.dirty_of_written hwritten)
      rw [hunwritten] at hcached
      exact hcached
  · change env.storedNonce ctx'.store addr = _
    by_cases hdirty : addr ∈ s.journal.dirties
    · have hreserved : addr ∉ changed.nonces := fun hmem =>
        hsynced.nonce_reserved (hsynced.nonces_subset hmem) hdirty
      rw [hnonces.dirty hloaded hsound hcommit hdirty, hsynced.spared addr, if_neg (by decide)]
      exact hsynced.nonce_shown hreserved
    · rw [hnonces.clean hloaded hsound hcommit hdirty, hcache]
      exact hsynced.nonce_cached hdirty

section

variable (hsynced : Synced env sound reserved changed s values)

include hsynced

theorem Synced.touch (hsteps : Steps env s s') (htouches : Touches env addr s s')
    (hgrow : ∀ {other}, other ∈ s.journal.dirties → other ∈ s'.journal.dirties)
    (haddr : addr ∈ reserved.nonces → addr ∉ s'.journal.dirties) {nonce nonce' : Address → UInt64}
    (hprofile : (s'.view env).profile = { (s.view env).profile with nonce })
    (hshown : ∀ {other}, other ∉ changed.nonces → nonce other = nonce' other)
    (hcached : ∀ {other}, other ∉ s'.journal.dirties → values.nonce other = nonce' other) :
    Synced env sound reserved changed s' { values with nonce := nonce' } where
  since := (hsynced.since.steps hsteps).self
  housed := htouches.ctx_eq ▸ hsynced.housed
  sound_cache := by
    rw [hprofile]
    exact hsynced.sound_cache
  spared other := by
    rw [hprofile]
    exact hsynced.spared other
  slot_shown hmem := by
    rw [htouches.slot_eq]
    exact hsynced.slot_shown hmem
  slot_cached other key := by
    rw [hprofile, htouches.written_eq]
    exact hsynced.slot_cached other key
  slot_reserved hmem := by
    rw [htouches.written_eq]
    exact hsynced.slot_reserved hmem
  dirty_of_written hwritten := by
    rw [htouches.written_eq] at hwritten
    exact hgrow (hsynced.dirty_of_written hwritten)
  nonce_shown hmem := by
    rw [hprofile]
    exact hshown hmem
  nonce_cached hclean := by
    rw [hprofile]
    exact (hsynced.nonce_cached fun hdirty => hclean (hgrow hdirty)).trans (hcached hclean)
  nonce_reserved {other} hmem hdirty := by
    rcases htouches.dirties hdirty with rfl | hbefore
    · exact haddr hmem hdirty
    · exact hsynced.nonce_reserved hmem hbefore
  slots_subset := hsynced.slots_subset
  nonces_subset := hsynced.nonces_subset

theorem Synced.quiet (hsteps : Steps env s s') (htouches : Touches env addr s s')
    (hquiet : Quiet (s.view env) (s'.view env)) (haddr : addr ∈ reserved.nonces → addr ∉ s'.journal.dirties) :
    Synced env sound reserved changed s' values :=
  hsynced.touch hsteps htouches hquiet.dirties haddr hquiet.profile_eq hsynced.nonce_shown fun _ => rfl

theorem Synced.loads (hloads : Loads env s s') (htouches : Touches env addr s s') :
    Synced env sound reserved changed s' values := by
  refine hsynced.quiet (.of_loads hsynced.since.good hloads) htouches hloads.quiet fun hmem => ?_
  rw [hloads.frame]
  exact hsynced.nonce_reserved hmem

theorem Synced.setNonce (haddr : addr ∉ reserved.nonces) (nonce : UInt64) :
    Synced env sound reserved changed (s.setNonce env addr nonce)
      { values with nonce := Function.update values.nonce addr nonce } := by
  have hgrow := fun {other} => @mem_dirties_setNonce σ env s addr nonce other
  refine hsynced.touch ((moves_setNonce env s addr nonce).steps hsynced.since.good)
    (touches_setNonce env s addr nonce) (fun hmem => hgrow (.inr hmem))
    (fun hmem => absurd hmem haddr) (profile_setNonce env s addr nonce) (fun {other} hmem => ?_)
    fun {other} hclean => ?_
  · by_cases heq : other = addr
    · rw [heq, Function.update_self, Function.update_self]
    · rw [Function.update_of_ne heq, Function.update_of_ne heq]
      exact hsynced.nonce_shown hmem
  · have hne : other ≠ addr := fun heq => hclean (hgrow (.inl heq))
    rw [Function.update_of_ne hne]

/-- Outside the reserved region the StateDB holds the newest value of the slot. -/
theorem Synced.setState {key value : Hash} (hslot : (addr, key) ∉ reserved.slots)
    (haddr : addr ∉ reserved.nonces) :
    Synced env sound reserved changed (s.setState env addr key value).2
      { values with slot := setSlot values.slot addr key value } := by
  have hsteps := (moves_setState env s addr key value).steps hsynced.since.good
  have hquiet := quiet_setState env s addr key value
  rcases setState_cases env s addr key value with ⟨hsame, htouches⟩ |
    ⟨t, htouches, hdirty, obj, hobj, hset⟩
  · -- the slot shows the value already, and no precompile has changed it
    rw [hsynced.slot_shown fun hmem => hslot (hsynced.slots_subset hmem)] at hsame
    rw [setSlot_eq_self values.slot hsame]
    exact hsynced.quiet hsteps htouches hquiet fun hmem => absurd hmem haddr
  have hshown := slot_setState htouches hobj key value
  have hwritten := written_setState htouches hobj key value
  have hdirties : (s.setState env addr key value).2.journal.dirties = t.journal.dirties := by
    rw [hset]
    rfl
  rw [← hset] at hshown hwritten
  refine ⟨(hsynced.since.steps hsteps).self, ?_, ?_, fun other => ?_, fun {other key'} hmem => ?_,
    fun other key' => ?_, fun {other key'} hmem => ?_, fun {other key'} hsome => ?_, fun hmem => ?_,
    fun hclean => ?_, fun {other} hmem hdirty => ?_, hsynced.slots_subset, hsynced.nonces_subset⟩
  · rw [hset]
    exact htouches.ctx_eq ▸ hsynced.housed
  · rw [hquiet.profile_eq]
    exact hsynced.sound_cache
  · rw [hquiet.profile_eq]
    exact hsynced.spared other
  · change _ = setSlot values.slot addr key value other key'
    rw [hshown]
    by_cases heq : (other, key') = (addr, key)
    · cases heq
      rw [setSlot_self, setSlot_self]
    · rw [setSlot_of_ne _ heq, setSlot_of_ne _ heq]
      exact hsynced.slot_shown hmem
  · change _ = setSlot values.slot addr key value other key'
    rw [hwritten, hquiet.profile_eq]
    by_cases heq : (other, key') = (addr, key)
    · cases heq
      rw [setSlot_self, setSlot_self]
      rfl
    · rw [setSlot_of_ne _ heq, setSlot_of_ne _ heq]
      exact hsynced.slot_cached other key'
  · have hne : (other, key') ≠ (addr, key) := fun heq => hslot (heq ▸ hmem)
    rw [hwritten, setSlot_of_ne _ hne]
    exact hsynced.slot_reserved hmem
  · rw [hdirties]
    by_cases heq : (other, key') = (addr, key)
    · cases heq
      exact hdirty
    · rw [hwritten, setSlot_of_ne _ heq] at hsome
      have hgrown := hquiet.dirties (hsynced.dirty_of_written hsome)
      exact hdirties ▸ hgrown
  · rw [hquiet.profile_eq]
    exact hsynced.nonce_shown hmem
  · rw [hquiet.profile_eq]
    exact hsynced.nonce_cached fun hdirty => hclean (hquiet.dirties hdirty)
  · rw [hdirties] at hdirty
    rcases htouches.dirties hdirty with rfl | hbefore
    · exact haddr hmem
    · exact hsynced.nonce_reserved hmem hbefore

end

/-- A call commits what is dirty, and then changes its own region in the cache. -/
theorem Synced.call (hnonces : env.CommitsNonces sound) (hslots : env.CommitsSlots sound)
    (hsynced : Synced env sound reserved changed s values) {body : Body env sound}
    (hbody : body.region.slots ⊆ reserved.slots ∧ body.region.nonces ⊆ reserved.nonces)
    (hcall : s.runPrecompile env body.run = (none, s')) :
    Synced env sound reserved (changed ∪ body.region) s' ((Action.call body).write s values) := by
  have hsteps := steps_runPrecompile hsynced.since.good body.run
  obtain ⟨counter, cache, hleft, -, hcache⟩ := runPrecompile_cases env s body.run
  rw [hcall] at hsteps hleft hcache
  obtain ⟨hfailed, -⟩ | ⟨before, after, hcommit, hran, -, hwritten⟩ := hcache
  · exact absurd rfl hfailed
  have hcacheCtx : s.cacheCtx.store = (s.view env).profile.cache.current := rfl
  obtain ⟨hsound, hvalues⟩ := hsynced.commit hnonces hslots hcacheCtx hcommit
  have hwithin := body.within hsound hran
  have hwrite : (Action.call body).write s values = env.values after.store := by
    simp only [Action.write, hcommit, hran]
    rw [hvalues, Values.overwrite_self]
  rw [hvalues] at hwithin
  rw [hwrite]
  simp only at hleft
  subst hleft
  refine ⟨(hsynced.since.steps hsteps).self, hsynced.housed, ?_, hsynced.spared, fun hmem => ?_,
    fun addr key => ?_, hsynced.slot_reserved, hsynced.dirty_of_written, fun hmem => ?_, fun _ => ?_,
    hsynced.nonce_reserved, Set.union_subset hsynced.slots_subset hbody.1,
    Set.union_subset hsynced.nonces_subset hbody.2⟩
  · change sound cache.snapshotter.current
    rw [hwritten]
    exact body.sound_run hsound hran
  · rw [hwithin.slot fun hchanged => hmem (.inr hchanged)]
    exact hsynced.slot_shown fun hchanged => hmem (.inl hchanged)
  · change (s.written addr key).getD (env.keeper.getState cache.snapshotter.current addr key) = _
    rw [hwritten]
    cases hvalue : s.written addr key with
    | none => rfl
    | some value =>
      -- what is written through the StateDB is not the precompile's to change
      have hfree : (addr, key) ∉ body.region.slots := by
        intro hmem
        cases hvalue.symm.trans (hsynced.slot_reserved (hbody.1 hmem))
      have hcached := hsynced.slot_cached addr key
      rw [hvalue] at hcached
      exact hcached.trans (hwithin.slot hfree).symm
  · rw [hwithin.nonce fun hchanged => hmem (.inr hchanged)]
    exact hsynced.nonce_shown fun hchanged => hmem (.inl hchanged)
  · change env.storedNonce cache.snapshotter.current _ = _
    rw [hwritten]
    rfl

theorem Synced.answer (hsynced : Synced env sound reserved changed s values) {action : Action env sound}
    (hallowed : action.Allowed reserved changed) {answer : Answer} (hexec : action.exec s = some (answer, s')) :
    answer = action.answer values := by
  cases action with
  | getState addr key =>
    cases hexec
    refine congrArg Answer.slot ?_
    rw [getState_eq_slot hsynced.housed]
    exact hsynced.slot_shown hallowed
  | getNonce addr =>
    cases hexec
    refine congrArg Answer.nonce ?_
    rw [(getNonce_spec env s addr).1]
    exact hsynced.nonce_shown hallowed
  | call body =>
    simp only [Action.exec] at hexec
    split at hexec <;> cases hexec
    rfl
  | _ =>
    cases hexec
    rfl

/-- One action keeps the values last written apart from what precompiles have changed. -/
theorem Synced.exec (hnonces : env.CommitsNonces sound) (hslots : env.CommitsSlots sound)
    (hsynced : Synced env sound reserved changed s values) {action : Action env sound}
    (hallowed : action.Allowed reserved changed) {answer : Answer} (hexec : action.exec s = some (answer, s')) :
    Synced env sound reserved (action.changes changed) s' (action.write s values) := by
  have hgood := hsynced.since.good
  cases action with
  | setState addr key value =>
    cases hexec
    exact hsynced.setState hallowed.1 hallowed.2
  | setNonce addr nonce =>
    cases hexec
    exact hsynced.setNonce hallowed nonce
  | setCode addr code =>
    cases hexec
    exact hsynced.quiet ((moves_setCode env s addr code).steps hgood)
      (touches_setCode env s addr code) (quiet_setCode env s addr code)
      fun hmem => absurd hmem hallowed
  | addBalance addr amount =>
    cases hexec
    have hop : (Op.addBalance addr amount : Op σ).Plain := trivial
    exact hsynced.quiet ((moves_addBalance env s addr amount).steps hgood)
      (touches_addBalance env s addr amount) (quiet_of_plain hop rfl)
      fun hmem => absurd hmem hallowed
  | subBalance addr amount =>
    cases hexec
    have hop : (Op.subBalance addr amount : Op σ).Plain := trivial
    exact hsynced.quiet ((moves_subBalance env s addr amount).steps hgood)
      (touches_subBalance env s addr amount) (quiet_of_plain hop rfl)
      fun hmem => absurd hmem hallowed
  | getState addr key =>
    cases hexec
    exact hsynced.loads (getState_spec env s addr key).2 (touches_getState env s addr key)
  | getNonce addr =>
    cases hexec
    exact hsynced.loads (getNonce_spec env s addr).2 (touches_getNonce env s addr)
  | call body =>
    simp only [Action.exec] at hexec
    split at hexec <;> cases hexec
    rename_i hcall
    exact hsynced.call hnonces hslots hallowed hcall

theorem Synced.kept (hnonces : env.CommitsNonces sound) (hslots : env.CommitsSlots sound)
    (hsynced : Synced env sound reserved changed s values) {actions : List (Action env sound)}
    (hguarded : Guarded reserved changed actions) : Kept s values actions := by
  induction actions generalizing s values changed with
  | nil =>
    intro answers s' hrun
    cases hrun
    exact ⟨rfl, fun ctx hcommit => (hsynced.commit hnonces hslots (store_writeCache env s) hcommit).2⟩
  | cons action actions ih =>
    intro answers s' hrun
    obtain ⟨⟨answer, middle⟩, hexec, hrun⟩ := Option.bind_eq_some_iff.mp hrun
    obtain ⟨⟨later, _⟩, hrest, heq⟩ := Option.map_eq_some_iff.mp hrun
    cases heq
    obtain ⟨hanswers, hstored⟩ :=
      ih (hsynced.exec hnonces hslots hguarded.1 hexec) hguarded.2 later _ hrest
    have hanswer := hsynced.answer hguarded.1 hexec
    simp only [StateDB.expected, hexec]
    exact ⟨by rw [hanswer, hanswers], hstored⟩

end CosmosEvm.Statedb
