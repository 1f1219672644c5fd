import CosmosEvm.Vm.Interpreter

namespace CosmosEvm

namespace Vm

open Statedb

variable {σ : Type}

theorem lt_add_one_of_not_lt {nonce : UInt64} (hoverflow : ¬ nonce + 1 < nonce) : nonce < nonce + 1 := by
  have hlt := nonce.toNat_lt
  rw [UInt64.lt_iff_toNat_lt, UInt64.toNat_add, UInt64.toNat_one] at hoverflow ⊢
  omega

structure Advances (v v' : View σ) (made : List Creation) : Prop where
  nonce_le : ∀ addr, v.nonce addr ≤ v'.nonce addr
  used : ∀ {creator nonce}, (creator, nonce) ∈ made → v.nonce creator ≤ nonce ∧ nonce < v'.nonce creator
  nodup : made.Nodup

theorem Advances.of_nonce_le {v v' : View σ} (hle : ∀ addr, v.nonce addr ≤ v'.nonce addr) :
    Advances v v' [] :=
  ⟨hle, by simp, List.nodup_nil⟩

theorem Advances.of_nonce_eq {v v' : View σ} (heq : v'.nonce = v.nonce) : Advances v v' [] :=
  .of_nonce_le fun _ => heq ▸ UInt64.le_refl _

theorem Advances.trans {v v' v'' : View σ} {made later : List Creation} (hfirst : Advances v v' made)
    (hsecond : Advances v' v'' later) : Advances v v'' (made ++ later) where
  nonce_le addr := UInt64.le_trans (hfirst.nonce_le addr) (hsecond.nonce_le addr)
  used {creator nonce} hmem := by
    rcases List.mem_append.mp hmem with hmem | hmem
    · obtain ⟨hle, hlt⟩ := hfirst.used hmem
      exact ⟨hle, UInt64.lt_of_lt_of_le hlt (hsecond.nonce_le creator)⟩
    · obtain ⟨hle, hlt⟩ := hsecond.used hmem
      exact ⟨UInt64.le_trans (hfirst.nonce_le creator) hle, hlt⟩
  nodup := by
    refine List.nodup_append.mpr ⟨hfirst.nodup, hsecond.nodup, ?_⟩
    rintro ⟨creator, nonce⟩ hmade _ hlater rfl
    -- the first run leaves the nonce behind, and the second starts from there
    have hlt := UInt64.lt_of_lt_of_le (hfirst.used hmade).2 (hsecond.used hlater).1
    exact UInt64.lt_irrefl _ hlt

structure Tracks (env : Env σ) (sound : σ → Prop) (start : Address → UInt64) (store : σ) (v : View σ) :
    Prop where
  clean : ∀ {addr}, addr ∉ v.dirties → v.profile.nonce addr = env.storedNonce store addr
  cached : ∀ {addr}, addr ∉ v.dirties →
    env.storedNonce v.profile.cache.current addr = env.storedNonce store addr
  sound_cache : sound v.profile.cache.current
  start_le : ∀ addr, start addr ≤ v.profile.nonce addr
  start_eq_zero : ∀ {addr}, v.profile.newContract addr = true → start addr = 0
  newContract : ∀ {addr}, v.profile.destructed addr = true → v.profile.newContract addr = true

variable {env : Env σ} {sound : σ → Prop} {start : Address → UInt64} {store : σ} {v v' : View σ}

theorem Tracks.of_marks (htracks : Tracks env sound start store v)
    (hnonce : v'.profile.nonce = v.profile.nonce) (hcache : v'.profile.cache = v.profile.cache)
    (hdirties : ∀ {addr}, addr ∈ v.dirties → addr ∈ v'.dirties)
    (hnew : ∀ addr, v'.profile.newContract addr = true →
      v.profile.newContract addr = true ∨ start addr = 0)
    (hdestructed : ∀ addr, v'.profile.destructed addr = true → v'.profile.newContract addr = true) :
    Tracks env sound start store v' where
  clean hclean := by
    rw [hnonce]
    exact htracks.clean fun hdirty => hclean (hdirties hdirty)
  cached hclean := by
    rw [hcache]
    exact htracks.cached fun hdirty => hclean (hdirties hdirty)
  sound_cache := by
    rw [hcache]
    exact htracks.sound_cache
  start_le addr := by
    rw [hnonce]
    exact htracks.start_le addr
  start_eq_zero {addr} hmarked := (hnew addr hmarked).elim htracks.start_eq_zero id
  newContract {addr} hmarked := hdestructed addr hmarked

theorem Tracks.of_quiet (htracks : Tracks env sound start store v) (hquiet : Quiet v v') :
    Tracks env sound start store v' := by
  have hprofile := hquiet.profile_eq
  refine htracks.of_marks (congrArg Profile.nonce hprofile) (congrArg Profile.cache hprofile)
    hquiet.dirties (fun addr hnew => ?_) fun addr hdestructed => ?_
  · rw [hprofile] at hnew
    exact .inl hnew
  · rw [hprofile] at hdestructed ⊢
    exact htracks.newContract hdestructed

structure Tracked (env : Env σ) (sound : σ → Prop) (start : Address → UInt64) (s : StateDB σ) : Prop where
  since : Since env s s
  tracks : Tracks env sound start s.ctx.store (s.view env)

structure Evolves (env : Env σ) (sound : σ → Prop) (start : Address → UInt64) (s s' : StateDB σ)
    (made : List Creation) : Prop where
  since : Since env s s'
  tracks : Tracks env sound start s.ctx.store (s'.view env)
  advances : Advances (s.view env) (s'.view env) made

variable {s s' s'' : StateDB σ} {made later : List Creation} {addr : Address}

theorem Evolves.tracked (hevolves : Evolves env sound start s s' made) : Tracked env sound start s' := by
  refine ⟨hevolves.since.self, ?_⟩
  rw [hevolves.since.ctx_eq]
  exact hevolves.tracks

theorem Evolves.trans (hfirst : Evolves env sound start s s' made)
    (hsecond : Evolves env sound start s' s'' later) : Evolves env sound start s s'' (made ++ later) where
  since := hfirst.since.trans hsecond.since
  tracks := hfirst.since.ctx_eq ▸ hsecond.tracks
  advances := hfirst.advances.trans hsecond.advances

theorem Tracked.quiet (htracked : Tracked env sound start s) (hsteps : Steps env s s')
    (hquiet : Quiet (s.view env) (s'.view env)) : Evolves env sound start s s' [] where
  since := htracked.since.steps hsteps
  tracks := htracked.tracks.of_quiet hquiet
  advances := .of_nonce_eq (congrArg Profile.nonce hquiet.profile_eq)

theorem Tracked.refl (htracked : Tracked env sound start s) : Evolves env sound start s s [] where
  since := htracked.since
  tracks := htracked.tracks
  advances := .of_nonce_eq rfl

theorem Tracked.loads (htracked : Tracked env sound start s) (hloads : Loads env s s') :
    Evolves env sound start s s' [] :=
  htracked.quiet (.of_loads htracked.since.good hloads) hloads.quiet

theorem Tracked.plain (htracked : Tracked env sound start s) {op : Op σ} (hop : op.Plain)
    (hexec : s.exec env op = some s') : Evolves env sound start s s' [] :=
  htracked.quiet ((moves_of_exec hop.simple hexec).steps htracked.since.good) (quiet_of_plain hop hexec)

theorem Tracked.setCode (htracked : Tracked env sound start s) (addr : Address) (code : Option Bytes) :
    Evolves env sound start s (s.setCode env addr code).2 [] :=
  htracked.quiet ((moves_setCode env s addr code).steps htracked.since.good) (quiet_setCode env s addr code)

theorem nonce_setNonce (env : Env σ) (s : StateDB σ) (addr : Address) (nonce : UInt64) :
    ((s.setNonce env addr nonce).view env).nonce = Function.update (s.view env).nonce addr nonce :=
  congrArg Profile.nonce (profile_setNonce env s addr nonce)

theorem Tracks.setNonce (htracks : Tracks env sound start store (s.view env)) {nonce : UInt64}
    (hle : start addr ≤ nonce) : Tracks env sound start store ((s.setNonce env addr nonce).view env) := by
  have hprofile := profile_setNonce env s addr nonce
  have hne : ∀ {other}, other ∉ ((s.setNonce env addr nonce).view env).dirties →
      other ≠ addr ∧ other ∉ (s.view env).dirties := fun hclean =>
    ⟨fun heq => hclean (mem_dirties_setNonce env s addr nonce (.inl heq)),
      fun hdirty => hclean (mem_dirties_setNonce env s addr nonce (.inr hdirty))⟩
  refine ⟨fun {other} hclean => ?_, fun hclean => ?_, ?_, fun other => ?_, ?_, ?_⟩
  · change ((s.setNonce env addr nonce).view env).nonce other = _
    rw [nonce_setNonce, Function.update_of_ne (hne hclean).1]
    exact htracks.clean (hne hclean).2
  · rw [hprofile]
    exact htracks.cached (hne hclean).2
  · rw [hprofile]
    exact htracks.sound_cache
  · change _ ≤ ((s.setNonce env addr nonce).view env).nonce other
    rw [nonce_setNonce]
    by_cases heq : other = addr
    · rw [heq, Function.update_self]
      exact hle
    · rw [Function.update_of_ne heq]
      exact htracks.start_le other
  · rw [hprofile]
    exact htracks.start_eq_zero
  · rw [hprofile]
    exact htracks.newContract

section

variable {nonce : UInt64} (htracked : Tracked env sound start s)

include htracked

theorem Tracked.setNonce (hle : (s.view env).nonce addr ≤ nonce) :
    Evolves env sound start s (s.setNonce env addr nonce) [] where
  since := htracked.since.steps ((moves_setNonce env s addr nonce).steps htracked.since.good)
  tracks := htracked.tracks.setNonce (UInt64.le_trans (htracked.tracks.start_le addr) hle)
  advances := by
    refine .of_nonce_le fun other => ?_
    rw [nonce_setNonce]
    by_cases heq : other = addr
    · rw [heq, Function.update_self]
      exact hle
    · rw [Function.update_of_ne heq]
      exact UInt64.le_refl _

theorem Tracked.resetNonce (hle : start addr ≤ nonce) :
    Tracked env sound start (s.setNonce env addr nonce) := by
  have hsince := htracked.since.steps ((moves_setNonce env s addr nonce).steps htracked.since.good)
  refine ⟨hsince.self, ?_⟩
  rw [hsince.ctx_eq]
  exact htracked.tracks.setNonce hle

theorem Tracked.createContract (hzero : (s.view env).nonce addr = 0)
    (hcreate : s.createContract env addr = some s') : Evolves env sound start s s' [] := by
  have htracks := htracked.tracks
  obtain ⟨hprofile, hdirties⟩ := profile_createContract hcreate
  have hnonce := congrArg Profile.nonce hprofile
  have hcache := congrArg Profile.cache hprofile
  refine ⟨htracked.since.steps ((moves_createContract hcreate).steps htracked.since.good),
    htracks.of_marks hnonce hcache hdirties (fun other hnew => ?_) fun other hdestructed => ?_,
    .of_nonce_eq hnonce⟩
  · by_cases heq : other = addr
    · have hle : start addr ≤ (s.view env).nonce addr := htracks.start_le addr
      rw [hzero] at hle
      rw [heq]
      exact .inr (UInt64.le_zero_iff.mp hle)
    · rw [hprofile] at hnew
      simp only [Function.update_of_ne heq] at hnew
      exact .inl hnew
  · rw [hprofile] at hdestructed ⊢
    by_cases heq : other = addr
    · simp only [heq, Function.update_self]
    · simp only [Function.update_of_ne heq]
      exact htracks.newContract hdestructed

theorem Tracked.selfDestruct6780 (addr : Address) :
    Evolves env sound start s (s.selfDestruct6780 env addr).2.2 [] := by
  have htracks := htracked.tracks
  obtain ⟨⟨destructed, hprofile, hmarked⟩, hdirties⟩ := profile_selfDestruct6780 env s addr
  have hnonce := congrArg Profile.nonce hprofile
  have hcache := congrArg Profile.cache hprofile
  have hop : (Op.selfDestruct6780 addr : Op σ).Destructs := trivial
  refine ⟨htracked.since.steps (steps_of_destructs htracked.since.good hop rfl),
    htracks.of_marks hnonce hcache hdirties (fun other hnew => ?_) fun other hdestructed => ?_,
    .of_nonce_eq hnonce⟩
  · rw [hprofile] at hnew
    exact .inl hnew
  · rw [hprofile] at hdestructed ⊢
    exact (hmarked other hdestructed).elim htracks.newContract id

theorem Tracked.snapshot : Evolves env sound start s s.snapshot.1 [] where
  since := htracked.since.snapshot
  tracks := htracked.tracks
  advances := .of_nonce_eq rfl

theorem Tracked.revert {ran : StateDB σ} (hran : Since env s.snapshot.1 ran)
    (hrevert : ran.revertToSnapshot env s.snapshot.2 = some s') : Evolves env sound start s s' [] := by
  obtain ⟨reverted, hreverted, hview⟩ := hran.revertToSnapshot_view
  rw [hreverted] at hrevert
  cases hrevert
  refine ⟨(htracked.since.snapshot.trans hran).revert htracked.since.ordered (Nat.le_refl _) hreverted,
    ?_, .of_nonce_eq ?_⟩
  · rw [hview]
    exact htracked.tracks
  · rw [hview]

end

/-- A precompile that keeps stores sound and nonces as they are. -/
def Calm (env : Env σ) (sound : σ → Prop) (body : Context σ → Except Err (Context σ)) : Prop :=
  ∀ ctx ctx', body ctx = .ok ctx' → sound ctx.store →
    sound ctx'.store ∧ ∀ addr, env.storedNonce ctx'.store addr = env.storedNonce ctx.store addr

theorem Tracked.precompile (hcommits : env.CommitsNonces sound) (htracked : Tracked env sound start s)
    {body : Context σ → Except Err (Context σ)} (hbody : Calm env sound body) :
    Evolves env sound start s (s.runPrecompile env body).2 [] := by
  have htracks := htracked.tracks
  have hsteps := steps_runPrecompile htracked.since.good body
  obtain ⟨counter, cache, hcall, -, hcache⟩ := runPrecompile_cases env s body
  rw [hcall] at hsteps ⊢
  have hnew : sound cache.snapshotter.current ∧ ∀ {addr}, addr ∉ (s.view env).dirties →
      env.storedNonce cache.snapshotter.current addr = env.storedNonce s.ctx.store addr := by
    rcases hcache with ⟨-, hsame⟩ | ⟨committed, ctx, hcommit, hran, -, hwritten⟩
    · rw [hsame]
      exact ⟨htracks.sound_cache, htracks.cached⟩
    · have hcommitted := hcommits.sound_commit htracked.since.loaded htracks.sound_cache hcommit
      obtain ⟨hsound, hnonce⟩ := hbody committed ctx hran hcommitted
      rw [hwritten]
      refine ⟨hsound, fun hclean => ?_⟩
      rw [hnonce, hcommits.clean htracked.since.loaded htracks.sound_cache hcommit hclean]
      exact htracks.cached hclean
  exact ⟨htracked.since.steps hsteps, ⟨htracks.clean, hnew.2, hnew.1, htracks.start_le,
    htracks.start_eq_zero, htracks.newContract⟩, .of_nonce_eq rfl⟩

def Frame.Calm (env : Env σ) (sound : σ → Prop) : Frame σ → Prop
  | .stop | .selfDestruct => True
  | .op _ _ next => Calm env sound next
  | .create _ init _ next => Calm env sound init ∧ Calm env sound next
  | .call _ body _ next => Calm env sound body ∧ Calm env sound next
  | .precompile body next => Vm.Calm env sound body ∧ Calm env sound next

theorem Evolves.uses {creator : Address} {nonce : UInt64} (hevolves : Evolves env sound start s s' [])
    (hle : (s.view env).nonce creator ≤ nonce) (hlt : nonce < (s'.view env).nonce creator) :
    Evolves env sound start s s' [(creator, nonce)] where
  since := hevolves.since
  tracks := hevolves.tracks
  advances := by
    refine ⟨hevolves.advances.nonce_le, fun hmem => ?_, List.nodup_singleton _⟩
    cases List.mem_singleton.mp hmem
    exact ⟨hle, hlt⟩

theorem Evolves.unused (hevolves : Evolves env sound start s s' made) :
    Evolves env sound start s s' [] :=
  ⟨hevolves.since, hevolves.tracks, .of_nonce_le hevolves.advances.nonce_le⟩

def Proper (env : Env σ) (sound : σ → Prop) (start : Address → UInt64)
    (run : Address → StateDB σ → Option (StateDB σ × List Creation)) : Prop :=
  ∀ {self s s' made}, Tracked env sound start s → run self s = some (s', made) →
    Evolves env sound start s s' made

section Frames

variable {interp : Interpreter σ}

theorem createMissing_spec (interp : Interpreter σ) (hgood : s.Good interp.env) (addr : Address) :
    Steps interp.env s (interp.createMissing s addr) ∧
      Quiet (s.view interp.env) ((interp.createMissing s addr).view interp.env) := by
  obtain ⟨hfound, hloads⟩ := exist_spec interp.env s addr
  have hread : Steps interp.env s (s.exist interp.env addr).2 := .of_loads hgood hloads
  unfold Interpreter.createMissing
  simp only
  split
  · exact ⟨hread, hloads.quiet⟩
  · rename_i hmissing
    have hnone : ((s.exist interp.env addr).2.view interp.env).account addr = none := by
      rw [hloads.view_eq]
      rw [hfound] at hmissing
      simpa using hmissing
    have hmoves := moves_createAccount interp.env (s.exist interp.env addr).2 addr
    exact ⟨hread.trans (hmoves.steps hread.good), hloads.quiet.trans (quiet_createAccount hnone)⟩

theorem Tracked.createMissing (htracked : Tracked interp.env sound start s) (addr : Address) :
    Evolves interp.env sound start s (interp.createMissing s addr) [] := by
  obtain ⟨hsteps, hquiet⟩ := createMissing_spec interp htracked.since.good addr
  exact htracked.quiet hsteps hquiet

theorem call_evolves {runBody : Address → StateDB σ → Option (StateDB σ × List Creation)}
    (hbody : Proper interp.env sound start runBody) (htracked : Tracked interp.env sound start s)
    {target : Address} {failed : Bool} (hcall : interp.call runBody target failed s = some (s', made)) :
    Evolves interp.env sound start s s' made := by
  have hentered := htracked.snapshot.trans (htracked.snapshot.tracked.createMissing target)
  obtain ⟨⟨ran, inner⟩, hran, hcall⟩ := Option.bind_eq_some_iff.mp hcall
  have hinner := hbody hentered.tracked hran
  cases failed with
  | false =>
    cases hcall
    exact hentered.trans hinner
  | true =>
    obtain ⟨reverted, hrevert, hcall⟩ := Option.map_eq_some_iff.mp hcall
    cases hcall
    have hsince := (htracked.snapshot.tracked.createMissing target).since.trans hinner.since
    exact htracked.revert hsince hrevert

theorem collides_spec (interp : Interpreter σ) (s : StateDB σ) (address : Address) :
    Loads interp.env s (interp.collides s address).2 ∧
      ((interp.collides s address).1 = false → (s.view interp.env).nonce address = 0) := by
  have hcode : Loads interp.env s (s.getCodeHash interp.env address).2 :=
    (getStateObject_spec interp.env s address).1
  obtain ⟨hnonce, hloads⟩ := getNonce_spec interp.env (s.getCodeHash interp.env address).2 address
  refine ⟨hcode.trans hloads, fun hfree => ?_⟩
  have hfree := of_decide_eq_false hfree
  rw [hcode.view_eq] at hnonce
  by_contra hne
  rw [← hnonce] at hne
  exact hfree (.inl hne)

theorem newContract_evolves (htracked : Tracked interp.env sound start s)
    (hzero : (s.view interp.env).nonce addr = 0) (hnew : interp.newContract s addr = some s') :
    Evolves interp.env sound start s s' [] := by
  obtain ⟨marked, hmark, rfl⟩ := Option.map_eq_some_iff.mp hnew
  have hquiet := (createMissing_spec interp htracked.since.good addr).2
  have hcreated := htracked.createMissing addr
  have hkept : ((interp.createMissing s addr).view interp.env).nonce addr = 0 := by
    rw [← hzero]
    exact congrArg (fun profile => profile.nonce addr) hquiet.profile_eq
  have hmarked := hcreated.trans (hcreated.tracked.createContract hkept hmark)
  have hnonce : (marked.view interp.env).nonce addr = 0 := by
    rw [← hkept]
    exact congrArg (fun profile => profile.nonce addr) (profile_createContract hmark).1
  refine hmarked.trans (hmarked.tracked.setNonce ?_)
  rw [hnonce]
  decide

inductive Deployed (interp : Interpreter σ) (creation : Creation) (address : Address)
    (checked ran : StateDB σ) (inner : List Creation) :
    Option Bytes → StateDB σ → List Creation → Prop where
  | reverted {s' : StateDB σ} : ran.revertToSnapshot interp.env checked.snapshot.2 = some s' →
      Deployed interp creation address checked ran inner none s' []
  | kept (code : Bytes) : Deployed interp creation address checked ran inner (some code)
      (ran.setCode interp.env address (some code)).2 (creation :: inner)

/-- A creation fails early, or raises the creator's nonce and runs the init code at a fresh address. -/
theorem create_cases {runInit : Address → StateDB σ → Option (StateDB σ × List Creation)}
    (htracked : Tracked interp.env sound start s) {creator : Address} {salted : Option Address}
    {deployed : Option Bytes} {succeeded : Bool}
    (hcreate : interp.create runInit creator salted deployed s = some (succeeded, s', made)) :
    (made = [] ∧ Evolves interp.env sound start s s' []) ∨
      ∃ checked address created ran inner,
        Evolves interp.env sound start s checked [(creator, (s.view interp.env).nonce creator)] ∧
        (checked.view interp.env).nonce address = 0 ∧
        interp.newContract checked.snapshot.1 address = some created ∧
        runInit address created = some (ran, inner) ∧
        Deployed interp (creator, (s.view interp.env).nonce creator) address checked ran inner deployed s'
          made := by
  obtain ⟨hnonce, hloads⟩ := getNonce_spec interp.env s creator
  have hread := htracked.loads hloads
  unfold Interpreter.create at hcreate
  simp only [hnonce] at hcreate
  generalize (s.getNonce interp.env creator).2 = read at *
  generalize hused : (s.view interp.env).nonce creator = nonce at *
  split at hcreate
  · cases hcreate
    exact .inl ⟨rfl, hread⟩
  rename_i hoverflow
  have hlt := lt_add_one_of_not_lt hoverflow
  have hcurrent : (read.view interp.env).nonce creator = nonce := by rw [hloads.view_eq, hused]
  have hle : (read.view interp.env).nonce creator ≤ nonce + 1 := by
    rw [hcurrent]
    exact UInt64.le_of_lt hlt
  have hraised := hread.trans (hread.tracked.setNonce hle)
  generalize salted.getD (interp.createAddress creator nonce) = address at hcreate
  have hexec : (read.setNonce interp.env creator (nonce + 1)).exec interp.env
      (.addAddressToAccessList address) =
        some ((read.setNonce interp.env creator (nonce + 1)).addAddressToAccessList address) := rfl
  have hop : (Op.addAddressToAccessList address : Op σ).Plain := trivial
  have hwarm := hraised.trans (hraised.tracked.plain hop hexec)
  have hwarm_nonce := congrArg Profile.nonce (quiet_of_plain hop hexec).profile_eq
  generalize (read.setNonce interp.env creator (nonce + 1)).addAddressToAccessList address = warm at *
  obtain ⟨hcollides, hfree⟩ := collides_spec interp warm address
  have hchecked := hwarm.trans (hwarm.tracked.loads hcollides)
  split at hcreate
  · cases hcreate
    exact .inl ⟨rfl, hchecked⟩
  rename_i htaken
  have hzero := hfree (by simpa using htaken)
  rw [← hcollides.view_eq] at hzero
  have hleft : nonce < ((interp.collides warm address).2.view interp.env).nonce creator := by
    rw [hcollides.view_eq]
    change nonce < (warm.view interp.env).profile.nonce creator
    rw [hwarm_nonce]
    change nonce < ((read.setNonce interp.env creator (nonce + 1)).view interp.env).nonce creator
    rw [nonce_setNonce, Function.update_self]
    exact hlt
  obtain ⟨created, hcreated, hcreate⟩ := Option.bind_eq_some_iff.mp hcreate
  obtain ⟨⟨ran, inner⟩, hran, hcreate⟩ := Option.bind_eq_some_iff.mp hcreate
  refine .inr ⟨_, address, created, ran, inner, hchecked.uses (hused ▸ UInt64.le_refl _) hleft, hzero,
    hcreated, hran, ?_⟩
  cases deployed with
  | none =>
    obtain ⟨reverted, hrevert, hcreate⟩ := Option.map_eq_some_iff.mp hcreate
    cases hcreate
    exact .reverted hrevert
  | some code =>
    cases hcreate
    exact .kept code

theorem create_evolves {runInit : Address → StateDB σ → Option (StateDB σ × List Creation)}
    (hinit : Proper interp.env sound start runInit) (htracked : Tracked interp.env sound start s)
    {creator : Address} {salted : Option Address} {deployed : Option Bytes} {succeeded : Bool}
    (hcreate : interp.create runInit creator salted deployed s = some (succeeded, s', made)) :
    Evolves interp.env sound start s s' made := by
  rcases create_cases htracked hcreate with ⟨rfl, hfailed⟩ |
    ⟨checked, address, created, ran, inner, hchecked, hzero, hcreated, hran, hdeployed⟩
  · exact hfailed
  have hsnapshot := hchecked.tracked.snapshot
  have hnew := newContract_evolves hsnapshot.tracked hzero hcreated
  have hinner := hnew.trans (hinit hnew.tracked hran)
  cases hdeployed with
  | reverted hrevert =>
    exact hchecked.unused.trans (hchecked.tracked.revert hinner.since hrevert)
  | kept code =>
    have hcode := hinner.trans (hinner.tracked.setCode address (some code))
    rw [List.append_nil] at hcode
    exact hchecked.trans (hsnapshot.trans hcode)

/-- By induction on the frame: nonces never go down, and each creation used the one before it. -/
theorem run_evolves (hcommits : interp.env.CommitsNonces sound) {frame : Frame σ}
    (hcalm : frame.Calm interp.env sound) : Proper interp.env sound start (interp.run frame) := by
  induction frame with
  | stop =>
    intro self s s' made htracked hrun
    cases hrun
    exact htracked.refl
  | selfDestruct =>
    intro self s s' made htracked hrun
    cases hrun
    exact htracked.selfDestruct6780 self
  | op op plain next ih =>
    intro self s s' made htracked hrun
    obtain ⟨middle, hexec, hrun⟩ := Option.bind_eq_some_iff.mp hrun
    have hfirst := htracked.plain plain hexec
    exact hfirst.trans (ih hcalm hfirst.tracked hrun)
  | create salted init deployed next ihInit ihNext =>
    intro self s s' made htracked hrun
    obtain ⟨⟨_, middle, inner⟩, hcreate, hrun⟩ := Option.bind_eq_some_iff.mp hrun
    obtain ⟨⟨_, later⟩, hrest, heq⟩ := Option.map_eq_some_iff.mp hrun
    cases heq
    have hfirst := create_evolves (ihInit hcalm.1) htracked hcreate
    exact hfirst.trans (ihNext hcalm.2 hfirst.tracked hrest)
  | call target body failed next ihBody ihNext =>
    intro self s s' made htracked hrun
    obtain ⟨⟨middle, inner⟩, hcall, hrun⟩ := Option.bind_eq_some_iff.mp hrun
    obtain ⟨⟨_, later⟩, hrest, heq⟩ := Option.map_eq_some_iff.mp hrun
    cases heq
    have hfirst := call_evolves (ihBody hcalm.1) htracked hcall
    exact hfirst.trans (ihNext hcalm.2 hfirst.tracked hrest)
  | precompile body next ih =>
    intro self s s' made htracked hrun
    have hfirst := htracked.precompile hcommits hcalm.1
    exact hfirst.trans (ih hcalm.2 hfirst.tracked hrun)

end Frames

/-- The account makes a creation that is kept, in a frame of its own if `own` or in one within. -/
def Frame.creates (who : Address) : Frame σ → Bool → Bool
  | .stop, _ | .selfDestruct, _ => false
  | .op _ _ next, own => creates who next own
  | .create _ init deployed next, own =>
    deployed.isSome && (own || creates who init false) || creates who next own
  | .call target body failed next, own => !failed && creates who body (target == who) || creates who next own
  | .precompile _ next, own => creates who next own

section Creators

variable {interp : Interpreter σ} {who : Address}

theorem Evolves.nonce_ne_zero (hevolves : Evolves env sound start s s' made)
    (hnonce : (s.view env).nonce who ≠ 0) : (s'.view env).nonce who ≠ 0 := by
  intro hzero
  have hle := hevolves.advances.nonce_le who
  rw [hzero] at hle
  exact hnonce (UInt64.le_zero_iff.mp hle)

/-- By induction on the frame: whoever creates nothing in it is no creator of what it made. -/
theorem notMem_of_creates (hcommits : interp.env.CommitsNonces sound) {frame : Frame σ} {own : Bool}
    {self : Address} {nonce : UInt64} (hcalm : frame.Calm interp.env sound)
    (hcreates : frame.creates who own = false) (hown : self = who → own = true)
    (htracked : Tracked interp.env sound start s) (hnonce : (s.view interp.env).nonce who ≠ 0)
    (hrun : interp.run frame self s = some (s', made)) : (who, nonce) ∉ made := by
  induction frame generalizing own self s s' made with
  | stop =>
    cases hrun
    exact List.not_mem_nil
  | selfDestruct =>
    cases hrun
    exact List.not_mem_nil
  | op op plain next ih =>
    obtain ⟨middle, hexec, hrun⟩ := Option.bind_eq_some_iff.mp hrun
    have hfirst := htracked.plain plain hexec
    exact ih hcalm hcreates hown hfirst.tracked (hfirst.nonce_ne_zero hnonce) hrun
  | create salted init deployed next ihInit ihNext =>
    obtain ⟨⟨_, middle, inner⟩, hcreate, hrun⟩ := Option.bind_eq_some_iff.mp hrun
    obtain ⟨⟨_, later⟩, hrest, heq⟩ := Option.map_eq_some_iff.mp hrun
    cases heq
    have hfirst := create_evolves (run_evolves hcommits hcalm.1) htracked hcreate
    simp only [Frame.creates, Bool.or_eq_false_iff, Bool.and_eq_false_iff] at hcreates
    rw [List.mem_append, not_or]
    refine ⟨?_, ihNext hcalm.2 hcreates.2 hown hfirst.tracked (hfirst.nonce_ne_zero hnonce) hrest⟩
    rcases create_cases htracked hcreate with ⟨rfl, -⟩ |
      ⟨checked, address, created, ran, nested, hchecked, hzero, hcreated, hran, hdeployed⟩
    · exact List.not_mem_nil
    cases hdeployed with
    | reverted _ => exact List.not_mem_nil
    | kept code =>
      have hkept := hcreates.1.resolve_left (by simp)
      have hnew := newContract_evolves hchecked.tracked.snapshot.tracked hzero hcreated
      have hwho := hchecked.nonce_ne_zero hnonce
      have hother : address ≠ who := by
        rintro rfl
        exact hwho hzero
      have hinit := ihInit hcalm.1 hkept.2 (fun heq => absurd heq hother) hnew.tracked
        (hnew.nonce_ne_zero hwho) hran
      rw [List.mem_cons, not_or]
      refine ⟨fun heq => ?_, hinit⟩
      have hself := hown (Prod.mk.inj heq).1.symm
      rw [hkept.1] at hself
      cases hself
  | call target body failed next ihBody ihNext =>
    obtain ⟨⟨middle, inner⟩, hcall, hrun⟩ := Option.bind_eq_some_iff.mp hrun
    obtain ⟨⟨_, later⟩, hrest, heq⟩ := Option.map_eq_some_iff.mp hrun
    cases heq
    have hfirst := call_evolves (run_evolves hcommits hcalm.1) htracked hcall
    simp only [Frame.creates, Bool.or_eq_false_iff, Bool.and_eq_false_iff] at hcreates
    rw [List.mem_append, not_or]
    refine ⟨?_, ihNext hcalm.2 hcreates.2 hown hfirst.tracked (hfirst.nonce_ne_zero hnonce) hrest⟩
    obtain ⟨⟨ran, nested⟩, hran, hcall⟩ := Option.bind_eq_some_iff.mp hcall
    have hentered := htracked.snapshot.trans (htracked.snapshot.tracked.createMissing target)
    cases failed with
    | true =>
      obtain ⟨_, _, hcall⟩ := Option.map_eq_some_iff.mp hcall
      cases hcall
      exact List.not_mem_nil
    | false =>
      cases hcall
      exact ihBody hcalm.1 (hcreates.1.resolve_left (by simp)) (fun heq => by simp [heq])
        hentered.tracked (hentered.nonce_ne_zero hnonce) hran
  | precompile body next ih =>
    have hfirst := htracked.precompile hcommits hcalm.1
    exact ih hcalm.2 hcreates hown hfirst.tracked (hfirst.nonce_ne_zero hnonce) hrun

theorem nonce_of_mem_create (hcommits : interp.env.CommitsNonces sound) {frame : Frame σ}
    (hcalm : frame.Calm interp.env sound) {deployed : Option Bytes}
    (hcreates : deployed.isSome = true → frame.creates who false = false)
    (htracked : Tracked interp.env sound start s) {salted : Option Address} {succeeded : Bool}
    {nonce : UInt64}
    (hcreate : interp.create (interp.run frame) who salted deployed s = some (succeeded, s', made))
    (hmem : (who, nonce) ∈ made) : nonce = (s.view interp.env).nonce who := by
  rcases create_cases htracked hcreate with ⟨rfl, -⟩ |
    ⟨checked, address, created, ran, inner, hchecked, hzero, hcreated, hran, hdeployed⟩
  · cases hmem
  cases hdeployed with
  | reverted _ => cases hmem
  | kept code =>
    rcases List.mem_cons.mp hmem with heq | hinner
    · exact (Prod.mk.inj heq).2
    have hwho : (checked.view interp.env).nonce who ≠ 0 := by
      intro hnone
      have hlt := (hchecked.advances.used List.mem_cons_self).2
      rw [hnone] at hlt
      exact UInt64.not_lt_zero hlt
    have hother : address ≠ who := by
      rintro rfl
      exact hwho hzero
    have hnew := newContract_evolves hchecked.tracked.snapshot.tracked hzero hcreated
    exact absurd hinner (notMem_of_creates hcommits hcalm (hcreates rfl)
      (fun heq => absurd heq hother) hnew.tracked (hnew.nonce_ne_zero hwho) hran)

end Creators

end Vm

end CosmosEvm
