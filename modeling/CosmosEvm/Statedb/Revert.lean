import CosmosEvm.Statedb.Steps

namespace CosmosEvm.Statedb

open UndoLog

variable {σ : Type} {env : Env σ} {base s s' : StateDB σ}

def StateDB.Loaded (s : StateDB σ) : Prop := ∀ addr, addr ∈ s.journal.dirties → addr ∈ s.stateObjects

structure Undone (s s' : StateDB σ) : Prop where
  ctx_eq : s'.ctx = s.ctx
  entries_eq : s'.journal.entries = s.journal.entries
  revisions_eq : s'.validRevisions = s.validRevisions
  next_eq : s'.nextRevisionID = s.nextRevisionID

theorem Undone.trans {s'' : StateDB σ} (hfirst : Undone s s') (hsecond : Undone s' s'') :
    Undone s s'' where
  ctx_eq := hsecond.ctx_eq.trans hfirst.ctx_eq
  entries_eq := hsecond.entries_eq.trans hfirst.entries_eq
  revisions_eq := hsecond.revisions_eq.trans hfirst.revisions_eq
  next_eq := hsecond.next_eq.trans hfirst.next_eq

theorem updateStateObject_frame {addr : Address} {change : StateObject → StateObject}
    (hupdate : s.updateStateObject env addr change = some s') :
    s' = { s with stateObjects := s'.stateObjects } ∧
      ∀ other, other ∈ s.stateObjects → other ∈ s'.stateObjects := by
  have hloads := (getStateObject_spec env s addr).1
  unfold StateDB.updateStateObject at hupdate
  split at hupdate
  · simp at hupdate
  · rename_i obj loaded hget
    cases hupdate
    simp only [hget] at hloads
    exact ⟨by rw [StateDB.setStateObject, hloads.frame],
      fun other hmem => Finmap.mem_insert.mpr (.inr (hloads.keeps other hmem))⟩

/-- What undoing an entry may change, and what it leaves alone. -/
structure Reverted (entry : JournalEntry) (s s' : StateDB σ) : Prop where
  frame : s' = { s with
    cache := s'.cache, transientStorage := s'.transientStorage, stateObjects := s'.stateObjects,
    refund := s'.refund, logs := s'.logs, accessList := s'.accessList }
  keeps : ∀ other, other ∈ s.stateObjects → other ∈ s'.stateObjects ∨ entry = .createObjectChange other
  cache_eq : (∀ snapshot events, entry ≠ .precompileCallChange snapshot events) → s'.cache = s.cache
  logs_eq : s'.logs = s.logs ∨ s'.logs = s.logs.dropLast

section

variable {entry : JournalEntry}

theorem Reverted.undone (hreverted : Reverted entry s s') : Undone s s' := by
  constructor <;> rw [hreverted.frame]

theorem Reverted.of_objects (hframe : s' = { s with stateObjects := s'.stateObjects })
    (hkeeps : ∀ other, other ∈ s.stateObjects → other ∈ s'.stateObjects ∨ entry = .createObjectChange other) :
    Reverted entry s s' where
  frame := by rw [hframe]
  keeps := hkeeps
  cache_eq _ := by rw [hframe]
  logs_eq := .inl (by rw [hframe])

theorem reverted_of_revert (hrevert : entry.revert env s = some s') : Reverted entry s s' := by
  cases entry with
  | createObjectChange account =>
    cases hrevert
    refine .of_objects rfl fun other hmem => ?_
    by_cases heq : other = account
    · exact .inr (by rw [heq])
    · exact .inl (Finmap.mem_erase.mpr ⟨heq, hmem⟩)
  | resetObjectChange account prev =>
    cases hrevert
    exact .of_objects rfl fun other hmem => .inl (Finmap.mem_insert.mpr (.inr hmem))
  | selfDestructChange account prev prevbalance =>
    have hloads := (getStateObject_spec env s account).1
    simp only [JournalEntry.revert] at hrevert
    split at hrevert
    · rename_i loaded hget
      cases hrevert
      simp only [hget] at hloads
      exact .of_objects hloads.frame fun other hmem => .inl (hloads.keeps other hmem)
    · rename_i obj loaded hget
      cases hrevert
      simp only [hget] at hloads
      exact .of_objects (by rw [StateDB.setStateObject, hloads.frame])
        fun other hmem => .inl (Finmap.mem_insert.mpr (.inr (hloads.keeps other hmem)))
  | balanceChange account prev | nonceChange account prev | storageChange account key prevalue
  | codeChange account prevcode prevhash | createContractChange account =>
    obtain ⟨hframe, hkeeps⟩ := updateStateObject_frame hrevert
    exact .of_objects hframe fun other hmem => .inl (hkeeps other hmem)
  | transientStorageChange account key prevalue | refundChange prev | accessListAddAccountChange address =>
    cases hrevert
    exact ⟨rfl, fun _ => .inl, fun _ => rfl, .inl rfl⟩
  | addLogChange =>
    simp only [JournalEntry.revert] at hrevert
    split at hrevert
    · simp at hrevert
    · cases hrevert
      exact ⟨rfl, fun _ => .inl, fun _ => rfl, .inr rfl⟩
  | accessListAddSlotChange address slot =>
    obtain ⟨accessList, _, rfl⟩ := Option.map_eq_some_iff.mp hrevert
    exact ⟨rfl, fun _ => .inl, fun _ => rfl, .inl rfl⟩
  | precompileCallChange snapshot events =>
    simp only [JournalEntry.revert, StateDB.revertMultiStore] at hrevert
    split at hrevert
    · simp at hrevert
    · obtain ⟨snapshotter, _, rfl⟩ := Option.map_eq_some_iff.mp hrevert
      exact ⟨rfl, fun _ => .inl, fun hother => absurd rfl (hother snapshot events), .inl rfl⟩

end

theorem Dirties.mem_of_mem_decrement {dirties : Dirties} {dirtied : Option Address} {addr : Address}
    (hpos : ∀ {addr count}, (dirties.decrement dirtied).lookup addr = some count → 0 < count)
    (hmem : addr ∈ dirties.decrement dirtied) : addr ∈ dirties := by
  cases dirtied with
  | none => exact hmem
  | some other =>
    by_cases heq : addr = other
    · subst heq
      obtain ⟨count, hcount⟩ := Finmap.mem_iff.mp hmem
      have hcount_pos := hpos hcount
      by_contra hnot
      have hnone := Finmap.lookup_eq_none.mpr hnot
      simp [decrement, hnone, Finmap.lookup_insert] at hcount
      omega
    · unfold decrement at hmem
      simp only at hmem
      split at hmem
      · exact (Finmap.mem_erase.mp hmem).2
      · exact (Finmap.mem_insert.mp hmem).resolve_left heq

theorem undoEntry_simulate {entry : JournalEntry} {v : View σ} (hloaded : s.Loaded)
    (hundo : View.undoEntry env s.ctx.store entry (s.view env) = some v)
    (hgood : v.Good env s.ctx.store) :
    ∃ s', s.undoEntry env entry = some s' ∧ s'.view env = v ∧ Undone s s' ∧ s'.Loaded := by
  obtain ⟨w, hentry, rfl⟩ := Option.map_eq_some_iff.mp hundo
  obtain ⟨t, hrevert, rfl⟩ := Option.map_eq_some_iff.mp (view_revert hentry)
  have hreverted := reverted_of_revert hrevert
  have hundone := hreverted.undone
  have hdone : s.undoEntry env entry = some { t with journal :=
      { t.journal with dirties := t.journal.dirties.decrement entry.dirtied } } := by
    rw [StateDB.undoEntry, hrevert, Option.map_some]
  refine ⟨_, hdone, rfl,
    ⟨hundone.ctx_eq, hundone.entries_eq, hundone.revisions_eq, hundone.next_eq⟩, ?_⟩
  intro addr hdirty
  have hbefore : addr ∈ t.journal.dirties := Dirties.mem_of_mem_decrement hgood.count_pos hdirty
  rw [hreverted.frame] at hbefore
  rcases hreverted.keeps addr (hloaded addr hbefore) with hmem | rfl
  · exact hmem
  · -- the entry drops the object of an account that was not there, which is not dirty either
    have hexists := hgood.exists_of_dirty hdirty
    simp only [JournalEntry.undo] at hentry
    split at hentry
    · rw [← Option.some.inj hentry] at hexists
      simp at hexists
    · simp at hentry

structure Ordered (s : StateDB σ) : Prop where
  id_lt : ∀ revision ∈ s.validRevisions, revision.id < s.nextRevisionID
  index_le : ∀ revision ∈ s.validRevisions, revision.journalIndex ≤ s.journal.entries.length
  pairwise : s.validRevisions.Pairwise fun first second =>
    first.id < second.id ∧ first.journalIndex ≤ second.journalIndex

structure Since (env : Env σ) (base s : StateDB σ) : Prop where
  ctx_eq : s.ctx = base.ctx
  history : ∃ entries, s.journal.entries = base.journal.entries ++ entries ∧
    History (View.undoEntry env base.ctx.store) (View.Good env base.ctx.store) (base.view env) entries
      (s.view env)
  revisions : ∃ later, s.validRevisions = base.validRevisions ++ later ∧ ∀ revision ∈ later,
    base.nextRevisionID ≤ revision.id ∧ base.journal.entries.length ≤ revision.journalIndex
  next_le : base.nextRevisionID ≤ s.nextRevisionID
  ordered : Ordered s
  loaded : s.Loaded

theorem Since.good (hsince : Since env base s) : s.Good env := by
  obtain ⟨_, _, hhistory⟩ := hsince.history
  unfold StateDB.Good
  rw [hsince.ctx_eq]
  exact hhistory.good

theorem Since.refl (hgood : s.Good env) (hordered : Ordered s) (hloaded : s.Loaded) :
    Since env s s where
  ctx_eq := rfl
  history := ⟨[], by simp, .nil hgood⟩
  revisions := ⟨[], by simp, by simp⟩
  next_le := Nat.le_refl _
  ordered := hordered
  loaded := hloaded

theorem Since.self (hsince : Since env base s) : Since env s s :=
  .refl hsince.good hsince.ordered hsince.loaded

theorem Since.trans {s'' : StateDB σ} (hfirst : Since env base s) (hsecond : Since env s s'') :
    Since env base s'' := by
  obtain ⟨entries, hentries, hhistory⟩ := hfirst.history
  obtain ⟨entries', hentries', hhistory'⟩ := hsecond.history
  obtain ⟨later, hrevisions, hlater⟩ := hfirst.revisions
  obtain ⟨later', hrevisions', hlater'⟩ := hsecond.revisions
  rw [hfirst.ctx_eq] at hhistory'
  refine ⟨hsecond.ctx_eq.trans hfirst.ctx_eq, ⟨entries ++ entries', ?_, hhistory.trans hhistory'⟩,
    ⟨later ++ later', ?_, fun revision hmem => ?_⟩, hfirst.next_le.trans hsecond.next_le, hsecond.ordered,
    hsecond.loaded⟩
  · rw [hentries', hentries, List.append_assoc]
  · rw [hrevisions', hrevisions, List.append_assoc]
  · rcases List.mem_append.mp hmem with hold | hnew
    · exact hlater revision hold
    · obtain ⟨hid, hindex⟩ := hlater' revision hnew
      have hlength := congrArg List.length hentries
      rw [List.length_append] at hlength
      have hnext := hfirst.next_le
      omega

theorem Since.steps (hsince : Since env base s) (hsteps : Steps env s s') : Since env base s' := by
  obtain ⟨later, hextends⟩ := hsteps
  obtain ⟨entries, hentries, hhistory⟩ := hsince.history
  have hlater := hextends.history
  rw [hsince.ctx_eq] at hlater
  refine ⟨hextends.ctx_eq.trans hsince.ctx_eq, ⟨entries ++ later, ?_, hhistory.trans hlater⟩, ?_, ?_,
    ?_, ?_⟩
  · rw [hextends.entries_eq, hentries, List.append_assoc]
  · rw [hextends.revisions_eq]
    exact hsince.revisions
  · rw [hextends.next_eq]
    exact hsince.next_le
  · refine ⟨?_, fun revision hmem => ?_, ?_⟩
    · rw [hextends.revisions_eq, hextends.next_eq]
      exact hsince.ordered.id_lt
    · rw [hextends.revisions_eq] at hmem
      have hle := hsince.ordered.index_le revision hmem
      rw [hextends.entries_eq, List.length_append]
      omega
    · rw [hextends.revisions_eq]
      exact hsince.ordered.pairwise
  · intro addr hdirty
    rcases hextends.loaded addr hdirty with hbefore | hafter
    · exact hextends.keeps addr (hsince.loaded addr hbefore)
    · exact hafter

theorem Ordered.snapshot (hordered : Ordered s) : Ordered s.snapshot.1 where
  id_lt revision hmem := by
    change revision.id < s.nextRevisionID + 1
    rcases List.mem_append.mp hmem with hold | hnew
    · exact Nat.lt_succ_of_lt (hordered.id_lt revision hold)
    · rw [List.mem_singleton.mp hnew]
      exact Nat.lt_succ_self _
  index_le revision hmem := by
    rcases List.mem_append.mp hmem with hold | hnew
    · exact hordered.index_le revision hold
    · rw [List.mem_singleton.mp hnew]
      exact Nat.le_refl _
  pairwise := by
    refine List.pairwise_append.mpr ⟨hordered.pairwise, List.pairwise_singleton _ _, ?_⟩
    intro first hfirst second hsecond
    rw [List.mem_singleton.mp hsecond]
    exact ⟨hordered.id_lt first hfirst, hordered.index_le first hfirst⟩

theorem Since.snapshot (hsince : Since env base s) : Since env base s.snapshot.1 where
  ctx_eq := hsince.ctx_eq
  history := hsince.history
  revisions := by
    obtain ⟨later, hrevisions, hlater⟩ := hsince.revisions
    obtain ⟨entries, hentries, _⟩ := hsince.history
    refine ⟨later ++ [⟨s.nextRevisionID, s.journal.entries.length⟩], ?_, fun revision hmem => ?_⟩
    · simp [StateDB.snapshot, hrevisions]
    · rcases List.mem_append.mp hmem with hold | hnew
      · exact hlater revision hold
      · rw [List.mem_singleton.mp hnew]
        refine ⟨hsince.next_le, ?_⟩
        simp only [hentries, List.length_append]
        omega
  next_le := Nat.le_succ_of_le hsince.next_le
  ordered := hsince.ordered.snapshot
  loaded := hsince.loaded

/-- The journal since `base` is a history of the view, and a revert cuts it at the revision. -/
theorem Since.revertToSnapshot_eq (hsince : Since env base s) {before after : List Revision}
    {revision : Revision} (hsplit : s.validRevisions = before ++ revision :: after)
    (hindex : base.journal.entries.length ≤ revision.journalIndex) :
    ∃ s' entries later, s.revertToSnapshot env revision.id = some s' ∧
      s.journal.entries = base.journal.entries ++ entries ++ later ∧
      s'.journal.entries = base.journal.entries ++ entries ∧
      s'.journal.entries.length = revision.journalIndex ∧
      History (View.undoEntry env base.ctx.store) (View.Good env base.ctx.store) (base.view env) entries
        (s'.view env) ∧
      s'.validRevisions = before ∧ s'.ctx = s.ctx ∧ s'.nextRevisionID = s.nextRevisionID ∧
      s'.Loaded := by
  obtain ⟨all, hall, hhistory⟩ := hsince.history
  have hmem : revision ∈ s.validRevisions := by simp [hsplit]
  have hle := hsince.ordered.index_le revision hmem
  -- the binary search stops at the revision, since those before it have smaller identifiers
  have hsearch : s.validRevisions.findIdx (fun other => revision.id ≤ other.id) = before.length := by
    have hsmaller : ∀ other ∈ before, other.id < revision.id := by
      have hpairwise := hsince.ordered.pairwise
      rw [hsplit, List.pairwise_append] at hpairwise
      exact fun other hother => (hpairwise.2.2 other hother revision List.mem_cons_self).1
    rw [hsplit, List.findIdx_append, List.findIdx_eq_length_of_false]
    · simp [List.findIdx_cons]
    · intro other hother
      have := hsmaller other hother
      simp only [decide_eq_false_iff_not]
      omega
  have hget : s.validRevisions[before.length]? = some revision := by simp [hsplit]
  -- the journal from the revision on is the end of the history
  rw [hall, List.length_append] at hle
  let kept := revision.journalIndex - base.journal.entries.length
  have hdrop : s.journal.entries.drop revision.journalIndex = all.drop kept := by
    rw [hall, List.drop_append, List.drop_eq_nil_of_le hindex, List.nil_append]
  have htake : s.journal.entries.take revision.journalIndex =
      base.journal.entries ++ all.take kept := by
    rw [hall, List.take_append, List.take_of_length_le hindex]
  rw [← List.take_append_drop kept all] at hhistory
  obtain ⟨middle, hbefore, hafter⟩ := hhistory.split
  rw [← hsince.ctx_eq] at hafter
  obtain ⟨t, hundo, hview, hundone, hloaded⟩ := History.simulate (StateDB.view env)
    (StateDB.undoEntry env) (fun t => Undone s t ∧ t.Loaded)
    (fun {entry t v} hinv hentry hgood => by
      rw [← hinv.1.ctx_eq] at hentry hgood
      obtain ⟨t', ht', hview, hundone, hloaded⟩ := undoEntry_simulate hinv.2 hentry hgood
      exact ⟨t', ht', hview, hinv.1.trans hundone, hloaded⟩)
    hafter rfl ⟨⟨rfl, rfl, rfl, rfl⟩, hsince.loaded⟩
  subst hview
  have hreverted : s.revertToSnapshot env revision.id = some { t with
      journal := { t.journal with entries := t.journal.entries.take revision.journalIndex }
      validRevisions := t.validRevisions.take before.length } := by
    simp only [StateDB.revertToSnapshot, hsearch, hget, StateDB.revertJournal, hdrop, hundo, ne_eq,
      not_true_eq_false, if_false, Option.map_some]
  refine ⟨_, all.take kept, all.drop kept, hreverted, ?_, ?_, ?_, hbefore, ?_, hundone.ctx_eq,
    hundone.next_eq, hloaded⟩
  · rw [List.append_assoc, List.take_append_drop, hall]
  · rw [← htake, ← hundone.entries_eq]
  · simp only [hundone.entries_eq, List.length_take, hall, List.length_append]
    omega
  · simp [hundone.revisions_eq, hsplit]

theorem Since.revertToSnapshot_view (hsince : Since env s.snapshot.1 s') :
    ∃ s'', s'.revertToSnapshot env s.snapshot.2 = some s'' ∧ s''.view env = s.view env := by
  obtain ⟨later, hrevisions, _⟩ := hsince.revisions
  have hsplit : s'.validRevisions =
      s.validRevisions ++ ⟨s.snapshot.2, s.journal.entries.length⟩ :: later := by
    rw [hrevisions]
    simp [StateDB.snapshot]
  obtain ⟨s'', entries, _, hrevert, _, hentries, hlength, hhistory, _⟩ :=
    hsince.revertToSnapshot_eq hsplit (Nat.le_refl _)
  have hnone : entries = [] := by
    rw [hentries, List.length_append] at hlength
    change s.journal.entries.length + entries.length = s.journal.entries.length at hlength
    exact List.eq_nil_of_length_eq_zero (by omega)
  subst hnone
  refine ⟨s'', hrevert, ?_⟩
  generalize s''.view env = v at hhistory
  generalize hnil : ([] : List JournalEntry) = log at hhistory
  cases hhistory with
  | nil _ => rfl
  | snoc _ _ _ => simp at hnil

theorem revertToSnapshot_cases {revid : ℕ} (hrevert : s.revertToSnapshot env revid = some s') :
    ∃ revision t, s.validRevisions[s.validRevisions.findIdx fun other => revid ≤ other.id]? = some revision ∧
      revision.id = revid ∧
      undoAll (StateDB.undoEntry env) (s.journal.entries.drop revision.journalIndex) s = some t ∧
      s' = { t with
        journal := { t.journal with entries := t.journal.entries.take revision.journalIndex }
        validRevisions := t.validRevisions.take (s.validRevisions.findIdx fun other => revid ≤ other.id) } := by
  unfold StateDB.revertToSnapshot at hrevert
  simp only at hrevert
  split at hrevert
  · simp at hrevert
  · rename_i revision hget
    split at hrevert
    · simp at hrevert
    · rename_i hid
      obtain ⟨_, hjournal, rfl⟩ := Option.map_eq_some_iff.mp hrevert
      obtain ⟨t, hundo, rfl⟩ := Option.map_eq_some_iff.mp hjournal
      exact ⟨revision, t, hget, not_not.mp hid, hundo, rfl⟩

/-- A revert to a revision taken since `base` keeps what was there at `base`. -/
theorem Since.revert (hsince : Since env base s) (hbase : Ordered base) {revid : ℕ}
    (hrevid : base.nextRevisionID ≤ revid) (hrevert : s.revertToSnapshot env revid = some s') :
    Since env base s' := by
  obtain ⟨later, hrevisions, hlater⟩ := hsince.revisions
  obtain ⟨revision, _, hget, rfl, -, -⟩ := revertToSnapshot_cases hrevert
  have hmem := List.mem_of_getElem? hget
  rw [hrevisions] at hmem
  have hmem' : revision ∈ later := (List.mem_append.mp hmem).resolve_left fun hold => by
    have := hbase.id_lt revision hold
    omega
  obtain ⟨between, after, rfl⟩ := List.append_of_mem hmem'
  rw [← List.append_assoc] at hrevisions
  obtain ⟨t, entries, _, hreverted, _, hentries, hlength, hhistory, hvalid, hctx, hnext, hloaded⟩ :=
    hsince.revertToSnapshot_eq hrevisions (hlater revision hmem').2
  rw [hreverted] at hrevert
  obtain rfl := Option.some.inj hrevert
  have hpairwise := hsince.ordered.pairwise
  rw [hrevisions, List.pairwise_append] at hpairwise
  have hkept : ∀ other ∈ t.validRevisions, other ∈ s.validRevisions := fun other hother => by
    rw [hrevisions, ← hvalid]
    exact List.mem_append_left _ hother
  refine ⟨hctx.trans hsince.ctx_eq, ⟨entries, hentries, hhistory⟩, ⟨between, hvalid, ?_⟩, ?_,
    ⟨?_, ?_, ?_⟩, hloaded⟩
  · exact fun other hother => hlater other (List.mem_append_left _ hother)
  · rw [hnext]
    exact hsince.next_le
  · rw [hnext]
    exact fun other hother => hsince.ordered.id_lt other (hkept other hother)
  · intro other hother
    rw [hvalid] at hother
    rw [hlength]
    exact (hpairwise.2.2 other hother revision List.mem_cons_self).2
  · rw [hvalid]
    exact hpairwise.1

/-- The operation leaves the revisions below an identifier alone. -/
def Op.StaysAbove (revid : ℕ) : Op σ → Prop
  | .revertToSnapshot target => revid ≤ target
  | _ => True

theorem Since.exec (hsince : Since env base s) (hbase : Ordered base) {op : Op σ}
    (hop : op.StaysAbove base.nextRevisionID) (hexec : s.exec env op = some s') :
    Since env base s' := by
  cases op with
  | snapshot =>
    cases hexec
    exact hsince.snapshot
  | revertToSnapshot revid => exact hsince.revert hbase hop hexec
  | precompileCall body => exact hsince.steps (steps_precompileCall hsince.good hexec)
  | selfDestruct _ | selfDestruct6780 _ =>
    refine hsince.steps (steps_of_destructs hsince.good ?_ hexec)
    trivial
  | _ =>
    refine hsince.steps ((moves_of_exec ?_ hexec).steps hsince.good)
    trivial

theorem Since.run (hsince : Since env base s) (hbase : Ordered base) {ops : List (Op σ)}
    (hops : ∀ op ∈ ops, op.StaysAbove base.nextRevisionID) (hrun : s.run env ops = some s') :
    Since env base s' :=
  StateDB.run_invariant _ _ (fun hop hsince => hsince.exec hbase hop) hops hsince hrun

inductive Start (ctx : Context σ) : StateDB σ → Prop where
  | new (txConfig : TxConfig) : Start ctx (new ctx txConfig)
  | prepare {txConfig : TxConfig} {rules : StateDB.Rules} {sender coinbase : Address}
      {dst : Option Address} {precompiles : List Address} {list : List (Address × List Hash)}
      {s : StateDB σ} : (Statedb.new ctx txConfig).prepare rules sender coinbase dst precompiles list =
        some s → Start ctx s

theorem wellFormed_warmAccessList (rules : StateDB.Rules) (sender coinbase : Address)
    (dst : Option Address) (precompiles : List Address) (list : List (Address × List Hash)) :
    (StateDB.warmAccessList rules sender coinbase dst precompiles list).WellFormed := by
  unfold StateDB.warmAccessList
  apply AccessList.WellFormed.addAddresses
  have hwarm := AccessList.wellFormed_new.addAddresses ([sender] ++ dst.toList ++ precompiles)
  generalize AccessList.new.addAddresses ([sender] ++ dst.toList ++ precompiles) = al at hwarm ⊢
  induction list generalizing al with
  | nil => exact hwarm
  | cons el list ih => exact ih _ ((hwarm.addAddress el.1).addSlots el.1 el.2)

theorem since_start (hjournal : s.journal = ⟨[], ∅⟩) (hobjects : s.stateObjects = ∅)
    (hrevisions : s.validRevisions = []) (haccessList : s.accessList.WellFormed) : Since env s s := by
  have hgood : s.Good env := by
    refine ⟨haccessList, fun hcount => ?_, fun hdirty => ?_, fun {addr} _ => ?_⟩
    · simp [StateDB.view, hjournal] at hcount
    · rw [StateDB.view, hjournal] at hdirty
      exact absurd hdirty Finmap.notMem_empty
    · simp only [View.balance, StateDB.view, hobjects, Finmap.lookup_empty, Env.loadedView,
        Option.map_map, Env.keeperBalance]
      rfl
  refine .refl hgood ⟨?_, ?_, ?_⟩ fun addr hdirty => ?_
  · simp [hrevisions]
  · simp [hrevisions]
  · simp [hrevisions]
  · rw [hjournal] at hdirty
    exact absurd hdirty Finmap.notMem_empty

theorem Op.staysAbove_zero (op : Op σ) : op.StaysAbove 0 := by
  cases op with
  | revertToSnapshot revid => exact Nat.zero_le revid
  | _ => trivial

theorem Start.spec {ctx : Context σ} (hstart : Start ctx s) :
    s.accessList.WellFormed ∧ s.journal = ⟨[], ∅⟩ ∧ s.stateObjects = ∅ ∧ s.validRevisions = [] ∧
      s.nextRevisionID = 0 ∧ s.cache = none ∧ s.ctx = ctx := by
  cases hstart with
  | new txConfig => exact ⟨AccessList.wellFormed_new, rfl, rfl, rfl, rfl, rfl, rfl⟩
  | @prepare _ rules sender coinbase dst precompiles list s hprepare =>
    unfold StateDB.prepare at hprepare
    split at hprepare
    · simp at hprepare
    · cases hprepare
      refine ⟨?_, rfl, rfl, rfl, rfl, rfl, rfl⟩
      simp only
      split
      · exact wellFormed_warmAccessList rules sender coinbase dst precompiles list
      · exact AccessList.wellFormed_new

theorem Start.since (env : Env σ) {ctx : Context σ} (hstart : Start ctx s) : Since env s s := by
  obtain ⟨haccessList, hjournal, hobjects, hrevisions, -⟩ := hstart.spec
  exact since_start hjournal hobjects hrevisions haccessList

theorem Start.since_run {ctx : Context σ} {start : StateDB σ} (hstart : Start ctx start)
    {ops : List (Op σ)} (hrun : start.run env ops = some s) : Since env start s := by
  obtain ⟨-, -, -, -, hnext, -⟩ := hstart.spec
  have hsince := hstart.since env
  refine hsince.run hsince.ordered (fun op _ => ?_) hrun
  rw [hnext]
  exact Op.staysAbove_zero op

inductive Reachable (env : Env σ) : StateDB σ → Prop where
  | new (ctx : Context σ) (txConfig : TxConfig) : Reachable env (new ctx txConfig)
  | prepare {ctx : Context σ} {txConfig : TxConfig} {rules : StateDB.Rules} {sender coinbase : Address}
      {dst : Option Address} {precompiles : List Address} {list : List (Address × List Hash)}
      {s : StateDB σ} : (Statedb.new ctx txConfig).prepare rules sender coinbase dst precompiles list =
        some s → Reachable env s
  | exec {s s' : StateDB σ} {op : Op σ} :
      Reachable env s → s.exec env op = some s' → Reachable env s'

theorem Reachable.since (hreachable : Reachable env s) :
    ∃ start, Since env start s ∧ Ordered start ∧ start.nextRevisionID = 0 := by
  have hfrom : ∀ {ctx : Context σ} {start : StateDB σ}, Start ctx start →
      ∃ start', Since env start' start ∧ Ordered start' ∧ start'.nextRevisionID = 0 := by
    intro ctx start hstart
    obtain ⟨-, -, -, -, hnext, -⟩ := hstart.spec
    have hsince := hstart.since env
    exact ⟨start, hsince, hsince.ordered, hnext⟩
  induction hreachable with
  | new ctx txConfig => exact hfrom (.new txConfig)
  | prepare hprepare => exact hfrom (.prepare hprepare)
  | exec _ hexec ih =>
    obtain ⟨start, hsince, hordered, hnext⟩ := ih
    refine ⟨start, hsince.exec hordered ?_ hexec, hordered, hnext⟩
    rw [hnext]
    exact Op.staysAbove_zero _

/-- `RevertToSnapshot` to a snapshot of a reachable state brings back everything that could be observed
when it was taken, whatever operations ran since, precompile calls and nested snapshots included. Nested
reverts go to snapshots taken later. -/
theorem revertToSnapshot_exact (hreachable : Reachable env s) {ops : List (Op σ)}
    (hnested : ∀ revid, .revertToSnapshot revid ∈ ops → s.snapshot.2 < revid)
    (hrun : s.snapshot.1.run env ops = some s') :
    ∃ s'', s'.revertToSnapshot env s.snapshot.2 = some s'' ∧ s''.observe env = s.observe env := by
  obtain ⟨start, hstart, _⟩ := hreachable.since
  have htaken := hstart.snapshot
  have hsince : Since env s.snapshot.1 s' := by
    refine htaken.self.run htaken.ordered (fun op hop => ?_) hrun
    cases op with
    | revertToSnapshot revid => exact hnested revid hop
    | _ => trivial
  obtain ⟨s'', hrevert, hview⟩ := hsince.revertToSnapshot_view
  exact ⟨s'', hrevert, by rw [observe_eq, observe_eq, hview]⟩

/-- A contract is created, destructed and brought back by a nested revert, and a precompile writes to its
store; the revert takes all of it back. -/
theorem revertToSnapshot_exact_sample :
    let env := Env.blank ℕ
    let addr := bytesToAddress [1]
    let slot := bytesToHash [2]
    let ops : List (Op ℕ) :=
      [.createAccount addr, .createContract addr, .addBalance addr 5, .setState addr slot slot,
        .snapshot, .selfDestruct6780 addr, .revertToSnapshot 1, .addSlotToAccessList addr slot,
        .setCode addr (some [7]), .precompileCall [.write (· + 1), .cacheMultiStore], .addRefund 3]
    let s := new ⟨0, []⟩ ⟨zeroHash, zeroHash, 0, 0⟩
    ∃ s', s.snapshot.1.run env ops = some s' ∧ (s'.observe env).balance addr = 5 ∧
      (s'.observe env).cacheStore = 1 ∧ (s'.observe env).sortedDirties = [addr] ∧
      ∃ s'', s'.revertToSnapshot env s.snapshot.2 = some s'' ∧ s''.observe env = s.observe env := by
  intro env addr slot ops s
  have hsome : (s.snapshot.1.run env ops).isSome = true := by decide +kernel
  obtain ⟨s', hrun⟩ := Option.isSome_iff_exists.mp hsome
  have hobserved : (s.snapshot.1.run env ops).map (fun s' => ((s'.observe env).balance addr,
      (s'.observe env).cacheStore, (s'.observe env).sortedDirties)) = some (5, 1, [addr]) := by
    decide +kernel
  rw [hrun] at hobserved
  obtain ⟨hbalance, hstore, hdirties⟩ := Prod.mk.inj (Option.some.inj hobserved) |>.imp_right Prod.mk.inj
  refine ⟨s', hrun, hbalance, hstore, hdirties, ?_⟩
  refine revertToSnapshot_exact (.new _ _) (fun revid hmem => ?_) hrun
  have hone : revid = 1 := by simpa [ops] using hmem
  rw [hone]
  exact Nat.zero_lt_one

variable {store : σ} {start v v' : View σ}

def changesOf (entries : List JournalEntry) (addr : Address) : ℕ :=
  entries.countP fun entry => entry.dirtied = some addr

theorem Dirties.getD_lookup_decrement (dirties : Dirties) (dirtied : Option Address) (addr : Address) :
    ((dirties.decrement dirtied).lookup addr).getD 0 =
      (dirties.lookup addr).getD 0 - if dirtied = some addr then 1 else 0 := by
  cases dirtied with
  | none => simp [decrement]
  | some other =>
    by_cases heq : addr = other
    · grind [decrement, Finmap.lookup_erase, Finmap.lookup_insert]
    · grind [decrement, Finmap.lookup_erase_ne, Finmap.lookup_insert_of_ne]

theorem dirties_undo {entry : JournalEntry} (hundo : entry.undo env store v = some v') :
    v'.dirties = v.dirties := by
  cases entry <;> grind [JournalEntry.undo, View.updateAccount, View.setAccount, Option.map_eq_some_iff]

theorem getD_lookup_of_history {entries : List JournalEntry} (addr : Address)
    (hhistory : History (View.undoEntry env store) (View.Good env store) start entries v) :
    (v.dirties.lookup addr).getD 0 = (start.dirties.lookup addr).getD 0 + changesOf entries addr := by
  induction hhistory with
  | nil _ => simp [changesOf]
  | snoc _ hundo _ ih =>
    -- the history is told by undoing, so the count before the entry is the one after it less its own change
    obtain ⟨undone, hentry, rfl⟩ := Option.map_eq_some_iff.mp hundo
    rw [Dirties.getD_lookup_decrement, dirties_undo hentry] at ih
    simp only [changesOf, List.countP_append, List.countP_singleton, decide_eq_true_eq, Nat.cast_add,
      Nat.cast_ite, Nat.cast_one, Nat.cast_zero] at ih ⊢
    omega

/-- After any operations of a transaction, with reverts and precompile calls among them, `Commit` goes through
the accounts with a change still in the journal, counts their changes right and finds an object for each.
Every other account has the balance of the keeper. -/
theorem dirties_count_changes {ctx : Context σ} (hstart : Start ctx s) {ops : List (Op σ)}
    (hrun : s.run env ops = some s') (addr : Address) :
    (s'.journal.dirties.lookup addr).getD 0 = changesOf s'.journal.entries addr ∧
      (addr ∈ s'.journal.sortedDirties ↔ ∃ entry ∈ s'.journal.entries, entry.dirtied = some addr) ∧
      (addr ∈ s'.journal.sortedDirties → addr ∈ s'.stateObjects) ∧
      (addr ∉ s'.journal.sortedDirties → (s'.getBalance env addr).1 = env.keeperBalance ctx.store addr) := by
  obtain ⟨-, hjournal, -, -, -, -, rfl⟩ := hstart.spec
  have hsince := hstart.since_run hrun
  have hgood := hsince.good
  obtain ⟨entries, hentries, hhistory⟩ := hsince.history
  have hcount := getD_lookup_of_history addr hhistory
  simp only [hjournal, List.nil_append] at hentries
  simp only [StateDB.view, hjournal, Finmap.lookup_empty, Option.getD_none, zero_add, ← hentries] at hcount
  have hdirty : addr ∈ s'.journal.sortedDirties ↔ addr ∈ s'.journal.dirties := by
    rw [Journal.sortedDirties, Finset.mem_sort, Finmap.mem_keys]
  have hpos : addr ∈ s'.journal.dirties ↔ 0 < (s'.journal.dirties.lookup addr).getD 0 := by
    rw [← Finmap.lookup_isSome]
    cases hlookup : s'.journal.dirties.lookup addr with
    | none => simp
    | some count => simpa using hgood.count_pos hlookup
  refine ⟨hcount, ?_, fun hmem => hsince.loaded addr (hdirty.mp hmem), fun hclean => ?_⟩
  · rw [hdirty, hpos, hcount]
    simp [changesOf, List.countP_pos_iff]
  · have hbalance := hgood.balance_of_clean (mt hdirty.mpr hclean)
    rw [hsince.ctx_eq] at hbalance
    rw [← hbalance]
    exact congrArg (Option.getD · 0) (getStateObject_map env s' addr fun _ => rfl)

theorem dirties_count_changes_reverted :
    let addr := bytesToAddress [1]
    let ops : List (Op ℕ) := [.addBalance addr 5, .snapshot, .setNonce addr 1, .revertToSnapshot 0]
    let s := new ⟨0, []⟩ ⟨zeroHash, zeroHash, 0, 0⟩
    ∃ s', s.run (Env.blank ℕ) ops = some s' ∧
      (s'.journal.dirties.lookup addr).getD 0 = changesOf s'.journal.entries addr := by
  intro addr ops s
  have hsome : (s.run (Env.blank ℕ) ops).isSome = true := by decide +kernel
  obtain ⟨s', hrun⟩ := Option.isSome_iff_exists.mp hsome
  exact ⟨s', hrun, (dirties_count_changes (.new _) hrun addr).1⟩

end CosmosEvm.Statedb
