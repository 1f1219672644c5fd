import CosmosEvm.Statedb.Run

/-!
# What an operation can do

Every operation between two snapshots is a chain of moves, and perhaps a destruction: an object is loaded,
or replaced together with the journal entry that undoes it.
-/

namespace CosmosEvm.Statedb

variable {σ : Type}

def Op.Auxiliary : Op σ → Prop
  | .setTransientState _ _ _ | .addLog _ | .addRefund _ | .subRefund _ | .addAddressToAccessList _ |
    .addSlotToAccessList _ _ => True
  | _ => False

def Op.Destructs : Op σ → Prop
  | .selfDestruct _ | .selfDestruct6780 _ => True
  | _ => False

/-- The operation destructs no account, neither takes nor reverts to a snapshot, and calls no
precompile. -/
def Op.Simple : Op σ → Prop
  | .selfDestruct _ | .selfDestruct6780 _ | .snapshot | .revertToSnapshot _ | .precompileCall _ => False
  | _ => True

inductive Move (env : Env σ) (s : StateDB σ) : StateDB σ → Prop where
  | load {addr : Address} {account : Account} : s.stateObjects.lookup addr = none →
      env.keeper.getAccount s.ctx.store addr = some account →
        Move env s (s.setStateObject addr (newObject account))
  | loadCode {addr : Address} {obj : StateObject} : s.stateObjects.lookup addr = some obj →
      Move env s (s.setStateObject addr (obj.loadCode env s.ctx.store).2)
  | loadState {addr : Address} {obj : StateObject} (key : Hash) :
      s.stateObjects.lookup addr = some obj →
        Move env s (s.setStateObject addr (obj.getState env s.ctx.store addr key).2)
  | loadCommittedState {addr : Address} {obj : StateObject} (key : Hash) :
      s.stateObjects.lookup addr = some obj →
        Move env s (s.setStateObject addr (obj.getCommittedState env s.ctx.store addr key).2)
  | create {addr : Address} : s.stateObjects.lookup addr = none →
      env.keeper.getAccount s.ctx.store addr = none →
        Move env s (s.journaled (.createObjectChange addr) addr (newObject env.emptyAccount))
  | reset {addr : Address} {obj : StateObject} : s.stateObjects.lookup addr = some obj →
      Move env s (s.journaled (.resetObjectChange addr obj) addr
        ((newObject env.emptyAccount).setBalance obj.account.balance))
  | createContract {addr : Address} {obj : StateObject} : s.stateObjects.lookup addr = some obj →
      obj.newContract = false →
        Move env s (s.journaled (.createContractChange addr) addr { obj with newContract := true })
  | setBalance {addr : Address} {obj : StateObject} (amount : BitVec 256) :
      s.stateObjects.lookup addr = some obj → Move env s (s.setBalance addr obj amount).2
  | setNonce {addr : Address} {obj : StateObject} (nonce : UInt64) :
      s.stateObjects.lookup addr = some obj →
        Move env s (s.journaled (.nonceChange addr obj.account.nonce) addr (obj.setNonce nonce))
  | setCode {addr : Address} {obj : StateObject} (code : Option Bytes) :
      s.stateObjects.lookup addr = some obj →
        Move env s (s.journaled
          (.codeChange addr (obj.loadCode env s.ctx.store).1 obj.account.codeHash) addr
          ((obj.loadCode env s.ctx.store).2.setCode (env.keccak256 (code.getD [])) code))
  | setState {addr : Address} {obj : StateObject} (key value : Hash) :
      s.stateObjects.lookup addr = some obj →
        Move env s (s.journaled
          (.storageChange addr key (obj.getState env s.ctx.store addr key).1) addr
          ((obj.getState env s.ctx.store addr key).2.setState key value))
  | auxiliary {op : Op σ} {s' : StateDB σ} : op.Auxiliary → s.exec env op = some s' → Move env s s'

abbrev Moves (env : Env σ) : StateDB σ → StateDB σ → Prop := Relation.ReflTransGen (Move env)

variable {env : Env σ} {s s' : StateDB σ}

theorem Moves.invariant {invariant : StateDB σ → Prop}
    (hmove : ∀ {s s' : StateDB σ}, invariant s → Move env s s' → invariant s')
    (hmoves : Moves env s s') (hstart : invariant s) : invariant s' := by
  induction hmoves with
  | refl => exact hstart
  | tail _ hlast ih => exact hmove ih hlast

theorem getStateObject_moves (env : Env σ) (s : StateDB σ) (addr : Address) :
    (s.getStateObject env addr = (none, s) ∧ s.stateObjects.lookup addr = none ∧
      env.keeper.getAccount s.ctx.store addr = none) ∨
    ∃ obj s', s.getStateObject env addr = (some obj, s') ∧ Moves env s s' ∧
      s'.stateObjects.lookup addr = some obj := by
  unfold StateDB.getStateObject
  cases hlookup : s.stateObjects.lookup addr with
  | some obj => exact .inr ⟨obj, s, rfl, .refl, hlookup⟩
  | none =>
    cases haccount : env.keeper.getAccount s.ctx.store addr with
    | none => exact .inl ⟨rfl, rfl, rfl⟩
    | some account =>
      exact .inr ⟨_, _, rfl, .single (.load hlookup haccount), Finmap.lookup_insert _⟩

theorem getOrNewStateObject_moves (env : Env σ) (s : StateDB σ) (addr : Address) :
    ∃ obj s', s.getOrNewStateObject env addr = (obj, s') ∧ Moves env s s' ∧
      s'.stateObjects.lookup addr = some obj := by
  unfold StateDB.getOrNewStateObject StateDB.createObject
  rcases getStateObject_moves env s addr with ⟨hget, hlookup, haccount⟩ |
    ⟨obj, s', hget, hmoves, hlookup⟩
  · simp only [hget]
    exact ⟨_, _, rfl, .single (.create hlookup haccount), Finmap.lookup_insert _⟩
  · simp only [hget]
    exact ⟨obj, s', rfl, hmoves, hlookup⟩

theorem moves_getStateObject (env : Env σ) (s : StateDB σ) (addr : Address) :
    Moves env s (s.getStateObject env addr).2 := by
  rcases getStateObject_moves env s addr with ⟨hget, _⟩ | ⟨obj, s', hget, hmoves, _⟩
  · rw [hget]
  · rw [hget]
    exact hmoves

theorem moves_createAccount (env : Env σ) (s : StateDB σ) (addr : Address) :
    Moves env s (s.createAccount env addr) := by
  unfold StateDB.createAccount StateDB.createObject
  rcases getStateObject_moves env s addr with ⟨hget, hlookup, haccount⟩ |
    ⟨obj, s', hget, hmoves, hlookup⟩
  · simp only [hget]
    exact .single (.create hlookup haccount)
  · have hreset : Move env s' _ := .reset hlookup
    simp only [hget]
    refine hmoves.tail ?_
    convert hreset using 1
    simp [StateDB.journaled, StateDB.setStateObject, Finmap.insert_insert]

theorem moves_createContract {addr : Address} (hcreate : s.createContract env addr = some s') :
    Moves env s s' := by
  unfold StateDB.createContract at hcreate
  rcases getStateObject_moves env s addr with ⟨hget, _⟩ | ⟨obj, loaded, hget, hmoves, hlookup⟩
  · simp [hget] at hcreate
  · simp only [hget] at hcreate
    split at hcreate
    · cases hcreate
      exact hmoves
    · rename_i hnew
      cases hcreate
      exact hmoves.tail (.createContract hlookup (by simpa using hnew))

def StateDB.destruct (s : StateDB σ) (addr : Address) (obj : StateObject) : StateDB σ :=
  s.journaled (.selfDestructChange addr obj.selfDestructed obj.account.balance) addr
    ({ obj with selfDestructed := true }.setBalance 0)

theorem selfDestruct_cases (env : Env σ) (s : StateDB σ) (addr : Address) :
    Moves env s (s.selfDestruct env addr).2 ∨ ∃ middle obj, Moves env s middle ∧
      middle.stateObjects.lookup addr = some obj ∧ (s.selfDestruct env addr).2 = middle.destruct addr obj := by
  unfold StateDB.selfDestruct
  rcases getStateObject_moves env s addr with ⟨hget, _⟩ | ⟨obj, s', hget, hmoves, hlookup⟩
  · simp only [hget]
    exact .inl .refl
  · simp only [hget]
    exact .inr ⟨s', obj, hmoves, hlookup, rfl⟩

theorem destructs_cases {op : Op σ} (hop : op.Destructs) (hexec : s.exec env op = some s') :
    Moves env s s' ∨ ∃ middle addr obj, Moves env s middle ∧
      middle.stateObjects.lookup addr = some obj ∧ s' = middle.destruct addr obj := by
  cases op with
  | selfDestruct addr =>
    cases hexec
    exact (selfDestruct_cases env s addr).imp_right fun ⟨middle, obj, h⟩ => ⟨middle, addr, obj, h⟩
  | selfDestruct6780 addr =>
    cases hexec
    unfold StateDB.selfDestruct6780
    rcases getStateObject_moves env s addr with ⟨hget, _⟩ | ⟨obj, loaded, hget, hmoves, _⟩
    · simp only [hget]
      exact .inl .refl
    · simp only [hget]
      split
      · rcases selfDestruct_cases env loaded addr with hmore | ⟨middle, obj', hmore, hlast⟩
        · exact .inl (hmoves.trans hmore)
        · exact .inr ⟨middle, addr, obj', hmoves.trans hmore, hlast⟩
      · exact .inl hmoves
  | _ => exact hop.elim

section

variable (env : Env σ) (s : StateDB σ) (addr : Address)

theorem moves_addBalance (amount : BitVec 256) : Moves env s (s.addBalance env addr amount).2 := by
  obtain ⟨obj, s', hget, hmoves, hlookup⟩ := getOrNewStateObject_moves env s addr
  unfold StateDB.addBalance
  simp only [hget]
  split
  · exact hmoves
  · exact hmoves.tail (.setBalance _ hlookup)

theorem moves_subBalance (amount : BitVec 256) : Moves env s (s.subBalance env addr amount).2 := by
  obtain ⟨obj, s', hget, hmoves, hlookup⟩ := getOrNewStateObject_moves env s addr
  unfold StateDB.subBalance
  simp only [hget]
  split
  · exact hmoves
  · exact hmoves.tail (.setBalance _ hlookup)

theorem moves_setNonce (nonce : UInt64) : Moves env s (s.setNonce env addr nonce) := by
  obtain ⟨obj, s', hget, hmoves, hlookup⟩ := getOrNewStateObject_moves env s addr
  unfold StateDB.setNonce
  simp only [hget]
  exact hmoves.tail (.setNonce nonce hlookup)

theorem moves_setCode (code : Option Bytes) : Moves env s (s.setCode env addr code).2 := by
  obtain ⟨obj, s', hget, hmoves, hlookup⟩ := getOrNewStateObject_moves env s addr
  unfold StateDB.setCode
  simp only [hget]
  exact hmoves.tail (.setCode code hlookup)

theorem moves_setState (key value : Hash) : Moves env s (s.setState env addr key value).2 := by
  obtain ⟨obj, s', hget, hmoves, hlookup⟩ := getOrNewStateObject_moves env s addr
  unfold StateDB.setState
  simp only [hget]
  split
  · exact hmoves.tail (.loadState key hlookup)
  · exact hmoves.tail (.setState key value hlookup)

theorem moves_getCode : Moves env s (s.getCode env addr).2 := by
  unfold StateDB.getCode
  rcases getStateObject_moves env s addr with ⟨hget, _⟩ | ⟨obj, s', hget, hmoves, hlookup⟩
  · simp only [hget]
    exact .refl
  · simp only [hget]
    exact hmoves.tail (.loadCode hlookup)

theorem moves_getState (key : Hash) : Moves env s (s.getState env addr key).2 := by
  unfold StateDB.getState
  rcases getStateObject_moves env s addr with ⟨hget, _⟩ | ⟨obj, s', hget, hmoves, hlookup⟩
  · simp only [hget]
    exact .refl
  · simp only [hget]
    exact hmoves.tail (.loadState key hlookup)

theorem moves_getCommittedState (key : Hash) : Moves env s (s.getCommittedState env addr key).2 := by
  unfold StateDB.getCommittedState
  rcases getStateObject_moves env s addr with ⟨hget, _⟩ | ⟨obj, s', hget, hmoves, hlookup⟩
  · simp only [hget]
    exact .refl
  · simp only [hget]
    exact hmoves.tail (.loadCommittedState key hlookup)

end

theorem moves_of_exec {op : Op σ} (hop : op.Simple) (hexec : s.exec env op = some s') :
    Moves env s s' := by
  have htotal : ∀ {t : StateDB σ}, Moves env s t → some t = some s' → Moves env s s' :=
    fun hmoves heq => Option.some.inj heq ▸ hmoves
  cases op with
  | addBalance addr amount => exact htotal (moves_addBalance env s addr amount) hexec
  | subBalance addr amount => exact htotal (moves_subBalance env s addr amount) hexec
  | setNonce addr nonce => exact htotal (moves_setNonce env s addr nonce) hexec
  | setCode addr code => exact htotal (moves_setCode env s addr code) hexec
  | setState addr key value => exact htotal (moves_setState env s addr key value) hexec
  | createAccount addr => exact htotal (moves_createAccount env s addr) hexec
  | createContract addr => exact moves_createContract hexec
  | exist addr => exact htotal (moves_getStateObject env s addr) hexec
  | getCode addr => exact htotal (moves_getCode env s addr) hexec
  | getState addr key => exact htotal (moves_getState env s addr key) hexec
  | getCommittedState addr key => exact htotal (moves_getCommittedState env s addr key) hexec
  | setTransientState _ _ _ | addLog _ | addRefund _ | subRefund _ | addAddressToAccessList _
  | addSlotToAccessList _ _ =>
    refine .single (.auxiliary ?_ hexec)
    trivial
  | selfDestruct _ | selfDestruct6780 _ | snapshot | revertToSnapshot _ | precompileCall _ =>
    exact hop.elim

def JournalEntry.Auxiliary : JournalEntry → Prop
  | .transientStorageChange _ _ _ | .refundChange _ | .addLogChange | .accessListAddAccountChange _ |
    .accessListAddSlotChange _ _ => True
  | _ => False

structure SameAccounts (s s' : StateDB σ) : Prop where
  ctx_eq : s'.ctx = s.ctx
  cache_eq : s'.cache = s.cache
  objects_eq : s'.stateObjects = s.stateObjects
  dirties_eq : s'.journal.dirties = s.journal.dirties
  entries : ∃ entries, s'.journal.entries = s.journal.entries ++ entries ∧
    ∀ entry ∈ entries, entry.Auxiliary

theorem SameAccounts.refl (s : StateDB σ) : SameAccounts s s :=
  ⟨rfl, rfl, rfl, rfl, [], by simp, by simp⟩

theorem SameAccounts.append (hsame : SameAccounts s s') (entry : JournalEntry) (hentry : entry.Auxiliary) :
    SameAccounts s (s'.append entry) := by
  obtain ⟨hctx, hcache, hobjects, hdirties, entries, hentries, hall⟩ := hsame
  refine ⟨hctx, hcache, hobjects, ?_, entries ++ [entry], ?_, fun other hmem => ?_⟩
  · rw [← hdirties]
    cases entry <;> first | rfl | exact hentry.elim
  · rw [← List.append_assoc, ← hentries]
    rfl
  · rcases List.mem_append.mp hmem with hold | hnew
    · exact hall other hold
    · exact List.mem_singleton.mp hnew ▸ hentry

theorem sameAccounts_of_auxiliary {op : Op σ} (hop : op.Auxiliary) (hexec : s.exec env op = some s') :
    SameAccounts s s' := by
  -- an appended entry, and a field that no account depends on
  have happend : ∀ (entry : JournalEntry) {t : StateDB σ}, entry.Auxiliary → t.ctx = s.ctx →
      t.cache = s.cache → t.stateObjects = s.stateObjects → t.journal = s.journal.append entry →
        SameAccounts s t := by
    intro entry t hentry hctx hcache hobjects hjournal
    have hsame := (SameAccounts.refl s).append entry hentry
    exact ⟨hctx, hcache, hobjects, hjournal ▸ hsame.dirties_eq, hjournal ▸ hsame.entries⟩
  cases op with
  | setTransientState addr key value =>
    cases hexec
    unfold StateDB.setTransientState
    simp only
    split
    · exact .refl s
    · exact happend (.transientStorageChange addr key _) trivial rfl rfl rfl rfl
  | addLog log =>
    cases hexec
    exact happend .addLogChange trivial rfl rfl rfl rfl
  | addRefund gas =>
    cases hexec
    exact happend (.refundChange s.refund) trivial rfl rfl rfl rfl
  | subRefund gas =>
    simp only [StateDB.exec, StateDB.subRefund] at hexec
    split at hexec
    · simp at hexec
    · cases hexec
      exact happend (.refundChange s.refund) trivial rfl rfl rfl rfl
  | addAddressToAccessList addr =>
    cases hexec
    unfold StateDB.addAddressToAccessList
    simp only
    split
    · exact happend (.accessListAddAccountChange addr) trivial rfl rfl rfl rfl
    · exact .refl s
  | addSlotToAccessList addr slot =>
    cases hexec
    unfold StateDB.addSlotToAccessList
    simp only
    have hbase : ∀ accessList, SameAccounts s { s with accessList } := fun _ =>
      ⟨rfl, rfl, rfl, rfl, [], by simp, by simp⟩
    split
    · split
      · exact ((hbase _).append (.accessListAddAccountChange addr) trivial).append
          (.accessListAddSlotChange addr slot) trivial
      · exact (hbase _).append (.accessListAddSlotChange addr slot) trivial
    · split
      · exact (hbase _).append (.accessListAddAccountChange addr) trivial
      · exact hbase _
  | _ => exact hop.elim

structure SameTx (s s' : StateDB σ) : Prop where
  config_eq : s'.txConfig = s.txConfig
  counter_eq : s'.precompileCallsCounter = s.precompileCallsCounter

theorem SameTx.trans {s'' : StateDB σ} (hfirst : SameTx s s') (hsecond : SameTx s' s'') : SameTx s s'' :=
  ⟨hsecond.config_eq.trans hfirst.config_eq, hsecond.counter_eq.trans hfirst.counter_eq⟩

theorem sameTx_of_auxiliary {op : Op σ} (hop : op.Auxiliary) (hexec : s.exec env op = some s') :
    SameTx s s' ∧ (s'.logs = s.logs ∨ ∃ log, s' = s.addLog log) := by
  cases op with
  | setTransientState addr key value =>
    cases hexec
    unfold StateDB.setTransientState
    simp only
    split <;> exact ⟨⟨rfl, rfl⟩, .inl rfl⟩
  | addLog log =>
    cases hexec
    exact ⟨⟨rfl, rfl⟩, .inr ⟨log, rfl⟩⟩
  | addRefund gas =>
    cases hexec
    exact ⟨⟨rfl, rfl⟩, .inl rfl⟩
  | subRefund gas =>
    simp only [StateDB.exec, StateDB.subRefund] at hexec
    split at hexec
    · simp at hexec
    · cases hexec
      exact ⟨⟨rfl, rfl⟩, .inl rfl⟩
  | addAddressToAccessList addr =>
    cases hexec
    unfold StateDB.addAddressToAccessList
    simp only
    split <;> exact ⟨⟨rfl, rfl⟩, .inl rfl⟩
  | addSlotToAccessList addr slot =>
    cases hexec
    unfold StateDB.addSlotToAccessList
    simp only
    split
    · split <;> exact ⟨⟨rfl, rfl⟩, .inl rfl⟩
    · split <;> exact ⟨⟨rfl, rfl⟩, .inl rfl⟩
  | _ => exact hop.elim

theorem Move.sameTx (hmove : Move env s s') :
    SameTx s s' ∧ (s'.logs = s.logs ∨ ∃ log, s' = s.addLog log) := by
  cases hmove with
  | auxiliary hop hexec => exact sameTx_of_auxiliary hop hexec
  | _ => exact ⟨⟨rfl, rfl⟩, .inl rfl⟩

theorem Moves.sameTx (hmoves : Moves env s s') : SameTx s s' :=
  Moves.invariant (fun hsame hmove => hsame.trans hmove.sameTx.1) hmoves ⟨rfl, rfl⟩

end CosmosEvm.Statedb
