import CosmosEvm.Statedb.PrecompileEvents

namespace CosmosEvm.Statedb

open UndoLog

variable {σ : Type} {env : Env σ} {s s' : StateDB σ} {config : TxConfig}

structure Numbered (config : TxConfig) (s : StateDB σ) : Prop where
  config_eq : s.txConfig = config
  log : ∀ i log, s.logs[i]? = some log → log.txHash = config.txHash ∧ log.txIndex = config.txIndex ∧
    log.index = config.logIndex + i

theorem Numbered.of_prefix (hnumbered : Numbered config s) (hsame : SameTx s s') (hlogs : s'.logs <+: s.logs) :
    Numbered config s' where
  config_eq := hsame.config_eq.trans hnumbered.config_eq
  log i log hget := by
    obtain ⟨rest, hrest⟩ := hlogs
    have hlt := (List.getElem?_eq_some_iff.mp hget).1
    refine hnumbered.log i log ?_
    rw [← hrest, List.getElem?_append_left hlt, hget]

theorem Numbered.addLog (hnumbered : Numbered config s) (log : Log) : Numbered config (s.addLog log) where
  config_eq := hnumbered.config_eq
  log i other hget := by
    change (s.logs ++ [_])[i]? = some other at hget
    have hle : i < s.logs.length + 1 := by simpa using (List.getElem?_eq_some_iff.mp hget).1
    rcases Nat.lt_succ_iff_lt_or_eq.mp hle with hlt | rfl
    · rw [List.getElem?_append_left hlt] at hget
      exact hnumbered.log i other hget
    · rw [List.getElem?_concat_length] at hget
      cases hget
      rw [← hnumbered.config_eq]
      exact ⟨rfl, rfl, rfl⟩

theorem Numbered.moves (hnumbered : Numbered config s) (hmoves : Moves env s s') : Numbered config s' := by
  refine Moves.invariant (fun hnumbered hmove => ?_) hmoves hnumbered
  obtain ⟨hsame, hlogs | ⟨log, rfl⟩⟩ := hmove.sameTx
  · exact hnumbered.of_prefix hsame (hlogs ▸ List.prefix_rfl)
  · exact hnumbered.addLog log

theorem Numbered.revert (hnumbered : Numbered config s) {revid : ℕ}
    (hrevert : s.revertToSnapshot env revid = some s') : Numbered config s' := by
  obtain ⟨revision, t, -, -, hundo, rfl⟩ := revertToSnapshot_cases hrevert
  have hstep : ∀ {entry : JournalEntry} {t t' : StateDB σ}, True → Numbered config t →
      StateDB.undoEntry env entry t = some t' → Numbered config t' := by
    intro entry t t' _ hnumbered hundo
    obtain ⟨reverted, hrevert, rfl⟩ := Option.map_eq_some_iff.mp hundo
    have hreverted := reverted_of_revert hrevert
    refine hnumbered.of_prefix ⟨by rw [hreverted.frame], by rw [hreverted.frame]⟩ ?_
    rcases hreverted.logs_eq with hsame | hdropped
    · exact hsame ▸ List.prefix_rfl
    · exact hdropped ▸ List.dropLast_prefix _
  have hundone := undoAll_invariant hstep (fun _ _ => trivial) hnumbered hundo
  exact ⟨hundone.config_eq, hundone.log⟩

theorem Numbered.exec (hnumbered : Numbered config s) {op : Op σ} (hexec : s.exec env op = some s') :
    Numbered config s' := by
  have hdestructs : op.Destructs → Numbered config s' := by
    intro hop
    rcases destructs_cases hop hexec with hmoves | ⟨middle, addr, obj, hmoves, -, rfl⟩
    · exact hnumbered.moves hmoves
    · have hmiddle := hnumbered.moves hmoves
      exact ⟨hmiddle.config_eq, hmiddle.log⟩
  cases op with
  | precompileCall body =>
    obtain ⟨cache, counter, rfl, -, -⟩ := precompileCall_cases hexec
    exact ⟨hnumbered.config_eq, hnumbered.log⟩
  | snapshot =>
    cases hexec
    exact ⟨hnumbered.config_eq, hnumbered.log⟩
  | revertToSnapshot revid => exact hnumbered.revert hexec
  | selfDestruct _ | selfDestruct6780 _ => exact hdestructs trivial
  | _ =>
    refine hnumbered.moves (moves_of_exec ?_ hexec)
    trivial

theorem Numbered.run (hnumbered : Numbered config s) {ops : List (Op σ)} (hrun : s.run env ops = some s') :
    Numbered config s' :=
  StateDB.run_invariant (fun _ => True) _ (fun _ hnumbered => hnumbered.exec) (fun _ _ => trivial) hnumbered hrun

def Op.Starts : Op σ → Prop
  | .exist _ | .getCode _ | .addAddressToAccessList _ | .addRefund _ | .setNonce _ _ | .setCode _ _ => True
  | _ => False

theorem getStateObject_logs (env : Env σ) (s : StateDB σ) (addr : Address) :
    (s.getStateObject env addr).2.logs = s.logs := by
  rw [(getStateObject_spec env s addr).1.frame]

theorem getOrNewStateObject_logs (env : Env σ) (s : StateDB σ) (addr : Address) :
    (s.getOrNewStateObject env addr).2.logs = s.logs := by
  unfold StateDB.getOrNewStateObject StateDB.createObject
  rcases getStateObject_moves env s addr with ⟨hget, -⟩ | ⟨obj, loaded, hget, -⟩
  · simp only [hget]
    rfl
  · have hlogs := getStateObject_logs env s addr
    rw [hget] at hlogs
    simp only [hget]
    exact hlogs

theorem logs_of_starts {op : Op σ} (hop : op.Starts) (hexec : s.exec env op = some s') :
    s'.logs = s.logs := by
  cases op with
  | exist addr =>
    cases hexec
    exact getStateObject_logs env s addr
  | getCode addr =>
    cases hexec
    rw [(getCode_spec env s addr).2.frame]
  | addAddressToAccessList addr =>
    cases hexec
    unfold StateDB.addAddressToAccessList
    simp only
    split <;> rfl
  | addRefund gas =>
    cases hexec
    rfl
  | setNonce addr nonce | setCode addr code =>
    cases hexec
    exact getOrNewStateObject_logs env s addr
  | _ => exact hop.elim

theorem logs_of_runs_starts (hruns : StateDB.Runs env Op.Starts s s') : s'.logs = s.logs := by
  obtain ⟨ops, hops, hrun⟩ := hruns
  exact StateDB.run_invariant Op.Starts (fun other => other.logs = s.logs)
    (fun hop hlogs hexec => (logs_of_starts hop hexec).trans hlogs) hops rfl hrun

/-- An execution that fails: it ends before its snapshot is taken, or is reverted to it. -/
def Fails (env : Env σ) (s s' : StateDB σ) : Prop :=
  ∃ before, StateDB.Runs env Op.Starts s before ∧ (s' = before ∨ ∃ ops after,
    (∀ op ∈ ops, op.StaysAbove before.snapshot.1.nextRevisionID) ∧
      before.snapshot.1.run env ops = some after ∧
      after.revertToSnapshot env before.snapshot.2 = some s')

theorem Fails.logs_eq {ctx : Context σ} {start : StateDB σ} (hstart : Start ctx start)
    {allowed : Op σ → Prop} (hruns : StateDB.Runs env allowed start s) (hfails : Fails env s s') :
    s'.logs = s.logs := by
  obtain ⟨before, hbefore, rfl | ⟨ops, after, hops, hrun, hrevert⟩⟩ := hfails
  · exact logs_of_runs_starts hbefore
  obtain ⟨first, -, hfirst⟩ := hruns
  obtain ⟨second, hsecond, hmiddle⟩ := hbefore
  have hall : start.run env (first ++ second) = some before := by
    rw [StateDB.run_append, hfirst, Option.bind_some, hmiddle]
  have hsnapshot := ((hstart.since_run hall).self.snapshot).self
  obtain ⟨s'', hreverted, hview⟩ := (hsnapshot.run hsnapshot.ordered hops hrun).revertToSnapshot_view
  rw [hrevert] at hreverted
  cases hreverted
  rw [← logs_of_runs_starts ⟨second, hsecond, hmiddle⟩]
  exact congrArg View.logs hview

end CosmosEvm.Statedb
