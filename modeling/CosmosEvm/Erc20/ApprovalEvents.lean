import CosmosEvm.Erc20.Allowances

namespace CosmosEvm.Erc20

/-- The allowances of one precompile, as a reader of its events knows them after one more event. -/
def TokenLog.replay (known : Address → Address → ℤ) : TokenLog → Address → Address → ℤ
  | .transfer _ _ _ => known
  | .approval owner spender value => fun owner' spender' =>
    if owner' = owner ∧ spender' = spender then value else known owner' spender'

namespace Precompile

variable {S : Type} (p : Precompile S)

/-- A call with what it emits. One that fails is reverted. -/
def call (st : TokenState S) (caller : Address) (method : TokenMethod) : TokenState S × List TokenLog :=
  match p.handleMethod st caller method with
  | .ok result => result
  | .error _ => (st, [])

def history (st : TokenState S) (calls : List (Address × TokenMethod)) : TokenState S × List TokenLog :=
  calls.foldl (fun past next =>
    let result := p.call past.1 next.1 next.2
    (result.1, past.2 ++ result.2)) (st, [])

structure EventsTell (st : TokenState S) (calls : List (Address × TokenMethod)) : Prop where
  reported : ∀ {done caller source recipient amount st' logs},
    done ++ [(caller, .transferFrom source recipient amount)] <+: calls →
    p.handleMethod (p.history st done).1 caller (.transferFrom source recipient amount) = .ok (st', logs) →
      .approval source caller (p.allowance st' source caller) ∈ logs
  reconstructed : ∀ {done}, done <+: calls →
    (p.history st done).2.foldl TokenLog.replay (p.allowance st) = p.allowance (p.history st done).1

def TakesWhole (st : TokenState S) (calls : List (Address × TokenMethod)) : Prop :=
  ∀ {done caller source recipient amount},
    done ++ [(caller, .transferFrom source recipient amount)] <+: calls →
    (∃ result, p.handleMethod (p.history st done).1 caller (.transferFrom source recipient amount) =
      .ok result) → wordAmount amount = p.allowance (p.history st done).1 source caller

variable {p} {st st' : TokenState S} {caller source recipient : Address} {amount : BitVec 256}
  {logs : List TokenLog}

theorem history_append_singleton (done : List (Address × TokenMethod)) (method : TokenMethod) :
    p.history st (done ++ [(caller, method)]) =
      let result := p.call (p.history st done).1 caller method
      (result.1, (p.history st done).2 ++ result.2) := by
  simp only [history, List.foldl_append, List.foldl_cons, List.foldl_nil]

theorem handleMethod_validAllowances (hvalid : st.store.ValidAllowances) {method : TokenMethod}
    (hok : p.handleMethod st caller method = .ok (st', logs)) : st'.store.ValidAllowances := by
  cases method with
  | transfer recipient amount =>
    obtain ⟨-, hstore, -⟩ := transfer_eq_ok_iff.mp hok
    rw [hstore]
    exact hvalid
  | transferFrom source recipient amount =>
    obtain ⟨-, hspend, -⟩ := transferFrom_eq_ok_iff.mp hok
    exact (spendAllowance_spec hvalid hspend).1
  | approve spender amount =>
    obtain ⟨happrove, -⟩ := approve_eq_ok_iff.mp hok
    exact (approveAllowance_spec hvalid (wordAmount_nonneg amount) happrove).1

theorem history_validAllowances (hvalid : st.store.ValidAllowances) (calls : List (Address × TokenMethod)) :
    (p.history st calls).1.store.ValidAllowances := by
  induction calls using List.reverseRecOn with
  | nil => exact hvalid
  | append_singleton done next ih =>
    rw [history_append_singleton]
    unfold call
    cases hok : p.handleMethod (p.history st done).1 next.1 next.2 with
    | error err => exact ih
    | ok result => exact handleMethod_validAllowances ih hok

/-- The event is right exactly where it says that nothing is left and nothing is. -/
theorem reported_iff (hvalid : st.store.ValidAllowances)
    (hok : p.handleMethod st caller (.transferFrom source recipient amount) = .ok (st', logs)) :
    .approval source caller (p.allowance st' source caller) ∈ logs ↔
      wordAmount amount = p.allowance st source caller := by
  obtain ⟨-, hspend, -, rfl⟩ := transferFrom_eq_ok_iff.mp hok
  have hleft : p.allowance st' source caller = p.allowance st source caller - wordAmount amount := by
    unfold allowance
    rw [(spendAllowance_spec hvalid hspend).2.2, if_pos ⟨rfl, rfl⟩]
  rw [hleft]
  simp only [List.mem_cons, List.not_mem_nil, or_false, reduceCtorEq, false_or, TokenLog.approval.injEq,
    true_and]
  omega

theorem replay_handleMethod (hvalid : st.store.ValidAllowances) {method : TokenMethod}
    (hok : p.handleMethod st caller method = .ok (st', logs))
    (hwhole : ∀ source recipient amount, method = .transferFrom source recipient amount →
      wordAmount amount = p.allowance st source caller) :
    logs.foldl TokenLog.replay (p.allowance st) = p.allowance st' := by
  funext owner spender
  unfold allowance
  cases method with
  | transfer recipient amount =>
    obtain ⟨-, hstore, -, rfl⟩ := transfer_eq_ok_iff.mp hok
    rw [hstore]
    rfl
  | transferFrom source recipient amount =>
    obtain ⟨-, hspend, -, rfl⟩ := transferFrom_eq_ok_iff.mp hok
    have hall : wordAmount amount = st.store.getAllowance p.address source caller := hwhole _ _ _ rfl
    rw [(spendAllowance_spec hvalid hspend).2.2, ← hall, sub_self]
    rfl
  | approve other amount =>
    obtain ⟨happrove, -, rfl⟩ := approve_eq_ok_iff.mp hok
    rw [(approveAllowance_spec hvalid (wordAmount_nonneg amount) happrove).2]
    rfl

theorem reconstructed_of_takesWhole (hvalid : st.store.ValidAllowances)
    {calls : List (Address × TokenMethod)} (hwhole : p.TakesWhole st calls) :
    (p.history st calls).2.foldl TokenLog.replay (p.allowance st) = p.allowance (p.history st calls).1 := by
  induction calls using List.reverseRecOn with
  | nil => rfl
  | append_singleton done next ih =>
    have hdone := ih fun hpast => hwhole (hpast.trans (List.prefix_append done [next]))
    rw [history_append_singleton, List.foldl_append, hdone]
    unfold call
    cases hok : p.handleMethod (p.history st done).1 next.1 next.2 with
    | error err => rfl
    | ok result =>
      apply replay_handleMethod (history_validAllowances hvalid done) hok
      intro source recipient amount hmethod
      obtain ⟨caller, method⟩ := next
      subst hmethod
      exact hwhole List.prefix_rfl ⟨result, hok⟩

/-- The approval events of a history tell the allowances exactly when every `transferFrom` in it takes the
whole allowance. -/
theorem eventsTell_iff_takesWhole (hvalid : st.store.ValidAllowances) (calls : List (Address × TokenMethod)) :
    p.EventsTell st calls ↔ p.TakesWhole st calls := by
  constructor
  · rintro htell done caller source recipient amount hpast ⟨⟨st', logs⟩, hok⟩
    exact (reported_iff (history_validAllowances hvalid done) hok).mp (htell.reported hpast hok)
  · intro hwhole
    refine ⟨?_, ?_⟩
    · intro done caller source recipient amount st' logs hpast hok
      exact (reported_iff (history_validAllowances hvalid done) hok).mpr (hwhole hpast ⟨_, hok⟩)
    · intro done hpast
      exact reconstructed_of_takesWhole hvalid fun hearlier => hwhole (hearlier.trans hpast)

end Precompile

theorem eventsTell_wholeAllowance : (nativePrecompile fun _ => true).EventsTell nativeState
    [(tokenOwner, .approve tokenSpender 5), (tokenSpender, .transferFrom tokenOwner tokenSpender 5)] := by
  refine (Precompile.eventsTell_iff_takesWhole nativeState_validAllowances _).mpr ?_
  rintro done caller source recipient amount ⟨rest, hrest⟩ -
  match done, hrest with
  | [], hrest => simp at hrest
  | [first], hrest =>
    simp only [List.cons_append, List.nil_append, List.cons.injEq, Prod.mk.injEq,
      TokenMethod.transferFrom.injEq] at hrest
    obtain ⟨rfl, ⟨rfl, rfl, rfl, rfl⟩, -⟩ := hrest
    decide +kernel
  | _ :: _ :: _, hrest => simp at hrest

/-- Of an allowance of five the spender takes two. The events tell that nothing is left, and three are. -/
theorem approval_event_hides_rest :
    let p := nativePrecompile fun _ => true
    let past := p.history nativeState
      [(tokenOwner, .approve tokenSpender 5), (tokenSpender, .transferFrom tokenOwner tokenSpender 2)]
    past.2.foldl TokenLog.replay (p.allowance nativeState) tokenOwner tokenSpender = 0 ∧
      p.allowance past.1 tokenOwner tokenSpender = 3 := by
  decide +kernel

end CosmosEvm.Erc20
