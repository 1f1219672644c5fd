import CosmosEvm.Statedb.Steps

namespace CosmosEvm.Statedb

variable {σ : Type} (env : Env σ) (s : StateDB σ) (addr : Address)

def Env.blankView (env : Env σ) (store : σ) (addr : Address) : AccountView :=
  (newObject env.emptyAccount).view env store addr

def View.nonce (v : View σ) (addr : Address) : UInt64 := ((v.account addr).map (·.nonce)).getD 0

theorem getNonce_spec : (s.getNonce env addr).1 = (s.view env).nonce addr ∧
    Loads env s (s.getNonce env addr).2 := by
  have hread : (s.getStateObject env addr).1.map (fun obj => obj.account.nonce) =
      ((s.view env).account addr).map (·.nonce) :=
    getStateObject_map env s addr fun obj => rfl
  refine ⟨?_, (getStateObject_spec env s addr).1⟩
  change ((s.getStateObject env addr).1.map fun obj => obj.account.nonce).getD 0 = _
  rw [hread]
  rfl

theorem exist_spec : (s.exist env addr).1 = ((s.view env).account addr).isSome ∧
    Loads env s (s.exist env addr).2 := by
  refine ⟨?_, (getStateObject_spec env s addr).1⟩
  rw [← (getStateObject_spec env s addr).2.1, Option.isSome_map]
  rfl

theorem view_account_addRefund (gas : UInt64) :
    ((s.addRefund gas).view env).account = (s.view env).account := rfl

theorem view_account_addAddressToAccessList :
    ((s.addAddressToAccessList addr).view env).account = (s.view env).account := by
  unfold StateDB.addAddressToAccessList
  simp only
  split <;> rfl

theorem view_account_prepare {s' : StateDB σ} {rules : StateDB.Rules} {sender coinbase : Address}
    {dst : Option Address} {precompiles : List Address} {list : List (Address × List Hash)}
    (hprepare : s.prepare rules sender coinbase dst precompiles list = some s') :
    (s'.view env).account = (s.view env).account := by
  unfold StateDB.prepare at hprepare
  split at hprepare
  · cases hprepare
  · cases hprepare
    rfl

theorem view_account_journaled (entry : JournalEntry) (obj : StateObject) :
    ((s.journaled entry addr obj).view env).account =
      Function.update (s.view env).account addr (some (obj.view env s.ctx.store addr)) :=
  congrArg View.account (view_setStateObject (s := s.append entry) obj)

theorem getOrNewStateObject_view : ∃ obj s', s.getOrNewStateObject env addr = (obj, s') ∧
    s'.ctx = s.ctx ∧
    obj.view env s.ctx.store addr =
      ((s.view env).account addr).getD (env.blankView s.ctx.store addr) ∧
    ∀ other, other ≠ addr → (s'.view env).account other = (s.view env).account other := by
  unfold StateDB.getOrNewStateObject StateDB.createObject
  rcases getStateObject_cases env s addr with ⟨s', hget, haccount, hloads⟩ |
    ⟨obj, s', hget, hloads, haccount, _⟩
  · have hagain : s'.getStateObject env addr = (none, s') := by
      rcases getStateObject_cases env s' addr with ⟨s'', hget', -, hloads'⟩ | ⟨obj, s'', -, -, hsome, -⟩
      · rw [hget']
        unfold StateDB.getStateObject at hget'
        split at hget'
        · cases hget'
        · split at hget' <;> cases hget'
          rfl
      · rw [hloads.view_eq, haccount] at hsome
        cases hsome
    simp only [hget, hagain]
    refine ⟨_, _, rfl, hloads.ctx_eq, ?_, fun other hne => ?_⟩
    · rw [haccount]
      rfl
    · rw [view_account_journaled, Function.update_of_ne hne, hloads.view_eq]
  · simp only [hget]
    refine ⟨obj, s', rfl, hloads.ctx_eq, ?_, fun other _ => ?_⟩
    · rw [haccount]
      rfl
    · rw [hloads.view_eq]

def StateDB.target (env : Env σ) (s : StateDB σ) (addr : Address) : AccountView :=
  ((s.view env).account addr).getD (env.blankView s.ctx.store addr)

theorem StateDB.balance_target (env : Env σ) (s : StateDB σ) (addr : Address) :
    (s.target env addr).balance = (s.view env).balance addr := by
  unfold StateDB.target View.balance
  cases (s.view env).account addr <;> rfl

theorem view_account_setNonce (nonce : UInt64) :
    ((s.setNonce env addr nonce).view env).account =
      Function.update (s.view env).account addr (some { s.target env addr with nonce }) := by
  obtain ⟨obj, s', hget, hctx, hobj, hother⟩ := getOrNewStateObject_view env s addr
  unfold StateDB.setNonce
  simp only [hget]
  rw [view_account_journaled, hctx, StateObject.view_setNonce, hobj]
  funext other
  by_cases heq : other = addr
  · rw [heq, Function.update_self, Function.update_self]
    rfl
  · rw [Function.update_of_ne heq, Function.update_of_ne heq, hother other heq]

theorem view_account_setCode (code : Option Bytes) :
    ((s.setCode env addr code).2.view env).account =
      Function.update (s.view env).account addr (some { s.target env addr with
        codeHash := env.keccak256 (code.getD [])
        code := StateObject.resolveCode env s.ctx.store code (env.keccak256 (code.getD [])) }) := by
  obtain ⟨obj, s', hget, hctx, hobj, hother⟩ := getOrNewStateObject_view env s addr
  unfold StateDB.setCode
  simp only [hget]
  rw [view_account_journaled, hctx, StateObject.view_setCode, StateObject.view_loadCode, hobj]
  funext other
  by_cases heq : other = addr
  · rw [heq, Function.update_self, Function.update_self]
    rfl
  · rw [Function.update_of_ne heq, Function.update_of_ne heq, hother other heq]

theorem view_balance_setNonce (nonce : UInt64) :
    ((s.setNonce env addr nonce).view env).balance = (s.view env).balance := by
  funext other
  unfold View.balance
  rw [view_account_setNonce]
  by_cases heq : other = addr
  · rw [heq, Function.update_self]
    exact s.balance_target env addr
  · rw [Function.update_of_ne heq]

theorem view_balance_setCode (code : Option Bytes) :
    ((s.setCode env addr code).2.view env).balance = (s.view env).balance := by
  funext other
  unfold View.balance
  rw [view_account_setCode]
  by_cases heq : other = addr
  · rw [heq, Function.update_self]
    exact s.balance_target env addr
  · rw [Function.update_of_ne heq]

end CosmosEvm.Statedb
