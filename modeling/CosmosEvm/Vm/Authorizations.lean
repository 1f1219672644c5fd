import CosmosEvm.Statedb.Writes
import CosmosEvm.Vm.Transaction

namespace CosmosEvm.Vm

open Result BankKeeper PreciseBank.Keeper Statedb

section Processing

variable {σ : Type} (env : Env σ) (cfg : EvmConfig)

/-- The authorizations that are valid when they are processed, with their authorities. -/
def validAuthorizations : StateDB σ → List SetCodeAuthorization → List (SetCodeAuthorization × Address)
  | _, [] => []
  | s, auth :: auths =>
    match (validateAuthorization env cfg s auth).1 with
    | .ok authority =>
      (auth, authority) :: validAuthorizations (applyAuthorization env cfg s auth) auths
    | .error _ => validAuthorizations (applyAuthorization env cfg s auth) auths

variable {env cfg} {s : StateDB σ} {auth : SetCodeAuthorization}

theorem validateAuthorization_spec (env : Env σ) (cfg : EvmConfig) (s : StateDB σ)
    (auth : SetCodeAuthorization) :
    ((validateAuthorization env cfg s auth).2.view env).account = (s.view env).account ∧
      ∀ authority, (validateAuthorization env cfg s auth).1 = .ok authority →
        (s.view env).nonce authority = auth.nonce ∧ ¬ auth.nonce + 1 < auth.nonce := by
  unfold validateAuthorization
  split
  · exact ⟨rfl, fun _ habs => by cases habs⟩
  split
  · exact ⟨rfl, fun _ habs => by cases habs⟩
  rename_i hoverflow
  split
  · exact ⟨rfl, fun _ habs => by cases habs⟩
  rename_i authority _
  simp only
  have hwarm := view_account_addAddressToAccessList env s authority
  generalize s.addAddressToAccessList authority = warm at hwarm
  have hcode := (getCode_spec env warm authority).2.view_eq
  split
  · refine ⟨?_, fun _ habs => by cases habs⟩
    rw [hcode, hwarm]
  generalize (warm.getCode env authority).2 = read at hcode
  obtain ⟨hnonce, hloads⟩ := getNonce_spec env read authority
  have hview := hloads.view_eq
  split
  · refine ⟨?_, fun _ habs => by cases habs⟩
    rw [hview, hcode, hwarm]
  rename_i hmatch
  refine ⟨by rw [hview, hcode, hwarm], fun found hfound => ?_⟩
  cases hfound
  refine ⟨?_, hoverflow⟩
  have heq : (s.view env).nonce authority = (read.view env).nonce authority := by
    unfold View.nonce
    rw [hcode, hwarm]
  rw [heq, ← hnonce]
  exact not_not.mp hmatch

theorem applyAuthorization_of_error {err : Err} (hinvalid : (validateAuthorization env cfg s auth).1 = .error err) :
    applyAuthorization env cfg s auth = (validateAuthorization env cfg s auth).2 := by
  unfold applyAuthorization
  cases hvalidate : validateAuthorization env cfg s auth with
  | mk answer s' =>
    rw [hvalidate] at hinvalid
    cases hinvalid
    rfl

theorem nonce_of_validAuthorizations_eq_cons {auths : List SetCodeAuthorization}
    {rest : List (SetCodeAuthorization × Address)} {authority : Address}
    (hvalid : validAuthorizations env cfg s auths = (auth, authority) :: rest) :
    (s.view env).nonce authority = auth.nonce ∧ ¬ auth.nonce + 1 < auth.nonce := by
  induction auths generalizing s with
  | nil => cases hvalid
  | cons first auths ih =>
    obtain ⟨hview, hnonce⟩ := validateAuthorization_spec env cfg s first
    rw [validAuthorizations] at hvalid
    cases hanswer : (validateAuthorization env cfg s first).1 with
    | ok found =>
      rw [hanswer] at hvalid
      obtain ⟨hhead, -⟩ := List.cons.inj hvalid
      obtain ⟨rfl, rfl⟩ := Prod.mk.inj hhead
      exact hnonce found hanswer
    | error err =>
      -- an invalid authorization before it leaves every nonce as it is
      rw [hanswer, applyAuthorization_of_error hanswer] at hvalid
      have hlater := ih hvalid
      unfold View.nonce at hlater ⊢
      rwa [hview] at hlater

end Processing

namespace Keeper

variable {S Acc : Type} (k : Keeper S Acc) (addressString : Address → String) (cfg : EvmConfig)
  (evm : Evm (MultiStore S)) (hooks : Option (Hooks S)) (baseFee : Option ℤ)

def storedNonce (ctx : Ctx S) (addr : Address) : UInt64 :=
  ((k.getAccount ctx.store addr).map (·.nonce)).getD 0

def storedCode (ctx : Ctx S) (addr : Address) : Bytes :=
  (getCode ctx.store (k.getCodeHash ctx.store addr)).getD []

def processedAuthorizations (ctx : Ctx S) (tx : Transaction) (txConfig : TxConfig) :
    List (SetCodeAuthorization × Address) :=
  match (new (cacheContext ctx) txConfig).prepare cfg.rules.toRules tx.sender (FixedBytes.zero 20)
      tx.recipient evm.activePrecompiles tx.accessList with
  | none => []
  | some s => validAuthorizations (k.env addressString) cfg s tx.setCodeAuthorizations

/-- Each of the authorizations is in effect: the authority delegates, or has no code where it delegates to
the zero address, and its nonce is past that of the authorization. -/
def InEffect (ctx : Ctx S) (auths : List (SetCodeAuthorization × Address)) : Prop :=
  ∀ auth authority, (auth, authority) ∈ auths →
    k.storedCode ctx authority = (delegationCode auth).getD [] ∧
      k.storedNonce ctx authority = auth.nonce + 1

def SparesNonces (postTxProcessing : Hooks S) : Prop :=
  ∀ ctx msg res ctx' logs, postTxProcessing ctx msg res = .ok (ctx', logs) →
    (Backed k.bank ctx → Backed k.bank ctx') ∧ ∀ addr, k.storedNonce ctx' addr = k.storedNonce ctx addr

variable {k addressString cfg evm hooks baseFee} {ctx ctx' : Ctx S} {tx : Transaction}
  {txConfig : TxConfig} {res : MsgEthereumTxResponse} {collector : ModuleAccount}

theorem storedNonce_of_valueFlow (hwired : k.Wired) {parties : List AccAddress} {gain : AccAddress → ℤ}
    {minted : ℤ} (hflow : ValueFlow k.bank ctx ctx' parties gain minted) (addr : Address) :
    k.storedNonce ctx' addr = k.storedNonce ctx addr := by
  unfold storedNonce getAccount
  rw [Option.map_map, Option.map_map]
  rcases hwired.auth.getAccount_of_reaches hflow.reaches addr.bytes with hsame | ⟨-, hnone, hnew⟩
  · rw [hsame]
    rfl
  · rw [hnone]
    cases hfound : k.ak.getAccount ctx'.store.sdk addr.bytes with
    | none => rfl
    | some acct => exact hnew acct hfound

theorem afterExecution_of_failed (hbacked : Backed k.bank ctx)
    (hhooks : ∀ postTxProcessing, hooks = some postTxProcessing → k.SparesNonces postTxProcessing)
    {msg : Message} {branch : Ctx S} (hfailed : res.failed = true) :
    Backed k.bank (afterExecution hooks ctx msg res branch).2 ∧ ∀ addr,
      k.storedNonce (afterExecution hooks ctx msg res branch).2 addr = k.storedNonce ctx addr := by
  have hbranch : Backed k.bank (cacheContext ctx) := hbacked.of_store_eq rfl
  unfold afterExecution
  rw [if_pos hfailed]
  cases hpost : hooks with
  | none =>
    simp only [hfailed, if_true]
    exact ⟨hbacked, fun _ => trivial⟩
  | some postTxProcessing =>
    simp only
    cases hrun : postTxProcessing (cacheContext ctx) msg res with
    | error err => exact ⟨hbacked, fun _ => rfl⟩
    | ok written =>
      obtain ⟨written, logs⟩ := written
      obtain ⟨hkeeps, hnonce⟩ := hhooks _ hpost _ _ _ _ _ hrun
      exact ⟨(hkeeps hbranch).of_store_eq rfl, hnonce⟩

theorem view_nonce_of_prepare {s : StateDB (MultiStore S)} {rules : StateDB.Rules}
    {sender coinbase : Address} {dst : Option Address} {precompiles : List Address}
    {list : List (Address × List Hash)}
    (hprepare : (new (cacheContext ctx) txConfig).prepare rules sender coinbase dst precompiles list =
      some s) (addr : Address) :
    (s.view (k.env addressString)).nonce addr = k.storedNonce ctx addr := by
  have hshown : ((new (cacheContext ctx) txConfig).view (k.env addressString)).account addr =
      (k.env addressString).loadedView ctx.store addr :=
    view_account_of_not_loaded _ (by simp [new])
  unfold View.nonce storedNonce
  rw [view_account_prepare _ _ hprepare, hshown]
  unfold Env.loadedView
  rw [Option.map_map]
  rfl

/-- The authorizations of a failed transaction are in effect afterwards where none was valid, and only
there. -/
theorem inEffect_iff (hwired : k.Wired) (hbacked : Backed k.bank ctx)
    (hcollector : k.bank.modules.getModuleAccount feeCollectorName = some collector)
    (hhooks : ∀ postTxProcessing, hooks = some postTxProcessing → k.SparesNonces postTxProcessing)
    {result : ExecutionResult (MultiStore S)}
    (hexec : execution (k.env addressString) cfg evm (cacheContext ctx)
      (transactionToMessage tx baseFee) txConfig = .ok result)
    (hfailed : result.vmErr.isSome = true)
    (hok : k.applyTransaction addressString cfg evm hooks baseFee ctx tx txConfig = .ok (res, ctx')) :
    k.InEffect ctx' (k.processedAuthorizations addressString cfg evm ctx tx txConfig) ↔
      k.processedAuthorizations addressString cfg evm ctx tx txConfig = [] := by
  constructor
  swap
  · intro hnone auth authority hmem
    rw [hnone] at hmem
    cases hmem
  intro heffect
  obtain ⟨⟨executed, branch⟩, happly, hok⟩ := bind_eq_ok_iff.mp hok
  obtain ⟨refunded, hrefund, hok⟩ := bind_eq_ok_iff.mp hok
  cases hok
  obtain ⟨result', hexec', hsettled⟩ := applyMessageWithConfig_spec (mapError_eq_ok_iff.mp happly)
  rw [hexec] at hexec'
  cases hexec'
  have hres : executed.failed = true := by
    unfold MsgEthereumTxResponse.failed
    rw [hsettled.vmError_eq]
    exact hfailed
  obtain ⟨hbacked', hnonces⟩ := afterExecution_of_failed hbacked hhooks hres
  have hflow := (valueFlow_refundGas hwired hbacked' hcollector (mapError_eq_ok_iff.mp hrefund)).2
  by_contra hsome
  obtain ⟨⟨auth, authority⟩, rest, hvalid⟩ := List.exists_cons_of_ne_nil hsome
  -- the authority has the nonce of its authorization before the transaction, and so after it
  have hafter := (heffect auth authority (hvalid ▸ List.mem_cons_self)).2
  rw [storedNonce_of_valueFlow hwired hflow, hnonces] at hafter
  unfold processedAuthorizations at hvalid
  split at hvalid
  · cases hvalid
  · rename_i s hprepare
    obtain ⟨hnonce, hoverflow⟩ := nonce_of_validAuthorizations_eq_cons hvalid
    rw [view_nonce_of_prepare hprepare, hafter] at hnonce
    exact absurd hnonce (by simp)

end Keeper

def revertingEvm (σ : Type) : Evm σ where
  create s _ _ gas _ := .ok ⟨[], gas, some "execution reverted", s⟩
  call s _ _ _ gas _ := .ok ⟨[], gas, some "execution reverted", s⟩
  activePrecompiles := []

def sampleAuthorization (nonce : UInt64) : SetCodeAuthorization where
  chainID := 9001
  address := bytesToAddress [0xc0]
  nonce := nonce
  signature := [0xa2]

def setCodeTransaction (nonce : UInt64) : Transaction where
  type := .setCode
  sender := bytesToAddress [0xa1]
  recipient := some (bytesToAddress [0xb0])
  nonce := 0
  gas := 100000
  gasFeeCap := 0
  gasTipCap := 0
  value := 0
  data := []
  accessList := []
  setCodeAuthorizations := [sampleAuthorization nonce]
  caps_eq := by decide

def applySetCode (nonce : UInt64) :
    Except Err (MsgEthereumTxResponse × Ctx (AuthLedger Evmd.moduleAccounts)) :=
  (Evmd.vmKeeper Evmd.sixDecimalsCoin).applyTransaction (fun _ => "") pragueConfig (revertingEvm _) none
    (some 0) (Evmd.genesisChain []) (setCodeTransaction nonce) ⟨zeroHash, zeroHash, 0, 0⟩

theorem inEffect_stale_nonce : ∃ res ctx', applySetCode 5 = .ok (res, ctx') ∧
    (Evmd.vmKeeper Evmd.sixDecimalsCoin).InEffect ctx'
      ((Evmd.vmKeeper Evmd.sixDecimalsCoin).processedAuthorizations (fun _ => "") pragueConfig
        (revertingEvm _) (Evmd.genesisChain []) (setCodeTransaction 5) ⟨zeroHash, zeroHash, 0, 0⟩) := by
  have hsome : (applySetCode 5).toOption.isSome = true := by decide +kernel
  obtain ⟨⟨res, ctx'⟩, hok⟩ := exists_eq_ok_of_isSome hsome
  have hfailed : (execution ((Evmd.vmKeeper Evmd.sixDecimalsCoin).env fun _ => "") pragueConfig
      (revertingEvm _) (cacheContext (Evmd.genesisChain [])) (transactionToMessage (setCodeTransaction 5)
        (some 0)) ⟨zeroHash, zeroHash, 0, 0⟩).toOption.map (fun result => result.vmErr.isSome) =
      some true := by
    decide +kernel
  obtain ⟨result, hresult, hfailed⟩ := Option.map_eq_some_iff.mp hfailed
  have hnone : ((Evmd.vmKeeper Evmd.sixDecimalsCoin).processedAuthorizations (fun _ => "") pragueConfig
      (revertingEvm _) (Evmd.genesisChain []) (setCodeTransaction 5) ⟨zeroHash, zeroHash, 0, 0⟩) = [] := by
    apply List.eq_nil_of_length_eq_zero
    decide +kernel
  refine ⟨res, ctx', hok, (Keeper.inEffect_iff (Evmd.vmKeeper_wired _)
    (Evmd.backed_genesisChain _ _ (by decide +kernel)) rfl (fun _ habs => by cases habs)
    (toOption_eq_some_iff.mp hresult) hfailed hok).mpr hnone⟩

/-- A valid authorization of a transaction that reverts is lost, and valid again afterwards. -/
theorem authorization_replayable :
    let k := Evmd.vmKeeper Evmd.sixDecimalsCoin
    let authority := bytesToAddress [0xa2]
    let processed ctx := (k.processedAuthorizations (fun _ => "") pragueConfig (revertingEvm _) ctx
      (setCodeTransaction 0) ⟨zeroHash, zeroHash, 0, 0⟩).map Prod.snd
    processed (Evmd.genesisChain []) = [authority] ∧
      ((applySetCode 0).toOption.map fun result => (k.storedNonce result.2 authority,
        k.storedCode result.2 authority, processed result.2)) = some (0, [], [authority]) := by
  constructor <;> decide +kernel

end CosmosEvm.Vm
