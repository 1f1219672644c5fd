import CosmosEvm.Statedb.Logs
import CosmosEvm.Statedb.Profile
import CosmosEvm.Statedb.Spared
import CosmosEvm.Vm.Authorizations

namespace CosmosEvm.Vm

open Statedb StateDB

variable {σ : Type}

theorem view_balance_applyAuthorization (env : Env σ) (cfg : EvmConfig) (s : StateDB σ)
    (auth : SetCodeAuthorization) :
    ((applyAuthorization env cfg s auth).view env).balance = (s.view env).balance := by
  obtain ⟨hview, -⟩ := validateAuthorization_spec env cfg s auth
  unfold applyAuthorization
  cases hvalidate : validateAuthorization env cfg s auth with
  | mk answer read =>
    rw [hvalidate] at hview
    cases answer with
    | error err => exact View.balance_congr hview
    | ok authority =>
      have hexist := (exist_spec env read authority).2.view_eq
      simp only
      rw [view_balance_setCode, view_balance_setNonce]
      split
      · rw [View.balance_congr (view_account_addRefund env _ _), hexist]
        exact View.balance_congr hview
      · rw [hexist]
        exact View.balance_congr hview

theorem view_balance_startState (env : Env σ) (cfg : EvmConfig) (s : StateDB σ) (msg : Message) :
    ((startState env cfg s msg).view env).balance = (s.view env).balance := by
  have hfold : ∀ (auths : List SetCodeAuthorization) (s : StateDB σ),
      ((auths.foldl (applyAuthorization env cfg) s).view env).balance = (s.view env).balance := by
    intro auths
    induction auths with
    | nil => exact fun s => rfl
    | cons auth auths ih =>
      intro s
      rw [List.foldl_cons, ih, view_balance_applyAuthorization]
  unfold startState
  cases msg.recipient with
  | none => exact view_balance_setNonce env s _ _
  | some recipient =>
    simp only [callState]
    rw [← hfold msg.setCodeAuthorizations s]
    generalize msg.setCodeAuthorizations.foldl (applyAuthorization env cfg) s = applied
    have hcode := (getCode_spec env applied recipient).2.view_eq
    split
    · rw [View.balance_congr (view_account_addAddressToAccessList env _ _), hcode]
    · rw [hcode]

theorem spares_of_starts {op : Op σ} (hop : op.Starts) : op.Spares := by
  cases op <;> trivial

theorem runs_validateAuthorization {env : Env σ} {start s : StateDB σ} {allowed : Op σ → Prop}
    (hexist : ∀ addr, allowed (.exist addr)) (hgetCode : ∀ addr, allowed (.getCode addr))
    (hwarm : ∀ addr, allowed (.addAddressToAccessList addr)) (cfg : EvmConfig) (auth : SetCodeAuthorization)
    (hruns : Runs env allowed start s) :
    Runs env allowed start (validateAuthorization env cfg s auth).2 := by
  unfold validateAuthorization
  split
  · exact hruns
  split
  · exact hruns
  split
  · exact hruns
  rename_i authority _
  simp only
  have hwarmed := hruns.exec (.addAddressToAccessList authority) (hwarm authority) rfl
  have hcode := hwarmed.exec (.getCode authority) (hgetCode authority) rfl
  split
  · exact hcode
  have hnonce := hcode.exec (.exist authority) (hexist authority) rfl
  split
  · exact hnonce
  · exact hnonce

theorem runs_applyAuthorization {env : Env σ} {start s : StateDB σ} (cfg : EvmConfig)
    (auth : SetCodeAuthorization) (hruns : Runs env Op.Starts start s) :
    Runs env Op.Starts start (applyAuthorization env cfg s auth) := by
  have hvalidated := runs_validateAuthorization (fun _ => trivial) (fun _ => trivial) (fun _ => trivial) cfg auth
    hruns
  unfold applyAuthorization
  cases hvalidate : validateAuthorization env cfg s auth with
  | mk answer read =>
    rw [hvalidate] at hvalidated
    cases answer with
    | error err => exact hvalidated
    | ok authority =>
      have hexist := hvalidated.exec (.exist authority) trivial rfl
      simp only
      split
      · exact ((hexist.exec (.addRefund _) trivial rfl).exec (.setNonce _ _) trivial rfl).exec
          (.setCode _ _) trivial rfl
      · exact (hexist.exec (.setNonce _ _) trivial rfl).exec (.setCode _ _) trivial rfl

theorem runs_startState (env : Env σ) (cfg : EvmConfig) (s : StateDB σ) (msg : Message) :
    Runs env Op.Starts s (startState env cfg s msg) := by
  have hfold : ∀ (auths : List SetCodeAuthorization) {s' : StateDB σ}, Runs env Op.Starts s s' →
      Runs env Op.Starts s (auths.foldl (applyAuthorization env cfg) s') := by
    intro auths
    induction auths with
    | nil => exact fun hruns => hruns
    | cons auth auths ih => exact fun hruns => ih (runs_applyAuthorization cfg auth hruns)
  unfold startState
  cases msg.recipient with
  | none => exact (Runs.refl env _ s).exec (.setNonce msg.sender msg.nonce) trivial rfl
  | some recipient =>
    have hcode := (hfold msg.setCodeAuthorizations (.refl env _ s)).exec (.getCode recipient)
      trivial rfl
    simp only [callState]
    split
    · exact hcode.exec (.addAddressToAccessList _) trivial rfl
    · exact hcode

end CosmosEvm.Vm
