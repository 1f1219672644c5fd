import CosmosEvm.Sdk.Keepers

namespace CosmosEvm

structure AccountKeeper (S Acc : Type) where
  getAccount : S → AccAddress → Option Acc
  newAccountWithAddress : S → AccAddress → Acc × S
  setAccount : S → Acc → S
  removeAccount : S → Acc → S
  getAddress : Acc → AccAddress
  getSequence : Acc → UInt64
  setSequence : Acc → UInt64 → Except Err Acc
  newBaseAccount : Acc → Acc

variable {S Acc : Type}

namespace BankKeeper

inductive Reaches (bk : BankKeeper S) (modules : ModuleAccounts) (touched : AccAddress → Prop) (start : S) :
    S → Prop where
  | refl : Reaches bk modules touched start start
  | sendCoins {s s' : S} {sender recipient : AccAddress} {amt : Coins} {events : List Event} :
      Reaches bk modules touched start s → touched sender → touched recipient →
        bk.sendCoins s sender recipient amt = .ok (s', events) → Reaches bk modules touched start s'
  | mintCoins {s s' : S} {name : ModuleName} {acc : ModuleAccount} {amt : Coins} {events : List Event} :
      Reaches bk modules touched start s → modules.getModuleAccount name = some acc →
        touched acc.address → bk.mintCoins s name amt = .ok (s', events) →
          Reaches bk modules touched start s'
  | burnCoins {s s' : S} {name : ModuleName} {acc : ModuleAccount} {amt : Coins} {events : List Event} :
      Reaches bk modules touched start s → modules.getModuleAccount name = some acc →
        touched acc.address → bk.burnCoins s name amt = .ok (s', events) →
          Reaches bk modules touched start s'

variable {bk : BankKeeper S} {modules : ModuleAccounts} {touched : AccAddress → Prop} {s s' s'' : S}

theorem Reaches.trans (hfirst : Reaches bk modules touched s s')
    (hsecond : Reaches bk modules touched s' s'') : Reaches bk modules touched s s'' := by
  induction hsecond with
  | refl => exact hfirst
  | sendCoins _ hsender hrecipient hsend ih => exact .sendCoins ih hsender hrecipient hsend
  | mintCoins _ hacc htouched hmint ih => exact .mintCoins ih hacc htouched hmint
  | burnCoins _ hacc htouched hburn ih => exact .burnCoins ih hacc htouched hburn

theorem Reaches.mono {more : AccAddress → Prop} (hmore : ∀ a, touched a → more a)
    (hreaches : Reaches bk modules touched s s') : Reaches bk modules more s s' := by
  induction hreaches with
  | refl => exact .refl
  | sendCoins _ hsender hrecipient hsend ih =>
    exact .sendCoins ih (hmore _ hsender) (hmore _ hrecipient) hsend
  | mintCoins _ hacc htouched hmint ih => exact .mintCoins ih hacc (hmore _ htouched) hmint
  | burnCoins _ hacc htouched hburn ih => exact .burnCoins ih hacc (hmore _ htouched) hburn

theorem Lawful.locked_of_reaches (hbank : Lawful bk modules)
    (hreaches : Reaches bk modules touched s s') (a : AccAddress) (denom : Denom) :
    bk.getBalance s' a denom - bk.spendableCoin s' a denom =
      bk.getBalance s a denom - bk.spendableCoin s a denom := by
  induction hreaches with
  | refl => rfl
  | sendCoins _ _ _ hsend ih =>
    rw [hbank.sendCoins_balance hsend, hbank.sendCoins_spendable hsend]
    omega
  | mintCoins _ hacc _ hmint ih =>
    rw [hbank.mintCoins_balance hacc hmint, hbank.mintCoins_spendable hacc hmint]
    omega
  | burnCoins _ hacc _ hburn ih =>
    rw [hbank.burnCoins_balance hacc hburn, hbank.burnCoins_spendable hacc hburn]
    omega

end BankKeeper

namespace AccountKeeper

/-- An account that a call may have created: there is none, or a new one. -/
def New (ak : AccountKeeper S Acc) (account : Option Acc) : Prop :=
  ∀ acc, account = some acc → ak.getSequence acc = 0

/-- What the repository relies on. Which coins are locked is decided by the account that is stored, and the
bank creates an account for a recipient without one. -/
structure Lawful (ak : AccountKeeper S Acc) (bk : BankKeeper S) (modules : ModuleAccounts) : Prop where
  getAddress_getAccount : ∀ {s a acc}, ak.getAccount s a = some acc → ak.getAddress acc = a
  getAccount_setAccount : ∀ s acc a, ak.getAccount (ak.setAccount s acc) a =
    if a = ak.getAddress acc then some acc else ak.getAccount s a
  getAccount_removeAccount : ∀ s acc a, ak.getAccount (ak.removeAccount s acc) a =
    if a = ak.getAddress acc then none else ak.getAccount s a
  getAccount_newAccount : ∀ s a b, ak.getAccount (ak.newAccountWithAddress s a).2 b = ak.getAccount s b
  getAddress_newAccount : ∀ s a, ak.getAddress (ak.newAccountWithAddress s a).1 = a
  getSequence_newAccount : ∀ s a, ak.getSequence (ak.newAccountWithAddress s a).1 = 0
  setSequence_ok : ∀ acc sequence, ∃ acc', ak.setSequence acc sequence = .ok acc'
  getSequence_setSequence : ∀ {acc sequence acc'}, ak.setSequence acc sequence = .ok acc' →
    ak.getSequence acc' = sequence ∧ ak.getAddress acc' = ak.getAddress acc
  getAddress_newBaseAccount : ∀ acc, ak.getAddress (ak.newBaseAccount acc) = ak.getAddress acc
  getBalance_setAccount : ∀ s acc, bk.getBalance (ak.setAccount s acc) = bk.getBalance s
  getBalance_removeAccount : ∀ s acc, bk.getBalance (ak.removeAccount s acc) = bk.getBalance s
  getBalance_newAccount : ∀ s a, bk.getBalance (ak.newAccountWithAddress s a).2 = bk.getBalance s
  getSupply_setAccount : ∀ s acc, bk.getSupply (ak.setAccount s acc) = bk.getSupply s
  getSupply_removeAccount : ∀ s acc, bk.getSupply (ak.removeAccount s acc) = bk.getSupply s
  getSupply_newAccount : ∀ s a, bk.getSupply (ak.newAccountWithAddress s a).2 = bk.getSupply s
  spendable_setSequence : ∀ {s a acc sequence acc'}, ak.getAccount s a = some acc →
    ak.setSequence acc sequence = .ok acc' →
      bk.spendableCoin (ak.setAccount s acc') = bk.spendableCoin s
  spendable_newAccount : ∀ {s a sequence acc}, ak.getAccount s a = none →
    ak.setSequence (ak.newAccountWithAddress s a).1 sequence = .ok acc →
      bk.spendableCoin (ak.setAccount (ak.newAccountWithAddress s a).2 acc) = bk.spendableCoin s
  spendable_setNewAccount : ∀ {s a}, ak.getAccount s a = none →
    bk.spendableCoin (ak.setAccount (ak.newAccountWithAddress s a).2 (ak.newAccountWithAddress s a).1) =
      bk.spendableCoin s
  spendable_newBaseAccount : ∀ {s a acc}, ak.getAccount s a = some acc → ∀ b,
    bk.spendableCoin (ak.setAccount s (ak.newBaseAccount acc)) b =
      if b = a then bk.getBalance s b else bk.spendableCoin s b
  spendable_removeAccount : ∀ {s acc},
    bk.spendableCoin s (ak.getAddress acc) = bk.getBalance s (ak.getAddress acc) →
      bk.spendableCoin (ak.removeAccount s acc) = bk.spendableCoin s
  sendCoins_getAccount : ∀ {s s' sender recipient amt events},
    bk.sendCoins s sender recipient amt = .ok (s', events) → ∀ a,
      ak.getAccount s' a = ak.getAccount s a ∨
        a = recipient ∧ ak.getAccount s a = none ∧ ak.New (ak.getAccount s' a)
  mintCoins_getAccount : ∀ {s s' name acc amt events}, modules.getModuleAccount name = some acc →
    bk.mintCoins s name amt = .ok (s', events) → ∀ a,
      ak.getAccount s' a = ak.getAccount s a ∨
        a = acc.address ∧ ak.getAccount s a = none ∧ ak.New (ak.getAccount s' a)
  burnCoins_getAccount : ∀ {s s' name acc amt events}, modules.getModuleAccount name = some acc →
    bk.burnCoins s name amt = .ok (s', events) → ∀ a,
      ak.getAccount s' a = ak.getAccount s a ∨
        a = acc.address ∧ ak.getAccount s a = none ∧ ak.New (ak.getAccount s' a)

variable {ak : AccountKeeper S Acc} {bk : BankKeeper S} {modules : ModuleAccounts}

theorem Lawful.getAccount_of_reaches (hauth : ak.Lawful bk modules) {touched : AccAddress → Prop}
    {s s' : S} (hreaches : bk.Reaches modules touched s s') (a : AccAddress) :
    ak.getAccount s' a = ak.getAccount s a ∨
      touched a ∧ ak.getAccount s a = none ∧ ak.New (ak.getAccount s' a) := by
  -- one call after a run of calls
  have hstep : ∀ {middle last : S}, (ak.getAccount middle a = ak.getAccount s a ∨
      touched a ∧ ak.getAccount s a = none ∧ ak.New (ak.getAccount middle a)) →
      ∀ {party : AccAddress}, touched party → (ak.getAccount last a = ak.getAccount middle a ∨
        a = party ∧ ak.getAccount middle a = none ∧ ak.New (ak.getAccount last a)) →
      (ak.getAccount last a = ak.getAccount s a ∨
        touched a ∧ ak.getAccount s a = none ∧ ak.New (ak.getAccount last a)) := by
    intro middle last hbefore party hparty hcall
    rcases hcall with hsame | ⟨rfl, hnone, hnew⟩
    · rw [hsame]
      exact hbefore
    · rcases hbefore with hsame | ⟨htouched, hstart, _⟩
      · exact .inr ⟨hparty, hsame ▸ hnone, hnew⟩
      · exact .inr ⟨htouched, hstart, hnew⟩
  induction hreaches with
  | refl => exact .inl rfl
  | sendCoins _ _ hrecipient hsend ih =>
    exact hstep ih hrecipient (hauth.sendCoins_getAccount hsend a)
  | mintCoins _ hacc htouched hmint ih =>
    exact hstep ih htouched (hauth.mintCoins_getAccount hacc hmint a)
  | burnCoins _ hacc htouched hburn ih =>
    exact hstep ih htouched (hauth.burnCoins_getAccount hacc hburn a)

end AccountKeeper

end CosmosEvm
