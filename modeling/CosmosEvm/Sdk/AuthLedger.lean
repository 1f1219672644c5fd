import CosmosEvm.Sdk.Auth
import CosmosEvm.Sdk.LedgerBank
import Mathlib.Data.Finmap

namespace CosmosEvm

structure AuthAccount where
  address : AccAddress
  accountNumber : ℕ
  sequence : UInt64
  vesting : Bool
deriving DecidableEq

def Ledger.unlock {modules : ModuleAccounts} (ledger : Ledger modules) (a : AccAddress) :
    Ledger modules where
  balance := ledger.balance
  locked b denom := if b = a then 0 else ledger.locked b denom
  supply := ledger.supply
  locked_nonneg b denom := by
    split
    · exact le_rfl
    · exact ledger.locked_nonneg b denom
  locked_le_balance b denom := by
    have hnonneg := ledger.locked_nonneg b denom
    have hle := ledger.locked_le_balance b denom
    split
    · exact hnonneg.trans hle
    · exact hle
  module_locked hacc denom := by
    split
    · rfl
    · exact ledger.module_locked hacc denom

structure AuthLedger (modules : ModuleAccounts) where
  ledger : Ledger modules
  accounts : Finmap fun _ : AccAddress => AuthAccount
  globalAccountNumber : ℕ
  address_eq : ∀ {a acc}, accounts.lookup a = some acc → acc.address = a
  vesting_of_locked : ∀ {a denom}, ledger.locked a denom ≠ 0 →
    ∃ acc, accounts.lookup a = some acc ∧ acc.vesting = true

namespace AuthLedger

open BankKeeper Ledger

variable {modules : ModuleAccounts} (s : AuthLedger modules) (acc : AuthAccount)

def setAccount : AuthLedger modules where
  ledger := if acc.vesting then s.ledger else s.ledger.unlock acc.address
  accounts := s.accounts.insert acc.address acc
  globalAccountNumber := s.globalAccountNumber
  address_eq {a found} hlookup := by
    by_cases heq : a = acc.address
    · subst heq
      rw [Finmap.lookup_insert] at hlookup
      rw [← Option.some.inj hlookup]
    · rw [Finmap.lookup_insert_of_ne _ heq] at hlookup
      exact s.address_eq hlookup
  vesting_of_locked {a denom} hlocked := by
    by_cases heq : a = acc.address
    · subst heq
      refine ⟨acc, Finmap.lookup_insert _, ?_⟩
      by_contra hbase
      simp [hbase, Ledger.unlock] at hlocked
    · rw [Finmap.lookup_insert_of_ne _ heq]
      have hold : s.ledger.locked a denom ≠ 0 := by
        split at hlocked
        · exact hlocked
        · simpa [Ledger.unlock, heq] using hlocked
      exact s.vesting_of_locked hold

def removeAccount : AuthLedger modules where
  ledger := s.ledger.unlock acc.address
  accounts := s.accounts.erase acc.address
  globalAccountNumber := s.globalAccountNumber
  address_eq {a found} hlookup := by
    by_cases heq : a = acc.address
    · subst heq
      simp [Finmap.lookup_erase] at hlookup
    · rw [Finmap.lookup_erase_ne heq] at hlookup
      exact s.address_eq hlookup
  vesting_of_locked {a denom} hlocked := by
    by_cases heq : a = acc.address
    · simp [Ledger.unlock, heq] at hlocked
    · rw [Finmap.lookup_erase_ne heq]
      have hold : s.ledger.locked a denom ≠ 0 := by simpa [Ledger.unlock, heq] using hlocked
      exact s.vesting_of_locked hold

def newAccountWithAddress (a : AccAddress) : AuthAccount × AuthLedger modules :=
  (⟨a, s.globalAccountNumber, 0, false⟩, { s with globalAccountNumber := s.globalAccountNumber + 1 })

def ensureAccount (a : AccAddress) : AuthLedger modules :=
  if a ∈ s.accounts then s
  else (s.newAccountWithAddress a).2.setAccount (s.newAccountWithAddress a).1

def withLedger (ledger : Ledger modules)
    (hlocked : ledger.locked = s.ledger.locked) : AuthLedger modules :=
  { s with
    ledger
    vesting_of_locked := fun {a denom} hne => s.vesting_of_locked (by rwa [hlocked] at hne) }

theorem locked_eq_zero {a : AccAddress}
    (hbase : ∀ {acc}, s.accounts.lookup a = some acc → acc.vesting = false) (denom : Denom) :
    s.ledger.locked a denom = 0 := by
  by_contra hlocked
  obtain ⟨acc, hlookup, hvesting⟩ := s.vesting_of_locked hlocked
  rw [hbase hlookup] at hvesting
  simp at hvesting

theorem spendable_unlock (ledger : Ledger modules) (a b : AccAddress) (denom : Denom) :
    (ledger.unlock a).spendable b denom =
      if b = a then ledger.balance b denom else ledger.spendable b denom := by
  unfold spendable Ledger.unlock
  by_cases heq : b = a <;> simp [heq]

theorem ledger_setAccount :
    (s.setAccount acc).ledger = if acc.vesting then s.ledger else s.ledger.unlock acc.address := rfl

theorem balance_setAccount :
    (s.setAccount acc).ledger.balance = s.ledger.balance ∧
      (s.setAccount acc).ledger.supply = s.ledger.supply := by
  rw [ledger_setAccount]
  split
  · exact ⟨rfl, rfl⟩
  · exact ⟨rfl, rfl⟩

theorem spendable_setAccount
    (hlocked : acc.vesting = false → ∀ denom, s.ledger.locked acc.address denom = 0) :
    (s.setAccount acc).ledger.spendable = s.ledger.spendable := by
  rw [ledger_setAccount]
  split
  · rfl
  · rename_i hbase
    funext b denom
    rw [spendable_unlock]
    split
    · rename_i heq
      rw [heq, spendable, hlocked (by simpa using hbase), sub_zero]
    · rfl

theorem lookup_setAccount (a : AccAddress) :
    (s.setAccount acc).accounts.lookup a =
      if a = acc.address then some acc else s.accounts.lookup a := by
  change (s.accounts.insert acc.address acc).lookup a = _
  by_cases heq : a = acc.address
  · rw [heq, Finmap.lookup_insert, if_pos rfl]
  · rw [Finmap.lookup_insert_of_ne _ heq, if_neg heq]

theorem ensureAccount_coins (a : AccAddress) :
    (s.ensureAccount a).ledger.balance = s.ledger.balance ∧
      (s.ensureAccount a).ledger.supply = s.ledger.supply ∧
      (s.ensureAccount a).ledger.spendable = s.ledger.spendable := by
  unfold ensureAccount
  split
  · exact ⟨rfl, rfl, rfl⟩
  · rename_i hnot
    obtain ⟨hbalance, hsupply⟩ := balance_setAccount (s.newAccountWithAddress a).2
      (s.newAccountWithAddress a).1
    refine ⟨hbalance, hsupply, ?_⟩
    refine (spendable_setAccount _ _ fun _ => ?_).trans rfl
    exact s.locked_eq_zero fun hlookup => absurd (Finmap.mem_of_lookup_eq_some hlookup) hnot

theorem lookup_ensureAccount (a b : AccAddress) :
    (s.ensureAccount a).accounts.lookup b = s.accounts.lookup b ∨
      b = a ∧ s.accounts.lookup b = none ∧
        ∀ acc, (s.ensureAccount a).accounts.lookup b = some acc → acc.sequence = 0 := by
  unfold ensureAccount
  split
  · exact .inl rfl
  · rename_i hnot
    rw [lookup_setAccount]
    split
    · rename_i heq
      obtain rfl : b = a := heq
      refine .inr ⟨rfl, Finmap.lookup_eq_none.mpr hnot, fun acc hacc => ?_⟩
      rw [← Option.some.inj hacc]
      rfl
    · exact .inl rfl

end AuthLedger

section

open Ledger BankKeeper

variable (modules : ModuleAccounts) (codec : Codec) (blocked : AccAddress → Bool)

variable {modules} in
/-- A call of the ledger bank, which keeps what is locked and creates the account of whom it pays. -/
def AuthLedger.callLedger (s : AuthLedger modules)
    (call : Ledger modules → Except Err (Ledger modules × List Event))
    (hlocked : ∀ {ledger ledger' events}, call ledger = .ok (ledger', events) →
      ledger'.locked = ledger.locked) (party : AccAddress) : Except Err (AuthLedger modules × List Event) :=
  match hcall : call s.ledger with
  | .error err => .error err
  | .ok (ledger, events) => .ok ((s.withLedger ledger (hlocked hcall)).ensureAccount party, events)

theorem Ledger.sendCoins_locked {ledger ledger' : Ledger modules} {sender recipient : AccAddress}
    {amt : Coins} {events : List Event}
    (hsend : ledger.sendCoins codec sender recipient amt = .ok (ledger', events)) :
    ledger'.locked = ledger.locked := by
  obtain ⟨_, rfl, -⟩ := sendCoins_eq_ok_iff.mp hsend
  rfl

theorem Ledger.mintCoins_locked {ledger ledger' : Ledger modules} {name : ModuleName} {amt : Coins}
    {events : List Event} (hmint : ledger.mintCoins codec name amt = .ok (ledger', events)) :
    ledger'.locked = ledger.locked := by
  obtain ⟨_, _, _, _, rfl, -⟩ := mintCoins_eq_ok_iff.mp hmint
  rfl

theorem Ledger.burnCoins_locked {ledger ledger' : Ledger modules} {name : ModuleName} {amt : Coins}
    {events : List Event} (hburn : ledger.burnCoins codec name amt = .ok (ledger', events)) :
    ledger'.locked = ledger.locked := by
  obtain ⟨_, _, _, _, rfl, -⟩ := burnCoins_eq_ok_iff.mp hburn
  rfl

variable {modules} in
def AuthLedger.sendCoins (s : AuthLedger modules) (sender recipient : AccAddress) (amt : Coins) :
    Except Err (AuthLedger modules × List Event) :=
  s.callLedger (fun ledger => ledger.sendCoins codec sender recipient amt)
    (Ledger.sendCoins_locked modules codec) recipient

def authBank : BankKeeper (AuthLedger modules) where
  getBalance s := s.ledger.balance
  spendableCoin s := s.ledger.spendable
  getSupply s := s.ledger.supply
  blockedAddr := blocked
  sendCoins := AuthLedger.sendCoins codec
  sendCoinsFromAccountToModule s sender name amt :=
    s.sendCoins codec sender (modules.getModuleAddress name) amt
  sendCoinsFromModuleToModule s sender recipient amt :=
    s.sendCoins codec (modules.getModuleAddress sender) (modules.getModuleAddress recipient) amt
  mintCoins s name amt := s.callLedger (fun ledger => ledger.mintCoins codec name amt)
    (Ledger.mintCoins_locked modules codec) (modules.getModuleAddress name)
  burnCoins s name amt := s.callLedger (fun ledger => ledger.burnCoins codec name amt)
    (Ledger.burnCoins_locked modules codec) (modules.getModuleAddress name)

def authKeeper : AccountKeeper (AuthLedger modules) AuthAccount where
  getAccount s a := s.accounts.lookup a
  newAccountWithAddress := AuthLedger.newAccountWithAddress
  setAccount := AuthLedger.setAccount
  removeAccount := AuthLedger.removeAccount
  getAddress acc := acc.address
  getSequence acc := acc.sequence
  setSequence acc sequence := .ok { acc with sequence }
  newBaseAccount acc := { acc with vesting := false }

variable {modules codec blocked}

structure AuthLedger.Moved (s s' : AuthLedger modules) (ledger : Ledger modules) (party : AccAddress) :
    Prop where
  balance_eq : s'.ledger.balance = ledger.balance
  supply_eq : s'.ledger.supply = ledger.supply
  spendable_eq : s'.ledger.spendable = ledger.spendable
  accounts : ∀ a, s'.accounts.lookup a = s.accounts.lookup a ∨
    a = party ∧ s.accounts.lookup a = none ∧
      ∀ acc, s'.accounts.lookup a = some acc → acc.sequence = 0

theorem AuthLedger.callLedger_eq_ok {s s' : AuthLedger modules}
    (call : Ledger modules → Except Err (Ledger modules × List Event))
    (hlocked : ∀ {ledger ledger' events}, call ledger = .ok (ledger', events) →
      ledger'.locked = ledger.locked) (party : AccAddress) {events : List Event}
    (hok : s.callLedger call hlocked party = .ok (s', events)) :
    ∃ ledger, call s.ledger = .ok (ledger, events) ∧ s.Moved s' ledger party := by
  unfold callLedger at hok
  split at hok
  · simp at hok
  · rename_i ledger events' hcall
    obtain ⟨rfl, rfl⟩ := Prod.mk.inj (Except.ok.inj hok)
    obtain ⟨hbalance, hsupply, hspendable⟩ :=
      (s.withLedger ledger (hlocked hcall)).ensureAccount_coins party
    exact ⟨ledger, hcall, hbalance, hsupply, hspendable,
      (s.withLedger ledger (hlocked hcall)).lookup_ensureAccount party⟩

theorem AuthLedger.exists_callLedger_iff (s : AuthLedger modules)
    (call : Ledger modules → Except Err (Ledger modules × List Event))
    (hlocked : ∀ {ledger ledger' events}, call ledger = .ok (ledger', events) →
      ledger'.locked = ledger.locked) (party : AccAddress) :
    (∃ result, s.callLedger call hlocked party = .ok result) ↔ ∃ result, call s.ledger = .ok result := by
  unfold callLedger
  split
  · rename_i err hcall
    simp [hcall]
  · rename_i ledger events hcall
    simp [hcall]

section

variable {s s' : AuthLedger modules} {name : ModuleName} {amt : Coins} {events : List Event}

theorem authBank_sendCoins {sender recipient : AccAddress}
    (hsend : (authBank modules codec blocked).sendCoins s sender recipient amt = .ok (s', events)) :
    ∃ ledger, (ledgerBank modules codec blocked).sendCoins s.ledger sender recipient amt =
      .ok (ledger, events) ∧ s.Moved s' ledger recipient :=
  AuthLedger.callLedger_eq_ok (fun ledger => ledger.sendCoins codec sender recipient amt)
    (Ledger.sendCoins_locked modules codec) recipient hsend

theorem authBank_mintCoins
    (hmint : (authBank modules codec blocked).mintCoins s name amt = .ok (s', events)) :
    ∃ ledger, (ledgerBank modules codec blocked).mintCoins s.ledger name amt = .ok (ledger, events) ∧
      s.Moved s' ledger (modules.getModuleAddress name) :=
  AuthLedger.callLedger_eq_ok (fun ledger => ledger.mintCoins codec name amt)
    (Ledger.mintCoins_locked modules codec) _ hmint

theorem authBank_burnCoins
    (hburn : (authBank modules codec blocked).burnCoins s name amt = .ok (s', events)) :
    ∃ ledger, (ledgerBank modules codec blocked).burnCoins s.ledger name amt = .ok (ledger, events) ∧
      s.Moved s' ledger (modules.getModuleAddress name) :=
  AuthLedger.callLedger_eq_ok (fun ledger => ledger.burnCoins codec name amt)
    (Ledger.burnCoins_locked modules codec) _ hburn

end

theorem authBank_lawful : Lawful (authBank modules codec blocked) modules := by
  have hbank : Lawful (ledgerBank modules codec blocked) modules := ledgerBank_lawful
  refine {
    sendCoins_balance := fun hsend a denom => ?_
    sendCoinsFromAccountToModule_eq := fun hacc => ?_
    sendCoinsFromModuleToModule_eq := fun hsender hrecipient => ?_
    mintCoins_balance := fun hacc hmint a denom => ?_
    burnCoins_balance := fun hacc hburn a denom => ?_
    spendable_nonneg := fun s => s.ledger.spendable_nonneg
    module_spendable := fun hacc s => hbank.module_spendable hacc s.ledger
    sendCoins_spendable := fun hsend a denom => ?_
    sendCoins_supply := fun hsend denom => ?_
    sendCoins_ok_iff := fun hvalid => ?_
    mintCoins_spendable := fun hacc hmint a denom => ?_
    mintCoins_supply := fun hmint denom => ?_
    mintCoins_ok := fun hacc hpermission hvalid => ?_
    burnCoins_spendable := fun hacc hburn a denom => ?_
    burnCoins_supply := fun hburn denom => ?_
    burnCoins_ok_iff := fun hacc hpermission hvalid => ?_ }
  · obtain ⟨ledger, hledger, hmoved⟩ := authBank_sendCoins hsend
    exact (congrFun (congrFun hmoved.balance_eq a) denom).trans (hbank.sendCoins_balance hledger a denom)
  · simp [authBank, ModuleAccounts.getModuleAddress, hacc]
  · simp [authBank, ModuleAccounts.getModuleAddress, hsender, hrecipient]
  · obtain ⟨ledger, hledger, hmoved⟩ := authBank_mintCoins hmint
    exact (congrFun (congrFun hmoved.balance_eq a) denom).trans
      (hbank.mintCoins_balance hacc hledger a denom)
  · obtain ⟨ledger, hledger, hmoved⟩ := authBank_burnCoins hburn
    exact (congrFun (congrFun hmoved.balance_eq a) denom).trans
      (hbank.burnCoins_balance hacc hledger a denom)
  · obtain ⟨ledger, hledger, hmoved⟩ := authBank_sendCoins hsend
    exact (congrFun (congrFun hmoved.spendable_eq a) denom).trans
      (hbank.sendCoins_spendable hledger a denom)
  · obtain ⟨ledger, hledger, hmoved⟩ := authBank_sendCoins hsend
    exact (congrFun hmoved.supply_eq denom).trans (hbank.sendCoins_supply hledger denom)
  · exact (AuthLedger.exists_callLedger_iff _ _ (Ledger.sendCoins_locked modules codec) _).trans
      (hbank.sendCoins_ok_iff hvalid)
  · obtain ⟨ledger, hledger, hmoved⟩ := authBank_mintCoins hmint
    exact (congrFun (congrFun hmoved.spendable_eq a) denom).trans
      (hbank.mintCoins_spendable hacc hledger a denom)
  · obtain ⟨ledger, hledger, hmoved⟩ := authBank_mintCoins hmint
    exact (congrFun hmoved.supply_eq denom).trans (hbank.mintCoins_supply hledger denom)
  · exact (AuthLedger.exists_callLedger_iff _ _ (Ledger.mintCoins_locked modules codec) _).mpr
      (hbank.mintCoins_ok hacc hpermission hvalid)
  · obtain ⟨ledger, hledger, hmoved⟩ := authBank_burnCoins hburn
    exact (congrFun (congrFun hmoved.spendable_eq a) denom).trans
      (hbank.burnCoins_spendable hacc hledger a denom)
  · obtain ⟨ledger, hledger, hmoved⟩ := authBank_burnCoins hburn
    exact (congrFun hmoved.supply_eq denom).trans (hbank.burnCoins_supply hledger denom)
  · exact (AuthLedger.exists_callLedger_iff _ _ (Ledger.burnCoins_locked modules codec) _).trans
      (hbank.burnCoins_ok_iff hacc hpermission hvalid)

theorem AuthLedger.spendable_removeAccount {s : AuthLedger modules} {acc : AuthAccount}
    (hfree : s.ledger.spendable acc.address = s.ledger.balance acc.address) :
    (s.removeAccount acc).ledger.spendable = s.ledger.spendable := by
  funext b denom
  change (s.ledger.unlock acc.address).spendable b denom = _
  rw [spendable_unlock]
  split
  · rename_i heq
    rw [heq, hfree]
  · rfl

theorem AuthLedger.spendable_fresh (s : AuthLedger modules) {acc : AuthAccount} {a : AccAddress}
    (hacct : s.accounts.lookup a = none) (haddress : acc.address = a) :
    ((s.newAccountWithAddress a).2.setAccount acc).ledger.spendable = s.ledger.spendable := by
  refine ((s.newAccountWithAddress a).2.spendable_setAccount _ fun _ => ?_).trans rfl
  refine s.locked_eq_zero fun hlookup => ?_
  rw [haddress] at hlookup
  exact absurd (hacct.symm.trans hlookup) (by simp)

theorem authKeeper_lawful :
    (authKeeper modules).Lawful (authBank modules codec blocked) modules where
  getAddress_getAccount {s _ _} hacct := s.address_eq hacct
  getAccount_setAccount s acc a := s.lookup_setAccount acc a
  getAccount_removeAccount s acc a := by
    change (s.accounts.erase acc.address).lookup a = _
    by_cases heq : a = acc.address
    · subst heq
      simp [authKeeper, Finmap.lookup_erase]
    · simp [authKeeper, heq, Finmap.lookup_erase_ne heq]
  getAccount_newAccount _ _ _ := rfl
  getAddress_newAccount _ _ := rfl
  getSequence_newAccount _ _ := rfl
  setSequence_ok acc sequence := ⟨_, rfl⟩
  getSequence_setSequence hok := by
    cases hok
    exact ⟨rfl, rfl⟩
  getAddress_newBaseAccount _ := rfl
  getBalance_setAccount s acc := (s.balance_setAccount acc).1
  getBalance_removeAccount _ _ := rfl
  getBalance_newAccount _ _ := rfl
  getSupply_setAccount s acc := (s.balance_setAccount acc).2
  getSupply_removeAccount _ _ := rfl
  getSupply_newAccount _ _ := rfl
  spendable_setSequence {s a acc sequence acc'} hacct hok := by
    cases hok
    refine s.spendable_setAccount _ fun hbase => s.locked_eq_zero fun hlookup => ?_
    have haddress : acc.address = a := s.address_eq hacct
    change s.accounts.lookup acc.address = _ at hlookup
    change s.accounts.lookup a = _ at hacct
    rw [haddress, hacct] at hlookup
    rw [← Option.some.inj hlookup]
    exact hbase
  spendable_newAccount {s a sequence acc} hacct hok := by
    cases hok
    exact s.spendable_fresh hacct rfl
  spendable_setNewAccount {s a} hacct := s.spendable_fresh hacct rfl
  spendable_newBaseAccount {s a acc} hacct b := by
    have haddress : acc.address = a := s.address_eq hacct
    funext denom
    change (s.ledger.unlock acc.address).spendable b denom = _
    rw [AuthLedger.spendable_unlock, haddress]
    split
    · rfl
    · rfl
  spendable_removeAccount hfree := AuthLedger.spendable_removeAccount hfree
  sendCoins_getAccount hsend a := by
    obtain ⟨_, _, hmoved⟩ := authBank_sendCoins hsend
    exact hmoved.accounts a
  mintCoins_getAccount hacc hmint a := by
    obtain ⟨_, _, hmoved⟩ := authBank_mintCoins hmint
    rw [modules.getModuleAddress_eq hacc] at hmoved
    exact hmoved.accounts a
  burnCoins_getAccount hacc hburn a := by
    obtain ⟨_, _, hmoved⟩ := authBank_burnCoins hburn
    rw [modules.getModuleAddress_eq hacc] at hmoved
    exact hmoved.accounts a

end

end CosmosEvm
