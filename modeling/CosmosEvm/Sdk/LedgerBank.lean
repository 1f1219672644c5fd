import CosmosEvm.Sdk.Measure

/-!
# A bank over a plain ledger

The laws asked of `x/bank` have a model: balances, locked coins and supplies held as functions, with the
checks of `SendCoins`, `MintCoins` and `BurnCoins`.
-/

namespace CosmosEvm

structure Ledger (modules : ModuleAccounts) where
  balance : AccAddress → Denom → ℤ
  locked : AccAddress → Denom → ℤ
  supply : Denom → ℤ
  locked_nonneg : ∀ a denom, 0 ≤ locked a denom
  locked_le_balance : ∀ a denom, locked a denom ≤ balance a denom
  module_locked : ∀ {name : ModuleName} {acc : ModuleAccount},
    modules.getModuleAccount name = some acc → ∀ denom, locked acc.address denom = 0

namespace Ledger

open BankKeeper

variable {modules : ModuleAccounts}

def spendable (ledger : Ledger modules) (a : AccAddress) (denom : Denom) : ℤ :=
  ledger.balance a denom - ledger.locked a denom

def empty (modules : ModuleAccounts) : Ledger modules where
  balance _ _ := 0
  locked _ _ := 0
  supply _ := 0
  locked_nonneg _ _ := le_rfl
  locked_le_balance _ _ := le_rfl
  module_locked _ _ := rfl

def Covers (ledger : Ledger modules) (a : AccAddress) (amt : Coins) : Prop :=
  amt.IsValid ∧ ∀ coin ∈ amt, coin.amount ≤ ledger.spendable a coin.denom

instance (ledger : Ledger modules) (a : AccAddress) (amt : Coins) :
    Decidable (ledger.Covers a amt) := by
  unfold Covers
  infer_instance

theorem spendable_nonneg (ledger : Ledger modules) (a : AccAddress) (denom : Denom) :
    0 ≤ ledger.spendable a denom :=
  sub_nonneg.mpr (ledger.locked_le_balance a denom)

theorem covers_iff {ledger : Ledger modules} {a : AccAddress} {amt : Coins}
    (hvalid : amt.IsValid) :
    ledger.Covers a amt ↔ ∀ denom, amt.amountOf denom ≤ ledger.spendable a denom := by
  rw [hvalid.amountOf_le_iff (ledger.spendable_nonneg a)]
  exact and_iff_right hvalid

theorem share_nonneg {amt : Coins} (hvalid : amt.IsValid) (who a : AccAddress) (denom : Denom) :
    0 ≤ share amt who a denom := by
  unfold share
  split
  · exact hvalid.amountOf_nonneg denom
  · exact le_rfl

theorem Covers.share_le_spendable {ledger : Ledger modules} {who : AccAddress} {amt : Coins}
    (hcover : ledger.Covers who amt) (a : AccAddress) (denom : Denom) :
    share amt who a denom ≤ ledger.spendable a denom := by
  unfold share
  split
  · rename_i heq
    rw [heq]
    exact (covers_iff hcover.1).mp hcover denom
  · exact ledger.spendable_nonneg a denom

def move (ledger : Ledger modules) {sender : AccAddress} {out : Coins}
    (hcover : ledger.Covers sender out) (recipient : AccAddress) {into : Coins}
    (hvalid : into.IsValid) (supply : Denom → ℤ) : Ledger modules where
  balance a denom := ledger.balance a denom - share out sender a denom +
    share into recipient a denom
  locked := ledger.locked
  supply := supply
  locked_nonneg := ledger.locked_nonneg
  locked_le_balance a denom := by
    have hout := hcover.share_le_spendable a denom
    have hinto := share_nonneg hvalid recipient a denom
    unfold spendable at hout
    linarith
  module_locked := ledger.module_locked

theorem covers_nil (ledger : Ledger modules) (a : AccAddress) : ledger.Covers a [] :=
  ⟨⟨by simp, List.Pairwise.nil⟩, by simp⟩

def credit (ledger : Ledger modules) (a : AccAddress) (amt : Coins) : Ledger modules :=
  if hvalid : amt.IsValid then
    ledger.move (ledger.covers_nil a) a hvalid fun denom =>
      ledger.supply denom + amt.amountOf denom
  else ledger

end Ledger

section

open Ledger BankKeeper

variable (modules : ModuleAccounts) (codec : Codec) (blocked : AccAddress → Bool)

def coinSpentEvent (spender : AccAddress) (amt : Coins) : Event :=
  ⟨"coin_spent", [("spender", codec.accAddressString spender), ("amount", codec.coinsString amt)]⟩

def coinReceivedEvent (receiver : AccAddress) (amt : Coins) : Event :=
  ⟨"coin_received",
    [("receiver", codec.accAddressString receiver), ("amount", codec.coinsString amt)]⟩

variable {modules} in
def Ledger.sendCoins (ledger : Ledger modules) (sender recipient : AccAddress) (amt : Coins) :
    Except Err (Ledger modules × List Event) :=
  if hcover : ledger.Covers sender amt then
    .ok (ledger.move hcover recipient hcover.1 ledger.supply,
      [coinSpentEvent codec sender amt, coinReceivedEvent codec recipient amt])
  else
    .error (.wrapped .insufficientFunds "spendable balance is too small")

variable {modules} in
def Ledger.mintCoins (ledger : Ledger modules) (name : ModuleName) (amt : Coins) :
    Except Err (Ledger modules × List Event) :=
  match modules.getModuleAccount name with
  | none => .error (.panicked "module account does not exist")
  | some acc =>
    if hvalid : .minter ∈ acc.permissions ∧ amt.IsValid then
      .ok (ledger.move (ledger.covers_nil acc.address) acc.address hvalid.2
          fun denom => ledger.supply denom + amt.amountOf denom,
        [coinReceivedEvent codec acc.address amt])
    else
      .error (.panicked "module account does not have permissions to mint tokens")

variable {modules} in
def Ledger.burnCoins (ledger : Ledger modules) (name : ModuleName) (amt : Coins) :
    Except Err (Ledger modules × List Event) :=
  match modules.getModuleAccount name with
  | none => .error (.panicked "module account does not exist")
  | some acc =>
    if hcover : .burner ∈ acc.permissions ∧ ledger.Covers acc.address amt then
      .ok (ledger.move hcover.2 acc.address (ledger.covers_nil acc.address).1
          fun denom => ledger.supply denom - amt.amountOf denom,
        [coinSpentEvent codec acc.address amt])
    else
      .error (.wrapped .insufficientFunds "spendable balance is too small")

def ledgerBank : BankKeeper (Ledger modules) where
  getBalance := Ledger.balance
  spendableCoin := Ledger.spendable
  getSupply := Ledger.supply
  blockedAddr := blocked
  sendCoins := Ledger.sendCoins codec
  sendCoinsFromAccountToModule ledger sender name amt :=
    ledger.sendCoins codec sender (modules.getModuleAddress name) amt
  sendCoinsFromModuleToModule ledger sender recipient amt :=
    ledger.sendCoins codec (modules.getModuleAddress sender) (modules.getModuleAddress recipient) amt
  mintCoins := Ledger.mintCoins codec
  burnCoins := Ledger.burnCoins codec

variable {modules codec blocked}

section

variable {ledger ledger' : Ledger modules} {sender recipient : AccAddress} {amt : Coins} {events : List Event}
  {name : ModuleName}

theorem Ledger.sendCoins_eq_ok_iff :
    ledger.sendCoins codec sender recipient amt = .ok (ledger', events) ↔
      ∃ hcover : ledger.Covers sender amt,
        ledger' = ledger.move hcover recipient hcover.1 ledger.supply ∧
        events = [coinSpentEvent codec sender amt, coinReceivedEvent codec recipient amt] := by
  unfold Ledger.sendCoins
  by_cases hcover : ledger.Covers sender amt
  · simp [hcover, eq_comm]
  · simp [hcover]

theorem Ledger.mintCoins_eq_ok_iff :
    ledger.mintCoins codec name amt = .ok (ledger', events) ↔
      ∃ acc, modules.getModuleAccount name = some acc ∧ .minter ∈ acc.permissions ∧
        ∃ hvalid : amt.IsValid,
          ledger' = ledger.move (ledger.covers_nil acc.address) acc.address hvalid
            (fun denom => ledger.supply denom + amt.amountOf denom) ∧
          events = [coinReceivedEvent codec acc.address amt] := by
  unfold Ledger.mintCoins
  cases modules.getModuleAccount name with
  | none => simp
  | some acc =>
    by_cases hvalid : .minter ∈ acc.permissions ∧ amt.IsValid
    · simp [hvalid, eq_comm]
    · by_cases hpermission : .minter ∈ acc.permissions <;> simp_all

theorem Ledger.burnCoins_eq_ok_iff :
    ledger.burnCoins codec name amt = .ok (ledger', events) ↔
      ∃ acc, modules.getModuleAccount name = some acc ∧ .burner ∈ acc.permissions ∧
        ∃ hcover : ledger.Covers acc.address amt,
          ledger' = ledger.move hcover acc.address (ledger.covers_nil acc.address).1
            (fun denom => ledger.supply denom - amt.amountOf denom) ∧
          events = [coinSpentEvent codec acc.address amt] := by
  unfold Ledger.burnCoins
  cases modules.getModuleAccount name with
  | none => simp
  | some acc =>
    by_cases hcover : .burner ∈ acc.permissions ∧ ledger.Covers acc.address amt
    · simp [hcover, eq_comm]
    · by_cases hpermission : .burner ∈ acc.permissions <;> simp_all

theorem Ledger.move_spendable (ledger : Ledger modules) {out into : Coins} (hcover : ledger.Covers sender out)
    (hvalid : into.IsValid) (supply : Denom → ℤ) (a : AccAddress) (denom : Denom) :
    (ledger.move hcover recipient hvalid supply).spendable a denom =
      ledger.spendable a denom - share out sender a denom + share into recipient a denom := by
  unfold spendable move
  ring

end

@[simp]
theorem share_nil (who a : AccAddress) (denom : Denom) : share [] who a denom = 0 := by
  simp [share]

theorem ledgerBank_movesExactly : MovesExactly (ledgerBank modules codec blocked) modules where
  sendCoins_balance hsend a denom := by
    obtain ⟨hcover, rfl, -⟩ := sendCoins_eq_ok_iff.mp hsend
    rfl
  sendCoinsFromAccountToModule_eq hacc := by
    simp [ledgerBank, ModuleAccounts.getModuleAddress, hacc]
  sendCoinsFromModuleToModule_eq hsender hrecipient := by
    simp [ledgerBank, ModuleAccounts.getModuleAddress, hsender, hrecipient]
  mintCoins_balance hacc hmint a denom := by
    obtain ⟨acc, hacc', -, hvalid, rfl, -⟩ := mintCoins_eq_ok_iff.mp hmint
    obtain rfl := Option.some.inj (hacc.symm.trans hacc')
    simp [ledgerBank, Ledger.move]
  burnCoins_balance hacc hburn a denom := by
    obtain ⟨acc, hacc', -, hcover, rfl, -⟩ := burnCoins_eq_ok_iff.mp hburn
    obtain rfl := Option.some.inj (hacc.symm.trans hacc')
    simp [ledgerBank, Ledger.move]

theorem ledgerBank_lawful : Lawful (ledgerBank modules codec blocked) modules where
  toMovesExactly := ledgerBank_movesExactly
  spendable_nonneg ledger := ledger.spendable_nonneg
  module_spendable hacc ledger denom := by
    simp [ledgerBank, Ledger.spendable, ledger.module_locked hacc denom]
  sendCoins_spendable hsend a denom := by
    obtain ⟨hcover, rfl, -⟩ := sendCoins_eq_ok_iff.mp hsend
    exact Ledger.move_spendable ..
  sendCoins_supply hsend denom := by
    obtain ⟨hcover, rfl, -⟩ := sendCoins_eq_ok_iff.mp hsend
    rfl
  sendCoins_ok_iff {ledger sender recipient amt} hvalid := by
    refine Iff.trans ⟨?_, ?_⟩ (covers_iff hvalid)
    · rintro ⟨⟨_, _⟩, hsend⟩
      exact (sendCoins_eq_ok_iff.mp hsend).1
    · intro hcover
      exact ⟨_, sendCoins_eq_ok_iff.mpr ⟨hcover, rfl, rfl⟩⟩
  mintCoins_spendable hacc hmint a denom := by
    obtain ⟨acc, hacc', -, hvalid, rfl, -⟩ := mintCoins_eq_ok_iff.mp hmint
    obtain rfl := Option.some.inj (hacc.symm.trans hacc')
    simp [ledgerBank, Ledger.move_spendable]
  mintCoins_supply hmint denom := by
    obtain ⟨acc, -, -, hvalid, rfl, -⟩ := mintCoins_eq_ok_iff.mp hmint
    rfl
  mintCoins_ok hacc hpermission hvalid :=
    ⟨_, mintCoins_eq_ok_iff.mpr ⟨_, hacc, hpermission, hvalid, rfl, rfl⟩⟩
  burnCoins_spendable hacc hburn a denom := by
    obtain ⟨acc, hacc', -, hcover, rfl, -⟩ := burnCoins_eq_ok_iff.mp hburn
    obtain rfl := Option.some.inj (hacc.symm.trans hacc')
    simp [ledgerBank, Ledger.move_spendable]
  burnCoins_supply hburn denom := by
    obtain ⟨acc, -, -, hcover, rfl, -⟩ := burnCoins_eq_ok_iff.mp hburn
    rfl
  burnCoins_ok_iff {ledger name acc amt} hacc hpermission hvalid := by
    refine Iff.trans ⟨?_, ?_⟩ (covers_iff hvalid)
    · rintro ⟨⟨_, _⟩, hburn⟩
      obtain ⟨acc', hacc', -, hcover, -, -⟩ := burnCoins_eq_ok_iff.mp hburn
      obtain rfl := Option.some.inj (hacc.symm.trans hacc')
      exact hcover
    · intro hcover
      exact ⟨_, burnCoins_eq_ok_iff.mpr ⟨_, hacc, hpermission, hcover, rfl, rfl⟩⟩

end

end CosmosEvm
