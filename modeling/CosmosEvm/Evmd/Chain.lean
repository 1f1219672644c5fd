import CosmosEvm.Sdk.AuthLedger
import CosmosEvm.Vm.Balance

namespace CosmosEvm.Evmd

variable (coinInfo : EvmCoinInfo)

def chainBank : PreciseBank.Keeper (AuthLedger moduleAccounts) where
  coinInfo := coinInfo
  modules := moduleAccounts
  bk := authBank moduleAccounts textCodec blockedAddr
  codec := textCodec
  reserve := moduleAccount "precisebank" [.minter, .burner]
  getModuleAccount_moduleName := getModuleAccount_precisebank
  minter_mem := minter_mem_moduleAccount "precisebank"
  burner_mem := burner_mem_moduleAccount "precisebank"

/-- The x/vm keeper of a chain with the given coin. A hash that keeps the last bytes stands for
Keccak-256. -/
def vmKeeper : Vm.Keeper (AuthLedger moduleAccounts) AuthAccount where
  bank := chainBank coinInfo
  ak := authKeeper moduleAccounts
  keccak256 := bytesToHash
  account := moduleAccount "evm" [.minter, .burner]
  getModuleAccount_moduleName := rfl
  minter_mem := minter_mem_moduleAccount "evm"
  burner_mem := burner_mem_moduleAccount "evm"

theorem vmKeeper_wired : (vmKeeper coinInfo).Wired where
  bank := authBank_lawful
  auth := authKeeper_lawful
  reserve_blocked := by
    change blockedAddr (moduleAccount "precisebank" [.minter, .burner]).address = true
    decide +kernel

theorem credit_locked (ledger : Ledger moduleAccounts) (a : AccAddress) (amt : Coins) :
    (ledger.credit a amt).locked = ledger.locked := by
  unfold Ledger.credit
  split <;> rfl

variable (balances : List (AccAddress × Coins))

theorem genesisLedger_locked (a : AccAddress) (denom : Denom) :
    (genesisLedger balances).locked a denom = 0 := by
  unfold genesisLedger
  suffices hfold : ∀ ledger : Ledger moduleAccounts,
      (balances.foldl (fun ledger entry => ledger.credit entry.1 entry.2) ledger).locked =
        ledger.locked by
    rw [hfold]
    rfl
  intro ledger
  induction balances generalizing ledger with
  | nil => rfl
  | cons entry balances ih => rw [List.foldl_cons, ih, credit_locked]

/-- The accounts a chain starts with: those of the holders, and the two module accounts that coins of the
EVM pass through. -/
def genesisAuth : AuthLedger moduleAccounts :=
  (balances.map Prod.fst ++ [(moduleAddress "evm").bytes, (moduleAddress "precisebank").bytes]).foldl
    AuthLedger.ensureAccount
    { ledger := genesisLedger balances
      accounts := ∅
      globalAccountNumber := 0
      address_eq := fun hlookup => by simp at hlookup
      vesting_of_locked := fun hlocked => absurd (genesisLedger_locked balances _ _) hlocked }

def genesisChain : Ctx (AuthLedger moduleAccounts) where
  store := ⟨genesisAuth balances, ∅, none, ⟨∅, ∅, ∅⟩⟩
  events := []

theorem genesisAuth_coins :
    (genesisAuth balances).ledger.balance = (genesisLedger balances).balance ∧
      (genesisAuth balances).ledger.spendable = (genesisLedger balances).spendable := by
  have hfold : ∀ (parties : List AccAddress) (s : AuthLedger moduleAccounts),
      (parties.foldl AuthLedger.ensureAccount s).ledger.balance = s.ledger.balance ∧
        (parties.foldl AuthLedger.ensureAccount s).ledger.spendable = s.ledger.spendable := by
    intro parties
    induction parties with
    | nil => exact fun s => ⟨rfl, rfl⟩
    | cons party parties ih =>
      intro s
      obtain ⟨hbalance, -, hspendable⟩ := s.ensureAccount_coins party
      exact ⟨(ih _).1.trans hbalance, (ih _).2.trans hspendable⟩
  exact hfold _ _

theorem genesisLedger_balance_le (a : AccAddress)
    (denom : Denom) : (genesisLedger balances).balance a denom ≤ (genesisLedger balances).supply denom := by
  unfold genesisLedger
  have hcredit : ∀ (ledger : Ledger moduleAccounts) (entry : AccAddress × Coins),
      ledger.balance a denom ≤ ledger.supply denom →
        (ledger.credit entry.1 entry.2).balance a denom ≤
          (ledger.credit entry.1 entry.2).supply denom := by
    intro ledger entry hle
    unfold Ledger.credit
    split
    · rename_i hvalid
      have hamount := hvalid.amountOf_nonneg denom
      simp only [Ledger.move, BankKeeper.share, Coins.amountOf_nil]
      split <;> linarith
    · exact hle
  suffices hfold : ∀ ledger : Ledger moduleAccounts, ledger.balance a denom ≤ ledger.supply denom →
      (balances.foldl (fun ledger entry => ledger.credit entry.1 entry.2) ledger).balance a denom ≤
        (balances.foldl (fun ledger entry => ledger.credit entry.1 entry.2) ledger).supply denom from
    hfold _ le_rfl
  induction balances with
  | nil => exact fun ledger hle => hle
  | cons entry balances ih => exact fun ledger hle => ih _ (hcredit ledger entry hle)

theorem backed_genesisChain (balances : List (AccAddress × Coins))
    (hreserve : (genesisLedger balances).balance (chainBank coinInfo).reserve.address coinInfo.denom = 0) :
    PreciseBank.Keeper.Backed (chainBank coinInfo) (genesisChain balances) := by
  refine .of_empty rfl rfl ?_
  change (genesisAuth balances).ledger.balance _ _ = 0
  rw [(genesisAuth_coins balances).1]
  exact hreserve

theorem spendableCoin_genesisChain_le (balances : List (AccAddress × Coins))
    (addr : Address) : (vmKeeper coinInfo).spendableCoin (genesisChain balances) addr ≤
      (genesisLedger balances).supply coinInfo.denom * (chainBank coinInfo).conversionFactor := by
  have hfactor := (chainBank coinInfo).conversionFactor_pos.le
  have hsupply : ∀ a, 0 ≤ (genesisLedger balances).spendable a coinInfo.denom ∧
      (genesisLedger balances).spendable a coinInfo.denom ≤
        (genesisLedger balances).supply coinInfo.denom := by
    intro a
    refine ⟨(genesisLedger balances).spendable_nonneg a _, ?_⟩
    rw [Ledger.spendable, genesisLedger_locked, sub_zero]
    exact genesisLedger_balance_le balances a _
  change (chainBank coinInfo).spendableCoin (genesisChain balances) addr.bytes
    (chainBank coinInfo).extendedCoinDenom ≤ _
  by_cases hreserve : addr.bytes = (chainBank coinInfo).reserve.address
  · rw [hreserve]
    simp only [PreciseBank.Keeper.spendableCoin, (chainBank coinInfo).getModuleAddress_moduleName,
      and_self, if_true]
    obtain ⟨hnonneg, hle⟩ := hsupply addr.bytes
    exact mul_nonneg (hnonneg.trans hle) hfactor
  · rw [PreciseBank.Keeper.spendableCoin_extendedCoinDenom hreserve, PreciseBank.Keeper.valueOf]
    have hspendable : (chainBank coinInfo).bk.spendableCoin (genesisChain balances).store.sdk addr.bytes
        (chainBank coinInfo).integerCoinDenom =
          (genesisLedger balances).spendable addr.bytes coinInfo.denom :=
      congrFun (congrFun (genesisAuth_coins balances).2 addr.bytes) coinInfo.denom
    rw [hspendable]
    change _ + (0 : ℤ) ≤ _
    rw [add_zero]
    exact mul_le_mul_of_nonneg_right (hsupply addr.bytes).2 hfactor

end CosmosEvm.Evmd
