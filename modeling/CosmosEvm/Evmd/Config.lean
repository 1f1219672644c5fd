import CosmosEvm.PreciseBank.Keeper
import CosmosEvm.Sdk.LedgerBank
import CosmosEvm.Sdk.TextCodec

/-!
# The wiring of evmd

The module accounts of the example chain with their permissions, the coins of its chain ids, and an
x/precisebank keeper over the ledger bank.
-/

namespace CosmosEvm.Evmd

def maccPerms : List (ModuleName × List Permission) :=
  [("fee_collector", []), ("distribution", []), ("transfer", [.minter, .burner]),
    ("mint", [.minter]), ("bonded_tokens_pool", [.burner, .staking]),
    ("not_bonded_tokens_pool", [.burner, .staking]), ("gov", [.burner]),
    ("evm", [.minter, .burner]), ("feemarket", []), ("erc20", [.minter, .burner]),
    ("precisebank", [.minter, .burner])]

variable (name : ModuleName)

/-- An address of 20 bytes for a module's name, in place of the hash the SDK takes. -/
def moduleAddress : Address :=
  bytesToAddress (name.toList.map fun c => lowByte c.toNat)

theorem moduleAddress_bytes_ne_nil : (moduleAddress name).bytes ≠ [] := by
  intro heq
  have hlength := (moduleAddress name).length_bytes
  simp [heq] at hlength

def moduleAccount (permissions : List Permission) : ModuleAccount where
  address := (moduleAddress name).bytes
  permissions := permissions
  address_ne_nil := moduleAddress_bytes_ne_nil name

def getModuleAccount : Option ModuleAccount :=
  (maccPerms.find? fun entry => entry.1 = name).map fun entry => moduleAccount entry.1 entry.2

theorem moduleAddress_injOn : ∀ left ∈ maccPerms, ∀ right ∈ maccPerms,
    (moduleAddress left.1).bytes = (moduleAddress right.1).bytes → left.1 = right.1 := by
  decide +kernel

theorem getModuleAccount_eq_some {name : ModuleName} {acc : ModuleAccount}
    (hacc : getModuleAccount name = some acc) :
    ∃ entry ∈ maccPerms, entry.1 = name ∧ acc = moduleAccount name entry.2 := by
  unfold getModuleAccount at hacc
  obtain ⟨entry, hfind, rfl⟩ := Option.map_eq_some_iff.mp hacc
  have hname : entry.1 = name := by simpa using List.find?_some hfind
  exact ⟨entry, List.mem_of_find?_eq_some hfind, hname, by rw [hname]⟩

def moduleAccounts : ModuleAccounts where
  getModuleAccount := getModuleAccount
  address_injective {left right accLeft accRight} hleft hright heq := by
    obtain ⟨entry, hentry, rfl, rfl⟩ := getModuleAccount_eq_some hleft
    obtain ⟨entry', hentry', rfl, rfl⟩ := getModuleAccount_eq_some hright
    exact moduleAddress_injOn entry hentry entry' hentry' heq

def sixDecimalsCoin : EvmCoinInfo where
  denom := "utest"
  extendedDenom := "atest"
  decimals := ⟨6, by decide, by decide⟩
  validateDenom_denom := by decide
  validateDenom_extendedDenom := by decide
  denom_eq_of_eighteen := by decide

def eighteenDecimalsCoin : EvmCoinInfo where
  denom := "aatom"
  extendedDenom := "aatom"
  decimals := ⟨18, by decide, by decide⟩
  validateDenom_denom := by decide
  validateDenom_extendedDenom := by decide
  denom_eq_of_eighteen := fun _ => rfl

def blockedAddr (address : AccAddress) : Bool :=
  maccPerms.any fun entry => (moduleAddress entry.1).bytes = address

theorem minter_mem_moduleAccount :
    .minter ∈ (moduleAccount name [.minter, .burner]).permissions := by
  simp [moduleAccount]

theorem burner_mem_moduleAccount :
    .burner ∈ (moduleAccount name [.minter, .burner]).permissions := by
  simp [moduleAccount]

theorem getModuleAccount_precisebank : moduleAccounts.getModuleAccount PreciseBank.moduleName =
    some (moduleAccount "precisebank" [.minter, .burner]) := rfl

def preciseBankKeeper (coinInfo : EvmCoinInfo) : PreciseBank.Keeper (Ledger moduleAccounts) where
  coinInfo := coinInfo
  modules := moduleAccounts
  bk := ledgerBank moduleAccounts textCodec blockedAddr
  codec := textCodec
  reserve := moduleAccount "precisebank" [.minter, .burner]
  getModuleAccount_moduleName := getModuleAccount_precisebank
  minter_mem := minter_mem_moduleAccount "precisebank"
  burner_mem := burner_mem_moduleAccount "precisebank"

theorem preciseBankKeeper_lawful (coinInfo : EvmCoinInfo) :
    (preciseBankKeeper coinInfo).bk.Lawful (preciseBankKeeper coinInfo).modules :=
  ledgerBank_lawful

def genesisLedger (balances : List (AccAddress × Coins)) : Ledger moduleAccounts :=
  balances.foldl (fun ledger entry => ledger.credit entry.1 entry.2) (Ledger.empty moduleAccounts)

def genesisContext (balances : List (AccAddress × Coins)) :
    Ctx (Ledger moduleAccounts) where
  store := ⟨genesisLedger balances, ∅, none, ⟨∅, ∅, ∅⟩⟩
  events := []

end CosmosEvm.Evmd
