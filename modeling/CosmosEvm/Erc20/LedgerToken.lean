import CosmosEvm.Erc20.Conversion

namespace CosmosEvm.Erc20

open Result Vm

theorem foldl_bigEndian (width n : ℕ) :
    (bigEndian width n).foldl (fun value byte => value * 256 + byte.val) 0 = n % 256 ^ width := by
  induction width generalizing n with
  | zero => simp [bigEndian, Nat.mod_one]
  | succ width ih =>
    have hlow : (lowByte n).val = n % 256 := rfl
    rw [bigEndian, List.foldl_append, ih, List.foldl_cons, List.foldl_nil, hlow, pow_succ',
      Nat.mod_mul, mul_comm (256 : ℕ), add_comm]

theorem foldl_bytes_lt (bytes : Bytes) (value : ℕ) :
    bytes.foldl (fun value byte => value * 256 + byte.val) value < (value + 1) * 256 ^ bytes.length := by
  induction bytes generalizing value with
  | nil => simp
  | cons byte bytes ih =>
    have hbyte := byte.isLt
    calc (byte :: bytes).foldl (fun value byte => value * 256 + byte.val) value
        < (value * 256 + byte.val + 1) * 256 ^ bytes.length := ih _
      _ ≤ (value + 1) * 256 * 256 ^ bytes.length := by
          gcongr
          omega
      _ = (value + 1) * 256 ^ (byte :: bytes).length := by rw [List.length_cons, pow_succ']; ring

def word (n : ℕ) : Hash := bytesToHash (bigEndian 32 n)

theorem bytes_word (n : ℕ) : (word n).bytes = bigEndian 32 n := by
  unfold word bytesToHash FixedBytes.ofBytes
  simp

theorem firstWord_word {n : ℕ} (hn : n < 2 ^ 256) : firstWord (word n).bytes = some n := by
  unfold firstWord
  rw [bytes_word, length_bigEndian, if_neg (by decide), List.take_of_length_le (by simp),
    foldl_bigEndian, Nat.mod_eq_of_lt (by norm_num at hn ⊢; exact hn)]

theorem firstWord_hash (value : Hash) : (firstWord value.bytes).isSome = true := by
  unfold firstWord
  rw [value.length_bytes, if_neg (by decide)]
  rfl

theorem tokenSlot_injective : Function.Injective tokenSlot := by
  intro left right heq
  have hlength : left.bytes.length = right.bytes.length := by rw [left.length_bytes, right.length_bytes]
  exact FixedBytes.bytes_injective (bytesToHash_inj hlength (by rw [left.length_bytes]; decide) heq)

section Contract

variable {S : Type}

def storedTokens (store : MultiStore S) (contract account : Address) : ℕ :=
  (firstWord (Vm.Keeper.getState store contract (tokenSlot account)).bytes).getD 0

theorem storedTokens_lt (store : MultiStore S) (contract account : Address) :
    storedTokens store contract account < 2 ^ 256 := by
  unfold storedTokens firstWord
  rw [FixedBytes.length_bytes, if_neg (by decide), Option.getD_some,
    List.take_of_length_le (FixedBytes.length_bytes _).le]
  have hlt := foldl_bytes_lt (Vm.Keeper.getState store contract (tokenSlot account)).bytes 0
  rw [FixedBytes.length_bytes] at hlt
  norm_num at hlt ⊢
  exact hlt

variable (ctx : Ctx S)

def writeTokens (contract account : Address) (balance : ℕ) : Ctx S :=
  Vm.Keeper.setState ctx contract (tokenSlot account) (word balance).bytes

theorem getState_writeTokens (contract account : Address) (balance : ℕ)
    (contract' account' : Address) :
    Vm.Keeper.getState (writeTokens ctx contract account balance).store contract' (tokenSlot account') =
      if contract' = contract ∧ account' = account then word balance
      else Vm.Keeper.getState ctx.store contract' (tokenSlot account') := by
  split_ifs with heq
  · rw [heq.1, heq.2]
    exact Vm.Keeper.getState_of_lookup_bytes (Finmap.lookup_insert _)
  · have hne : (contract', tokenSlot account') ≠ (contract, tokenSlot account) := by
      intro hkey
      exact heq ⟨congrArg Prod.fst hkey, tokenSlot_injective (congrArg Prod.snd hkey)⟩
    have hlookup : (writeTokens ctx contract account balance).store.evm.storage.lookup
        (contract', tokenSlot account') = ctx.store.evm.storage.lookup (contract', tokenSlot account') :=
      Finmap.lookup_insert_of_ne _ hne
    unfold Vm.Keeper.getState
    rw [hlookup]

theorem storedTokens_writeTokens (contract account : Address) {balance : ℕ}
    (hbalance : balance < 2 ^ 256) (contract' account' : Address) :
    storedTokens (writeTokens ctx contract account balance).store contract' account' =
      if contract' = contract ∧ account' = account then balance
      else storedTokens ctx.store contract' account' := by
  unfold storedTokens
  rw [getState_writeTokens]
  split_ifs
  · rw [firstWord_word hbalance]
    rfl
  · rfl

def reverted : Err := .wrapped .other "execution reverted"

def ledgerToken (caller contract : Address) (_commit : Bool) :
    ContractCall → Except Err MsgEthereumTxResponse × Ctx S
  | .balanceOf account =>
    (.ok (returning (Vm.Keeper.getState ctx.store contract (tokenSlot account)).bytes), ctx)
  | .transfer recipient amount =>
    if amount < 0 ∨ storedTokens ctx.store contract caller < amount.toNat then (.error reverted, ctx)
    else
      let paid := writeTokens ctx contract caller
        (storedTokens ctx.store contract caller - amount.toNat)
      let balance := storedTokens paid.store contract recipient + amount.toNat
      if 2 ^ 256 ≤ balance then (.error reverted, ctx)
      else (.ok (returning (word 1).bytes), writeTokens paid contract recipient balance)

theorem ledgerToken_transfer_cases (caller contract recipient : Address)
    (commit : Bool) (amount : ℤ) :
    ledgerToken ctx caller contract commit (.transfer recipient amount) = (.error reverted, ctx) ∨
      0 ≤ amount ∧ amount.toNat ≤ storedTokens ctx.store contract caller ∧
        ∃ balance < 2 ^ 256, balance = storedTokens (writeTokens ctx contract caller
            (storedTokens ctx.store contract caller - amount.toNat)).store contract recipient + amount.toNat ∧
          ledgerToken ctx caller contract commit (.transfer recipient amount) =
            (.ok (returning (word 1).bytes), writeTokens (writeTokens ctx contract caller
              (storedTokens ctx.store contract caller - amount.toNat)) contract recipient balance) := by
  unfold ledgerToken
  dsimp only
  split_ifs with hrefused hoverflow
  · exact .inl rfl
  · exact .inl rfl
  · rw [not_or, not_lt, not_lt] at hrefused
    exact .inr ⟨hrefused.1, hrefused.2, _, not_le.mp hoverflow, rfl, rfl⟩

theorem ledgerToken_events (events : List Event) (caller contract : Address)
    (call : ContractCall) : (ledgerToken { ctx with events } caller contract false call).1 =
      (ledgerToken ctx caller contract false call).1 := by
  cases call with
  | balanceOf account => rfl
  | transfer recipient amount =>
    have hpaid : ∀ balance, (writeTokens { ctx with events } contract caller balance).store =
        (writeTokens ctx contract caller balance).store := fun _ => rfl
    unfold ledgerToken
    simp only [hpaid]
    split_ifs <;> rfl

theorem ledgerToken_sdk (caller contract : Address) (commit : Bool) (call : ContractCall) :
    (ledgerToken ctx caller contract commit call).2.store.sdk = ctx.store.sdk := by
  cases call with
  | balanceOf account => rfl
  | transfer recipient amount =>
    obtain hrefused | ⟨-, -, balance, -, -, hmoved⟩ :=
      ledgerToken_transfer_cases ctx caller contract recipient commit amount
    · rw [hrefused]
    · rw [hmoved]
      rfl

theorem storedTokens_transfer {ctx ctx' : Ctx S} {caller contract recipient : Address}
    {commit : Bool} {amount : ℤ} {res : MsgEthereumTxResponse}
    (hok : ledgerToken ctx caller contract commit (.transfer recipient amount) = (.ok res, ctx'))
    (contract' account : Address) :
    (storedTokens ctx'.store contract' account : ℤ) = storedTokens ctx.store contract' account +
      if contract' = contract then
        (if account = recipient then amount else 0) - (if account = caller then amount else 0)
      else 0 := by
  obtain hrefused | ⟨hnonneg, hcovered, balance, hlt, hbalance, hmoved⟩ :=
    ledgerToken_transfer_cases ctx caller contract recipient commit amount
  · cases hrefused.symm.trans hok
  cases hmoved.symm.trans hok
  have hpaid : storedTokens ctx.store contract caller - amount.toNat < 2 ^ 256 :=
    (Nat.sub_le _ _).trans_lt (storedTokens_lt ctx.store contract caller)
  rw [storedTokens_writeTokens _ _ _ hlt, storedTokens_writeTokens _ _ _ hpaid, hbalance,
    storedTokens_writeTokens _ _ _ hpaid]
  have hamount : (amount.toNat : ℤ) = amount := Int.toNat_of_nonneg hnonneg
  by_cases hcontract : contract' = contract
  swap
  · simp [hcontract]
  subst hcontract
  by_cases hrecipient : account = recipient
  · subst hrecipient
    by_cases hcaller : account = caller
    · subst hcaller
      simp only [and_self, if_true]
      omega
    · simp only [true_and, if_true, if_neg hcaller]
      omega
  · by_cases hcaller : account = caller
    · subst hcaller
      simp only [true_and, if_true, if_neg hrecipient]
      omega
    · simp [hrecipient, hcaller]

end Contract

def ledgerKeeper : ConversionKeeper (AuthLedger Evmd.moduleAccounts) AuthAccount where
  toKeeper := { tokenKeeper true with
    callEVM := ledgerToken
    query_events := ledgerToken_events }
  lib := plainLibraries
  isSendEnabledCoin _ _ := true
  isContract _ contract := contract = contractPair.getERC20Contract
  registerERC20CodeHash _ _ := .ok ()
  bondDenom _ := .ok "utest"
  unmarshalJSON _ := none
  getAccAddressFromBech32 text := match textCodec.accAddressFromBech32 text with
    | none => .error (.wrapped .other "decoding bech32 failed")
    | some address => .ok address
  receivedDenom _ denom := denom
  newErrorAcknowledgement err := err.text

theorem balanceOf_ledgerKeeper (ctx : Ctx (AuthLedger Evmd.moduleAccounts))
    (contract account : Address) :
    ledgerKeeper.balanceOf ctx contract account = some (storedTokens ctx.store contract account : ℤ) := by
  obtain ⟨n, hn⟩ := Option.isSome_iff_exists.mp
    (firstWord_hash (Vm.Keeper.getState ctx.store contract (tokenSlot account)))
  have htokens : storedTokens ctx.store contract account = n := by
    unfold storedTokens
    rw [hn]
    rfl
  have hcall : ledgerKeeper.callEVM ctx ledgerKeeper.moduleAddress contract false (.balanceOf account) =
      (.ok (returning (Vm.Keeper.getState ctx.store contract (tokenSlot account)).bytes), ctx) := rfl
  unfold Keeper.balanceOf
  simp only [hcall, returning, hn, htokens]
  rfl

def registeredPair (enabled : Bool) : StoredPair := { contractPair with enabled }

def registeredStore (enabled : Bool) : Store :=
  let pair := registeredPair enabled
  { Store.empty with
    enableErc20 := true
    pairs := Finmap.insert (plainLibraries.getID pair) pair ∅
    byErc20 := Finmap.insert pair.getERC20Contract (plainLibraries.getID pair) ∅
    byDenom := Finmap.insert pair.denom (plainLibraries.getID pair) ∅ }

theorem linked_registeredStore (enabled : Bool) : plainLibraries.Linked (registeredStore enabled) := by
  have hempty : plainLibraries.Linked { Store.empty with enableErc20 := true } :=
    Libraries.kept_empty.toLinked.congr rfl rfl rfl
  have hhex : isHexAddress (registeredPair enabled).erc20Address = true :=
    isHexAddress_lowerHex voucherAddress
  exact hempty.setToken plainLibraries_lawful hhex
    (Libraries.setToken_eq_ok_iff.mpr ⟨Finmap.lookup_empty _, Finmap.lookup_empty _, rfl⟩)

theorem lookup_registeredStore {enabled : Bool} {id : Bytes} {pair : StoredPair}
    (hpair : (registeredStore enabled).pairs.lookup id = some pair) : pair = registeredPair enabled := by
  by_cases heq : id = plainLibraries.getID (registeredPair enabled)
  · subst heq
    exact Option.some.inj (hpair.symm.trans (Finmap.lookup_insert _))
  · have hlookup : (registeredStore enabled).pairs.lookup id = none :=
      (Finmap.lookup_insert_of_ne _ heq).trans (Finmap.lookup_empty _)
    cases hlookup.symm.trans hpair

def holderContext (coins moduleTokens holderTokens : ℕ) :
    Ctx (AuthLedger Evmd.moduleAccounts) :=
  let genesis := Evmd.genesisChain [(tokenHolder.bytes, Coins.newCoins ⟨contractPair.denom, coins⟩),
    ((Evmd.moduleAddress "erc20").bytes, [])]
  writeTokens (writeTokens genesis contractPair.getERC20Contract (Evmd.moduleAddress "erc20") moduleTokens)
    contractPair.getERC20Contract tokenHolder holderTokens

end CosmosEvm.Erc20
