import CosmosEvm.Erc20.Conversion

/-!
# The transfer keeper over ICS20

`Transfer` overrides the message of ICS20. Where the token belongs to an enabled pair it sends the coin of
the pair, and where the sender has too few coins of a native ERC20 it converts tokens into the missing ones
first.
-/

namespace CosmosEvm

namespace Ibc

structure MsgTransfer where
  sourcePort : String
  sourceChannel : String
  token : Coin
  sender : String
  receiver : String
  timeoutHeight : ℕ × ℕ
  timeoutTimestamp : ℕ
  memo : String

abbrev Ics20 (S : Type) := Ctx S → MsgTransfer → Except Err (Ctx S)

def erc20NativeCoinDenomPrefix : String := "erc20:"

def trimErc20 (denom : String) : String :=
  if Erc20.startsWith denom erc20NativeCoinDenomPrefix then
    String.ofList (denom.toList.drop erc20NativeCoinDenomPrefix.length)
  else denom

def MsgTransfer.withDenom (msg : MsgTransfer) (denom : Denom) : MsgTransfer :=
  { msg with token := { msg.token with denom } }

end Ibc

namespace Erc20.ConversionKeeper

open Ibc Result

variable {S Acc : Type} (k : ConversionKeeper S Acc)

def coverShortfall (s : ModuleState S) (msg : MsgTransfer) (pair : StoredPair) (sender : AccAddress) :
    Except Err (ModuleState S) :=
  let balance := k.bank.bk.spendableCoin s.ctx.store.sdk sender pair.denom
  if msg.token.amount ≤ balance then .ok s
  else
    k.convertERC20 s
      { contractAddress := k.lib.addressString pair.getERC20Contract
        amount := msg.token.amount - balance
        receiver := k.bank.codec.accAddressString sender
        sender := k.lib.addressString (bytesToAddress sender) }

/-- What `Transfer` does before it calls the wrapped keeper: the state and the message it calls it with. -/
def prepareTransfer (s : ModuleState S) (msg : MsgTransfer) : Except Err (ModuleState S × MsgTransfer) :=
  match s.store.getTokenPairID (trimErc20 msg.token.denom) with
  | none => .ok (s, msg)
  | some id =>
    match s.store.getTokenPair (some id) with
    -- the empty pair is not enabled
    | none => .ok (s, msg)
    | some pair =>
      if ¬ pair.enabled then .ok (s, msg)
      else
        match k.bank.codec.accAddressFromBech32 msg.sender with
        | none => .error (.panicked "decoding bech32 failed")
        | some sender =>
          if ¬ s.store.enableErc20 then .ok (s, msg)
          else
            let msg := msg.withDenom pair.denom
            match pair.contractOwner with
            | .external => (k.coverShortfall s msg pair sender).map fun s => (s, msg)
            | .module => .ok (s, msg)
            | .unspecified => .ok (s, msg)

def transfer (ics20 : Ics20 S) (s : ModuleState S) (msg : MsgTransfer) : Except Err (ModuleState S) := do
  let (s, msg) ← k.prepareTransfer s msg
  (ics20 s.ctx msg).map fun ctx => { s with ctx }

def activePair (store : Store) (denom : Denom) : Option StoredPair :=
  (store.getTokenPair (store.getTokenPairID (trimErc20 denom))).filter fun pair =>
    pair.enabled && store.enableErc20

variable {k}

theorem prepareTransfer_cases {s s' : ModuleState S} {msg msg' : MsgTransfer}
    (hok : k.prepareTransfer s msg = .ok (s', msg')) :
    activePair s.store msg.token.denom = none ∧ s' = s ∧ msg' = msg ∨
      ∃ pair sender, activePair s.store msg.token.denom = some pair ∧
        k.bank.codec.accAddressFromBech32 msg.sender = some sender ∧ msg' = msg.withDenom pair.denom ∧
        (pair.contractOwner ≠ .external ∧ s' = s ∨
          pair.contractOwner = .external ∧ k.coverShortfall s msg' pair sender = .ok s') := by
  unfold prepareTransfer at hok
  unfold activePair
  cases hid : s.store.getTokenPairID (trimErc20 msg.token.denom) with
  | none =>
    rw [hid] at hok
    cases hok
    exact .inl ⟨rfl, rfl, rfl⟩
  | some id =>
  cases hpair : s.store.getTokenPair (some id) with
  | none =>
    simp only [hid, hpair] at hok
    cases hok
    exact .inl ⟨rfl, rfl, rfl⟩
  | some pair =>
  simp only [hid, hpair] at hok
  by_cases henabled : pair.enabled = true
  swap
  · rw [if_pos henabled] at hok
    cases hok
    exact .inl ⟨by simp [henabled], rfl, rfl⟩
  rw [if_neg (not_not.mpr henabled)] at hok
  cases hsender : k.bank.codec.accAddressFromBech32 msg.sender with
  | none =>
    rw [hsender] at hok
    cases hok
  | some sender =>
  simp only [hsender] at hok
  by_cases hmodule : s.store.enableErc20 = true
  swap
  · rw [if_pos hmodule] at hok
    cases hok
    exact .inl ⟨by simp [hmodule], rfl, rfl⟩
  rw [if_neg (not_not.mpr hmodule)] at hok
  refine .inr ⟨pair, sender, by simp [henabled, hmodule], rfl, ?_⟩
  cases howner : pair.contractOwner with
  | module =>
    rw [howner] at hok
    cases hok
    exact ⟨rfl, .inl ⟨nofun, rfl⟩⟩
  | unspecified =>
    rw [howner] at hok
    cases hok
    exact ⟨rfl, .inl ⟨nofun, rfl⟩⟩
  | external =>
    simp only [howner] at hok
    obtain ⟨covered, hcovered, heq⟩ := map_eq_ok_iff.mp hok
    cases heq
    exact ⟨rfl, .inr ⟨rfl, hcovered⟩⟩

theorem coverShortfall_cases {s s' : ModuleState S} {msg : MsgTransfer} {pair : StoredPair}
    {sender : AccAddress} (hok : k.coverShortfall s msg pair sender = .ok s') :
    msg.token.amount ≤ k.bank.bk.spendableCoin s.ctx.store.sdk sender pair.denom ∧ s' = s ∨
      k.bank.bk.spendableCoin s.ctx.store.sdk sender pair.denom < msg.token.amount ∧
        k.convertERC20 s
          { contractAddress := k.lib.addressString pair.getERC20Contract
            amount := msg.token.amount - k.bank.bk.spendableCoin s.ctx.store.sdk sender pair.denom
            receiver := k.bank.codec.accAddressString sender
            sender := k.lib.addressString (bytesToAddress sender) } = .ok s' := by
  unfold coverShortfall at hok
  dsimp only at hok
  split_ifs at hok with hcovered
  · cases hok
    exact .inl ⟨hcovered, rfl⟩
  · exact .inr ⟨not_le.mp hcovered, hok⟩

theorem prepareTransfer_of_inactive {s : ModuleState S} {msg : MsgTransfer} {sender : AccAddress}
    (hactive : activePair s.store msg.token.denom = none)
    (hsender : k.bank.codec.accAddressFromBech32 msg.sender = some sender) :
    k.prepareTransfer s msg = .ok (s, msg) := by
  unfold prepareTransfer
  unfold activePair at hactive
  cases hid : s.store.getTokenPairID (trimErc20 msg.token.denom) with
  | none => rfl
  | some id =>
  cases hpair : s.store.getTokenPair (some id) with
  | none => simp only [hpair]
  | some pair =>
    simp only [hid, hpair, Option.filter_some, hsender] at hactive ⊢
    by_cases henabled : pair.enabled = true
    · by_cases hmodule : s.store.enableErc20 = true
      · simp [henabled, hmodule] at hactive
      · simp [henabled, hmodule]
    · simp [henabled]

theorem prepareTransfer_of_active {s : ModuleState S} {msg : MsgTransfer} {pair : StoredPair}
    {sender : AccAddress} (hactive : activePair s.store msg.token.denom = some pair)
    (hsender : k.bank.codec.accAddressFromBech32 msg.sender = some sender) :
    k.prepareTransfer s msg = match pair.contractOwner with
      | .external => (k.coverShortfall s (msg.withDenom pair.denom) pair sender).map fun s =>
        (s, msg.withDenom pair.denom)
      | .module => .ok (s, msg.withDenom pair.denom)
      | .unspecified => .ok (s, msg.withDenom pair.denom) := by
  obtain ⟨hpair, hon⟩ := Option.filter_eq_some_iff.mp hactive
  rw [Bool.and_eq_true] at hon
  unfold prepareTransfer
  cases hid : s.store.getTokenPairID (trimErc20 msg.token.denom) with
  | none =>
    rw [hid] at hpair
    cases hpair
  | some id =>
    rw [hid] at hpair
    simp only [hpair, hsender, hon.1, hon.2, not_true_eq_false, if_false]

end Erc20.ConversionKeeper

end CosmosEvm
