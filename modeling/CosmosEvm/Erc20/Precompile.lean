import CosmosEvm.Erc20.Registry
import CosmosEvm.PreciseBank.MsgSend

/-!
# The ERC20 precompile

A token pair as an ERC20 contract: balances are what the bank lets an account spend, transfers are sends of
the pair's coin, and allowances are kept by the erc20 module.
-/

namespace CosmosEvm.Erc20

open Result BankKeeper

inductive TokenLog where
  | transfer (source recipient : Address) (value : ℤ)
  | approval (owner spender : Address) (value : ℤ)

structure TokenState (S : Type) where
  ctx : Ctx S
  store : Store

structure Precompile (S : Type) where
  bank : PreciseBank.Keeper S
  sendEnabled : S → Denom → Bool
  lib : Libraries
  tokenPair : StoredPair

namespace Precompile

variable {S : Type} (p : Precompile S)

def address : Address := p.tokenPair.getERC20Contract

variable (st : TokenState S)

def balanceOf (account : Address) : ℤ :=
  p.bank.spendableCoin st.ctx account.bytes p.tokenPair.denom

def allowance (owner spender : Address) : ℤ :=
  st.store.getAllowance p.address owner spender

def totalSupply : ℤ := p.bank.bk.getSupply st.ctx.store.sdk p.tokenPair.denom

def contains (text words : String) : Bool :=
  text.toList.tails.any fun rest => words.toList.isPrefixOf rest

/-- `ConvertErrToERC20Error`, without the errors of IBC denominations, which only queries raise. -/
def convertErrToERC20Error : Err → Err
  | .panicked text => .panicked text
  | .wrapped root text =>
    if contains text "spendable balance" then
      .wrapped .other "ERC20: transfer amount exceeds balance"
    else if contains text "requested amount is more than spend limit" then
      .wrapped .other "ERC20: insufficient allowance"
    else if contains text "subtracted value cannot be greater than existing allowance" then
      .wrapped .other "ERC20: decreased allowance below zero"
    else if contains text "integer overflow when increasing allowance" ||
        contains text "invalid base denomination" || contains text "display denomination not found" ||
        contains text "invalid decimals" then
      .wrapped .other "execution reverted"
    else .wrapped root text

def setAllowance (store : Store) (owner spender : Address) (amount : ℤ) : Except Err Store :=
  if 2 ^ 256 ≤ |amount| then
    .error (.wrapped .other ("amount " ++ amount.repr ++ " causes integer overflow"))
  else p.lib.setAllowance store p.address owner spender amount false

def approveAllowance (store : Store) (owner spender : Address) (amount : ℤ) : Except Err Store :=
  let allowance := store.getAllowance p.address owner spender
  if allowance = 0 ∧ amount < 0 then .error (.wrapped .other "cannot approve negative values")
  else if allowance = 0 ∧ 0 < amount then p.setAllowance store owner spender amount
  else if 0 < allowance ∧ amount ≤ 0 then p.lib.setAllowance store p.address owner spender 0 false
  else if 0 < allowance ∧ 0 < amount then p.setAllowance store owner spender amount
  else .ok store

def approve (caller spender : Address) (amount : ℤ) :
    Except Err (TokenState S × List TokenLog) := do
  let store ← p.approveAllowance st.store caller spender amount
  .ok (⟨st.ctx, store⟩, [.approval caller spender amount])

def spendAllowance (store : Store) (owner spender : Address) (amount : ℤ) : Except Err Store :=
  let newAllowance := store.getAllowance p.address owner spender - amount
  if newAllowance < 0 then .error (.wrapped .other "ERC20: insufficient allowance")
  else (p.lib.setAllowance store p.address owner spender newAllowance false).mapError
    convertErrToERC20Error

def sendTokens (ctx : Ctx S) (source recipient : Address) (amount : ℤ) :
    Except Err (Ctx S) :=
  (p.bank.send p.sendEnabled ctx ⟨p.bank.codec.accAddressString source.bytes,
    p.bank.codec.accAddressString recipient.bytes, [⟨p.tokenPair.denom, amount⟩]⟩).mapError
      convertErrToERC20Error

def validateAmount (amount : ℤ) : Except Err Unit :=
  ensure (Coins.IsValid [⟨p.tokenPair.denom, amount⟩]) (.wrapped .other
    ("coin " ++ amount.repr ++ p.tokenPair.denom ++ " amount is not positive"))

def transfer (st : TokenState S) (caller recipient : Address) (amount : ℤ) :
    Except Err (TokenState S × List TokenLog) := do
  p.validateAmount amount
  let ctx ← p.sendTokens st.ctx caller recipient amount
  .ok (⟨ctx, st.store⟩, [.transfer caller recipient amount])

/-- `TransferFrom`. The variable of the new allowance is shadowed where it is computed, so that the
approval event always reports zero. -/
def transferFrom (caller source recipient : Address) (amount : ℤ) :
    Except Err (TokenState S × List TokenLog) := do
  p.validateAmount amount
  let store ← p.spendAllowance st.store source caller amount
  let ctx ← p.sendTokens st.ctx source recipient amount
  .ok (⟨ctx, store⟩, [.transfer source recipient amount, .approval source caller 0])

variable {p} {st st' : TokenState S} {store store' : Store} {caller owner spender source recipient : Address}
  {amount : ℤ} {logs : List TokenLog} {ctx' : Ctx S}

theorem sendTokens_eq_ok_iff (hcodec : p.bank.codec.RoundTrips) {ctx : Ctx S} :
    p.sendTokens ctx source recipient amount = .ok ctx' ↔
      p.bank.isSendEnabledCoin p.sendEnabled ctx p.tokenPair.denom = true ∧
        p.bank.bk.blockedAddr recipient.bytes = false ∧
        p.bank.sendCoins ctx source.bytes recipient.bytes [⟨p.tokenPair.denom, amount⟩] = .ok ctx' := by
  have hne : ∀ address : Address, address.bytes ≠ [] := by
    intro address hnil
    have hlength := address.length_bytes
    rw [hnil] at hlength
    cases hlength
  unfold sendTokens
  rw [mapError_eq_ok_iff, PreciseBank.Keeper.send_singleton_eq_ok_iff hcodec (hne source) (hne recipient)]

theorem transfer_eq_ok_iff : p.transfer st caller recipient amount = .ok (st', logs) ↔
    Coins.IsValid [⟨p.tokenPair.denom, amount⟩] ∧ st'.store = st.store ∧
      p.sendTokens st.ctx caller recipient amount = .ok st'.ctx ∧
      logs = [.transfer caller recipient amount] := by
  unfold transfer validateAmount
  simp only [bind_eq_ok_iff, ensure_eq_ok_iff, exists_const, Except.ok.injEq, Prod.mk.injEq]
  constructor
  · rintro ⟨hvalid, ctx, hsend, rfl, rfl⟩
    exact ⟨hvalid, rfl, hsend, rfl⟩
  · rintro ⟨hvalid, hstore, hsend, rfl⟩
    exact ⟨hvalid, st'.ctx, hsend, by rw [← hstore], rfl⟩

theorem transferFrom_eq_ok_iff : p.transferFrom st caller source recipient amount = .ok (st', logs) ↔
    Coins.IsValid [⟨p.tokenPair.denom, amount⟩] ∧
      p.spendAllowance st.store source caller amount = .ok st'.store ∧
      p.sendTokens st.ctx source recipient amount = .ok st'.ctx ∧
      logs = [.transfer source recipient amount, .approval source caller 0] := by
  unfold transferFrom validateAmount
  simp only [bind_eq_ok_iff, ensure_eq_ok_iff, exists_const, Except.ok.injEq, Prod.mk.injEq]
  constructor
  · rintro ⟨hvalid, store, hspend, ctx, hsend, rfl, rfl⟩
    exact ⟨hvalid, hspend, hsend, rfl⟩
  · rintro ⟨hvalid, hspend, hsend, rfl⟩
    exact ⟨hvalid, st'.store, hspend, st'.ctx, hsend, rfl, rfl⟩

theorem approve_eq_ok_iff : p.approve st caller spender amount = .ok (st', logs) ↔
    p.approveAllowance st.store caller spender amount = .ok st'.store ∧ st'.ctx = st.ctx ∧
      logs = [.approval caller spender amount] := by
  unfold approve
  simp only [bind_eq_ok_iff, Except.ok.injEq, Prod.mk.injEq]
  constructor
  · rintro ⟨store, happrove, rfl, rfl⟩
    exact ⟨happrove, rfl, rfl⟩
  · rintro ⟨happrove, hctx, rfl⟩
    exact ⟨st'.store, happrove, by rw [← hctx], rfl⟩

theorem spendAllowance_eq_ok_iff : p.spendAllowance store owner spender amount = .ok store' ↔
    amount ≤ store.getAllowance p.address owner spender ∧
      p.lib.setAllowance store p.address owner spender
        (store.getAllowance p.address owner spender - amount) false = .ok store' := by
  unfold spendAllowance
  dsimp only
  rw [ite_error_eq_ok_iff, mapError_eq_ok_iff, not_lt, sub_nonneg]

end Precompile

end CosmosEvm.Erc20
