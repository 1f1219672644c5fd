import CosmosEvm.Erc20.Allowances
import CosmosEvm.Ibc.Callbacks

namespace CosmosEvm.Ibc

open Erc20 Vm

/-- A panic unwinds the caller; it is not an error that is returned. -/
def IsPanic : Err → Prop
  | .panicked _ => True
  | .wrapped _ _ => False

@[simp] theorem isPanic_panicked (text : String) : IsPanic (.panicked text) := trivial

@[simp] theorem not_isPanic_wrapped (root : SdkError) (text : String) : ¬ IsPanic (.wrapped root text) :=
  id

@[simp] theorem isPanic_wrapText (registered text : String) (err : Err) :
    IsPanic (wrapText registered text err) ↔ IsPanic err := by
  cases err <;> simp [wrapText]

@[simp] theorem isPanic_wrap (text : String) (err : Err) : IsPanic (err.wrap text) ↔ IsPanic err := by
  cases err <;> simp [Err.wrap]

theorem not_isPanic_of_unpackBool {ret : Bytes} {err : Err} (hunpack : unpackBool ret = .error err) :
    ¬ IsPanic err := by
  unfold unpackBool at hunpack
  split at hunpack
  · cases hunpack
    exact not_isPanic_wrapped _ _
  · cases hunpack
  · cases hunpack
  · cases hunpack
    exact not_isPanic_wrapped _ _

theorem consume_cases (meter : GasMeter) (amount : ℕ) :
    (meter.Rejects amount ∧ ∃ text, consume meter amount = .error (.panicked text)) ∨
      (¬ meter.Rejects amount ∧ consume meter amount = .ok (meter.charge amount)) := by
  unfold consume GasMeter.consumeGas GasMeter.Rejects
  by_cases hoverflow : 2 ^ 64 ≤ meter.consumed + amount
  · exact .inl ⟨.inl hoverflow, _, by rw [if_pos hoverflow]⟩
  rw [if_neg hoverflow]
  by_cases hpast : meter.infinite = false ∧ meter.limit < meter.consumed + amount
  · exact .inl ⟨.inr hpast, _, by rw [if_pos hpast]⟩
  · exact .inr ⟨not_or.mpr ⟨hoverflow, hpast⟩, by rw [if_neg hpast]⟩

def SameStores {S : Type} (left right : TokenState S) : Prop :=
  left.ctx.store = right.ctx.store ∧ left.store = right.store

theorem sameStores_refl {S : Type} (st : TokenState S) : SameStores st st := ⟨rfl, rfl⟩

structure KeepsLaw {S : Type} (start : CallContext S) (limit : ℕ) (trace : Trace S) : Prop where
  atomic : ∀ root text, trace.outcome = .error (.wrapped root text) → SameStores trace.ctx.st start.st
  charged : trace.outcome = .ok () →
    trace.ctx.meter.consumed = start.meter.consumed + trace.evmGas.sum
  bounded : trace.evmGas.sum ≤ limit

section

variable {S : Type} {start ctx : CallContext S} {limit : ℕ} {evmGas : List ℕ}

theorem keepsLaw_error_iff {err : Err} :
    KeepsLaw start limit ⟨.error err, ctx, evmGas⟩ ↔
      (IsPanic err ∨ SameStores ctx.st start.st) ∧ evmGas.sum ≤ limit := by
  constructor
  · intro hlaw
    refine ⟨?_, hlaw.bounded⟩
    cases err with
    | wrapped root text => exact .inr (hlaw.atomic root text rfl)
    | panicked text => exact .inl trivial
  · rintro ⟨hkept, hbounded⟩
    refine ⟨?_, nofun, hbounded⟩
    intro root text herr
    cases herr
    exact hkept.resolve_left (not_isPanic_wrapped root text)

theorem keepsLaw_ok_iff :
    KeepsLaw start limit ⟨.ok (), ctx, evmGas⟩ ↔
      ctx.meter.consumed = start.meter.consumed + evmGas.sum ∧ evmGas.sum ≤ limit :=
  ⟨fun hlaw => ⟨hlaw.charged rfl, hlaw.bounded⟩, fun ⟨hcharged, hbounded⟩ =>
    ⟨nofun, fun _ => hcharged, hbounded⟩⟩

theorem keepsLaw_start (outcome : Except Err Unit) : KeepsLaw start limit ⟨outcome, start, []⟩ :=
  ⟨fun _ _ _ => sameStores_refl start.st, fun _ => rfl, Nat.zero_le limit⟩

end

def executedGas : Except (Err × ℕ) MsgEthereumTxResponse → ℕ
  | .error (_, gas) => gas
  | .ok res => res.gasUsed

namespace ContractKeeper

inductive Settles {S : Type} (meter : GasMeter) :
    Except (Err × ℕ) MsgEthereumTxResponse × TokenState S → Called S → Prop where
  | refused {err err' : Err} {gas : ℕ} {st : TokenState S} (hpanic : IsPanic err' ↔ IsPanic err) :
      Settles meter (.error (err, gas), st) ⟨.error err', ⟨st, meter⟩, gas⟩
  | failed {res : MsgEthereumTxResponse} {st : TokenState S} {err : Err} (hfailed : res.failed = true)
      (herr : ¬ IsPanic err) :
      Settles meter (.ok res, st) ⟨.error err, ⟨st, meter.exhaust⟩, res.gasUsed⟩
  | overdrawn {res : MsgEthereumTxResponse} {st : TokenState S} {err : Err} (hfailed : res.failed = false)
      (hrejects : meter.Rejects res.gasUsed) (herr : IsPanic err) :
      Settles meter (.ok res, st) ⟨.error err, ⟨st, meter⟩, res.gasUsed⟩
  | answered {res : MsgEthereumTxResponse} {st : TokenState S} (hfailed : res.failed = false)
      (haccepts : ¬ meter.Rejects res.gasUsed) :
      Settles meter (.ok res, st) ⟨.ok res, ⟨st, meter.charge res.gasUsed⟩, res.gasUsed⟩

variable {S Acc : Type} (k : ContractKeeper S Acc) (ctx : CallContext S)

theorem settles_callEVMWithData (sender contract : Address) (data : Calldata)
    (commit : Bool) (gasCap : Option ℤ) :
    Settles ctx.meter (k.execute ctx.st sender contract data commit)
      (k.callEVMWithData ctx sender contract data commit gasCap) := by
  unfold callEVMWithData
  rcases k.execute ctx.st sender contract data commit with ⟨⟨err, gas⟩ | res, st⟩
  · exact .refused Iff.rfl
  · cases hfailed : res.failed with
    | true => simpa only [hfailed] using .failed hfailed (not_isPanic_wrapped _ _)
    | false =>
      rcases consume_cases ctx.meter res.gasUsed with ⟨hrejects, text, hgas⟩ | ⟨haccepts, hgas⟩
      · simpa only [hgas, hfailed] using .overdrawn hfailed hrejects (isPanic_panicked text)
      · simpa only [hgas, hfailed] using .answered hfailed haccepts

theorem settles_callEVM (sender contract : Address) (data : Calldata)
    (commit : Bool) (gasCap : Option ℤ) :
    Settles ctx.meter (k.execute ctx.st sender contract data commit)
      (k.callEVM ctx sender contract data commit gasCap) := by
  have hsettles := k.settles_callEVMWithData ctx sender contract data commit gasCap
  unfold callEVM
  dsimp only
  generalize k.execute ctx.st sender contract data commit = executed at hsettles
  generalize k.callEVMWithData ctx sender contract data commit gasCap = called at hsettles
  cases hsettles with
  | refused hpanic => exact .refused ((isPanic_wrap _ _).trans hpanic)
  | failed hfailed herr => exact .failed hfailed (mt (isPanic_wrap _ _).mp herr)
  | overdrawn hfailed hrejects herr => exact .overdrawn hfailed hrejects ((isPanic_wrap _ _).mpr herr)
  | answered hfailed haccepts => exact .answered hfailed haccepts

def commitGasLimit (ctx : CallContext S) (packet : Packet) (version : String) (key : CallbackKey) : ℕ :=
  match k.readCallback ctx packet version key with
  | .ok (some (_, cbData)) => cbData.commitGasLimit.toNat
  | _ => 0

variable (packet : Packet)

/-- Whenever the packet has callback data for the sending side and the checks pass, the limit and the sender
are such. -/
def WhenCalled (name packetSenderAddress version : String)
    (sender : Option Address) (contractAddr : Address) (such : UInt64 → Address → Prop) : Prop :=
  match k.readCallback ctx packet version .source with
  | .ok (some (_, cbData)) =>
    match k.checkSource ctx.st cbData name packetSenderAddress sender contractAddr with
    | .ok sender => such cbData.commitGasLimit sender
    | .error _ => True
  | _ => True

theorem keepsLaw_sourceCallback_iff {ctx : CallContext S} {packet : Packet}
    {name packetSenderAddress version : String} {sender : Option Address} {contractAddr : Address}
    {call : CallContext S → Address → Trace S} {such : UInt64 → Address → Prop}
    (hcall : ∀ limit sender, KeepsLaw ctx limit.toNat (call ⟨ctx.st, .newInfiniteWithLimit limit⟩ sender) ↔
      such limit sender) :
    KeepsLaw ctx (k.commitGasLimit ctx packet version .source)
        (k.sourceCallback ctx packet name packetSenderAddress version sender contractAddr call) ↔
      k.WhenCalled ctx packet name packetSenderAddress version sender contractAddr such := by
  unfold commitGasLimit sourceCallback WhenCalled
  match k.readCallback ctx packet version .source with
  | .error err => simp [keepsLaw_start]
  | .ok none => simp [keepsLaw_start]
  | .ok (some (data, cbData)) =>
    dsimp only
    cases k.checkSource ctx.st cbData name packetSenderAddress sender contractAddr with
    | error err => simp [keepsLaw_start]
    | ok sender => exact hcall cbData.commitGasLimit sender

theorem keepsLaw_finishSource_iff {ctx : CallContext S} {limit : ℕ} {meter : GasMeter}
    {executed : Except (Err × ℕ) MsgEthereumTxResponse × TokenState S} {called : Called S}
    (hsettles : Settles meter executed called) :
    KeepsLaw ctx limit (finishSource ctx called called.ctx.st) ↔ executedGas executed.1 ≤ limit := by
  unfold finishSource
  cases hsettles with
  | refused _ => simp [keepsLaw_error_iff, sameStores_refl, executedGas]
  | failed _ _ => simp [keepsLaw_error_iff, sameStores_refl, executedGas]
  | overdrawn _ _ _ => simp [keepsLaw_error_iff, sameStores_refl, executedGas]
  | @answered res st hfailed haccepts =>
    rcases consume_cases ctx.meter res.gasUsed with ⟨_, text, hgas⟩ | ⟨_, hgas⟩
    · simp [hgas, keepsLaw_error_iff, executedGas]
    · simp only [hgas]
      split
      · simp [keepsLaw_error_iff, sameStores_refl, executedGas]
      · simp [keepsLaw_ok_iff, executedGas]

def AcknowledgementSpared (acknowledgement : Bytes)
    (contractAddress packetSenderAddress version : String) : Prop :=
  k.WhenCalled ctx packet "acknowledgement" packetSenderAddress version
    (k.hexAddressFromBech32String packetSenderAddress) (hexToAddress contractAddress) fun limit sender =>
      executedGas (k.execute ctx.st sender (hexToAddress contractAddress)
        (.onPacketAcknowledgement packet.sourceChannel packet.sourcePort packet.sequence packet.data
          acknowledgement) true).1 ≤ limit.toNat

theorem keepsLaw_acknowledgement_iff (acknowledgement : Bytes)
    (contractAddress packetSenderAddress version : String) :
    KeepsLaw ctx (k.commitGasLimit ctx packet version .source)
        (k.ibcOnAcknowledgementPacketCallback ctx packet acknowledgement contractAddress
          packetSenderAddress version) ↔
      k.AcknowledgementSpared ctx packet acknowledgement contractAddress packetSenderAddress version := by
  unfold ibcOnAcknowledgementPacketCallback AcknowledgementSpared
  apply k.keepsLaw_sourceCallback_iff
  intro limit sender
  exact keepsLaw_finishSource_iff
    (k.settles_callEVM ⟨ctx.st, .newInfiniteWithLimit limit⟩ sender _ _ true _)

/-- What a call on the context itself must have come to: an error has written nothing, and a success has
either used no gas, so that charging it twice is no different, or runs the context out of gas. -/
def HarmlessOn : Except (Err × ℕ) MsgEthereumTxResponse × TokenState S → Prop
  | (.error (err, _), st) => IsPanic err ∨ SameStores st ctx.st
  | (.ok res, st) =>
    if res.failed then SameStores st ctx.st
    else ctx.meter.Rejects (res.gasUsed + res.gasUsed) ∨
      (ctx.meter.Admits (res.gasUsed + res.gasUsed) ∧ res.gasUsed = 0) ∨
        (¬ ctx.meter.Admits (res.gasUsed + res.gasUsed) ∧ SameStores st ctx.st)

/-- The call is charged on the context itself, and once more at the end. -/
theorem keepsLaw_finishSource_self_iff {ctx : CallContext S} {limit : ℕ}
    {executed : Except (Err × ℕ) MsgEthereumTxResponse × TokenState S} {called : Called S}
    (hsettles : Settles ctx.meter executed called) :
    KeepsLaw ctx limit (finishSource called.ctx called called.ctx.st) ↔
      executedGas executed.1 ≤ limit ∧ HarmlessOn ctx executed := by
  unfold finishSource
  cases hsettles with
  | refused hpanic => simp [keepsLaw_error_iff, executedGas, HarmlessOn, hpanic, and_comm]
  | failed hfailed herr => simp [keepsLaw_error_iff, executedGas, HarmlessOn, hfailed, herr, and_comm]
  | @overdrawn res st err hfailed hrejects herr =>
    have htwice : ctx.meter.Rejects (res.gasUsed + res.gasUsed) := hrejects.mono (by omega)
    simp [keepsLaw_error_iff, executedGas, HarmlessOn, hfailed, herr, htwice]
  | @answered res st hfailed haccepts =>
    dsimp only
    rcases consume_cases (ctx.meter.charge res.gasUsed) res.gasUsed with
      ⟨hrejects, text, hgas⟩ | ⟨haccepts', hgas⟩
    · rw [GasMeter.charge_rejects] at hrejects
      simp [hgas, keepsLaw_error_iff, executedGas, HarmlessOn, hfailed, hrejects]
    · have hadmits := (ctx.meter.charge res.gasUsed).admits_iff res.gasUsed
      rw [GasMeter.charge_rejects] at haccepts'
      simp only [GasMeter.charge_admits, GasMeter.charge_rejects, haccepts', not_false_eq_true,
        true_and] at hadmits
      simp only [hgas]
      split
      · next hout =>
          simp [keepsLaw_error_iff, executedGas, HarmlessOn, hfailed, haccepts', hadmits, hout, and_comm]
      · next hout =>
          simp [keepsLaw_ok_iff, executedGas, HarmlessOn, hfailed, haccepts', hadmits, hout, and_comm]

/-- Where the contract is called, the EVM keeps to the limit and does no harm on the context. -/
def TimeoutSpared (contractAddress packetSenderAddress version : String) : Prop :=
  k.WhenCalled ctx packet "timeout" packetSenderAddress version
    ((k.codec.accAddressFromBech32 packetSenderAddress).map bytesToAddress) (hexToAddress contractAddress)
    fun limit sender =>
      let executed := k.execute ctx.st sender (hexToAddress contractAddress)
        (.onPacketTimeout packet.sourceChannel packet.sourcePort packet.sequence packet.data) true
      executedGas executed.1 ≤ limit.toNat ∧ HarmlessOn ctx executed

theorem keepsLaw_timeout_iff (contractAddress packetSenderAddress version : String) :
    KeepsLaw ctx (k.commitGasLimit ctx packet version .source)
        (k.ibcOnTimeoutPacketCallback ctx packet contractAddress packetSenderAddress version) ↔
      k.TimeoutSpared ctx packet contractAddress packetSenderAddress version := by
  unfold ibcOnTimeoutPacketCallback TimeoutSpared
  apply k.keepsLaw_sourceCallback_iff
  intro limit sender
  exact keepsLaw_finishSource_self_iff (k.settles_callEVM _ _ _ _ _ _)

/-- What the query of the receiver's tokens must come to once the branch is written: the EVM keeps to the
limit, and the query either ends in a panic or finds no tokens, or else nothing has changed since the
start. -/
def BalanceSpared (start : CallContext S) (limit used : ℕ) (written : TokenState S)
    (token receiverHex : Address) : Prop :=
  match (k.execute written k.erc20ModuleAddress token (.balanceOf receiverHex) false).1 with
  | .error (_, gas) => used + gas ≤ limit
  | .ok res => used + res.gasUsed ≤ limit ∧
      (res.failed = true ∨ start.meter.Rejects (used + res.gasUsed) ∨ firstWord res.ret = none ∨
        firstWord res.ret = some 0 ∨ SameStores written start.st)

/-- What the call of the contract must come to: no error, within the limit, with gas left over for the
query that follows, unless charging it panics. -/
def CallSpared (start : CallContext S) (limit used : ℕ) (approved : TokenState S) (calldata : Bytes)
    (token receiverHex contractAddr : Address) : Prop :=
  match k.execute approved receiverHex contractAddr (.raw calldata) true with
  | (.error (err, gas), _) => IsPanic err ∧ used + gas ≤ limit
  | (.ok res, written) => res.failed = false ∧ used + res.gasUsed ≤ limit ∧
      (start.meter.Rejects (used + res.gasUsed) ∨
        (start.meter.Admits (used + res.gasUsed) ∧
          k.BalanceSpared start limit (used + res.gasUsed) written token receiverHex))

/-- What setting the allowance must come to: likewise, and the token says that it is set. -/
def ApproveSpared (start : CallContext S) (st : TokenState S) (cbData : CallbackData)
    (token receiverHex contractAddr : Address) (amount : ℤ) : Prop :=
  let limit := cbData.commitGasLimit.toNat
  match k.execute st receiverHex token (.approve contractAddr amount) true with
  | (.error (err, gas), _) => IsPanic err ∧ gas ≤ limit
  | (.ok res, approved) => res.failed = false ∧ res.gasUsed ≤ limit ∧
      (start.meter.Rejects res.gasUsed ∨
        (start.meter.Admits res.gasUsed ∧ unpackBool res.ret = .ok true ∧
          k.CallSpared start limit res.gasUsed approved cbData.calldata token receiverHex contractAddr))

/-- The callback ends before the receiver's account is set, or passes every check after that. -/
def ReceiveSpared (contractAddress version : String) : Prop :=
  match k.readCallback ctx packet version .destination with
  | .ok (some (data, cbData)) =>
    match k.receiverOf data with
    | .error _ => True
    | .ok (receiver, receiverHex) =>
      let st := k.resetAccount ctx.st receiver
      match k.checkTarget st packet data receiverHex (hexToAddress contractAddress) with
      | .error _ => False
      | .ok (token, amount) =>
        k.ApproveSpared ctx st cbData token receiverHex (hexToAddress contractAddress) amount
  | _ => True

section

variable {start : CallContext S} {st written : TokenState S} {cbData : CallbackData} {spent : List ℕ}
  {token receiverHex contractAddr : Address}

theorem BalanceSpared.le {k : ContractKeeper S Acc} {limit used : ℕ}
    (hspared : k.BalanceSpared start limit used written token receiverHex) : used ≤ limit := by
  unfold BalanceSpared at hspared
  split at hspared
  · exact (Nat.le_add_right _ _).trans hspared
  · exact (Nat.le_add_right _ _).trans hspared.1

theorem keepsLaw_checkReceiver_iff (limit : ℕ) :
    KeepsLaw start limit
        (k.checkReceiver ⟨written, start.meter.charge spent.sum⟩ token receiverHex spent) ↔
      k.BalanceSpared start limit spent.sum written token receiverHex := by
  have hwritten : (k.execute written k.erc20ModuleAddress token (.balanceOf receiverHex) false).2 =
      written := by
    unfold execute
    split <;> rfl
  have hsettles := k.settles_callEVM ⟨written, start.meter.charge spent.sum⟩ k.erc20ModuleAddress token
    (.balanceOf receiverHex) false none
  unfold checkReceiver BalanceSpared
  dsimp only at hsettles ⊢
  generalize k.callEVM _ _ _ _ _ _ = called at hsettles ⊢
  generalize k.execute _ _ _ _ _ = executed at hwritten hsettles ⊢
  cases hsettles with
  | @refused err err' gas _ _ =>
    cases err' <;> simp [keepsLaw_error_iff]
  | @failed res _ err hfailed herr =>
    cases err <;> simp [keepsLaw_error_iff, hfailed]
  | @overdrawn res _ err hfailed hrejects herr =>
    rw [GasMeter.charge_rejects] at hrejects
    cases err <;> simp_all [keepsLaw_error_iff]
  | @answered res _ hfailed haccepts =>
    rw [GasMeter.charge_rejects] at haccepts
    dsimp only at hwritten ⊢
    match hword : firstWord res.ret with
    | none => simp [keepsLaw_error_iff]
    | some 0 => simp [keepsLaw_ok_iff, Nat.add_assoc]
    | some (balance + 1) =>
      simp [keepsLaw_error_iff, hfailed, haccepts, hwritten, and_comm]

/-- What the approval spent counts towards the limit as well. -/
theorem keepsLaw_callReceiver_iff (hchanged : ¬ SameStores st start.st) (remainingGas : ℤ)
    (spent : List ℕ) :
    KeepsLaw start cbData.commitGasLimit.toNat
        (k.callReceiver ⟨st, start.meter.charge spent.sum⟩
          ⟨written, (GasMeter.newInfiniteWithLimit cbData.commitGasLimit).charge spent.sum⟩ cbData token
          receiverHex contractAddr remainingGas spent) ↔
      k.CallSpared start cbData.commitGasLimit.toNat spent.sum written cbData.calldata token receiverHex
        contractAddr := by
  have hsettles := k.settles_callEVMWithData
    ⟨written, (GasMeter.newInfiniteWithLimit cbData.commitGasLimit).charge spent.sum⟩ receiverHex
    contractAddr (.raw cbData.calldata) true (some remainingGas)
  unfold callReceiver CallSpared
  dsimp only at hsettles ⊢
  generalize k.callEVMWithData _ _ _ _ _ _ = called at hsettles ⊢
  generalize k.execute _ _ _ _ _ = executed at hsettles ⊢
  cases hsettles with
  | refused hpanic => simp [keepsLaw_error_iff, hchanged, hpanic]
  | failed hfailed herr => simp [keepsLaw_error_iff, hchanged, hfailed, herr]
  | @overdrawn res _ err hfailed hrejects herr =>
    -- the branch's meter only overflows past every limit
    rw [GasMeter.charge_rejects] at hrejects
    have hpast : ¬ spent.sum + res.gasUsed ≤ cbData.commitGasLimit.toNat :=
      fun hle => GasMeter.not_rejects_newInfiniteWithLimit _ hle hrejects
    simp [keepsLaw_error_iff, hpast]
  | @answered res written hfailed haccepts =>
    dsimp only
    rcases consume_cases (start.meter.charge spent.sum) res.gasUsed with
      ⟨hrejects, text, hgas⟩ | ⟨haccepts', hgas⟩
    · rw [GasMeter.charge_rejects] at hrejects
      simp [hgas, keepsLaw_error_iff, hfailed, hrejects]
    · have hadmits := (start.meter.charge spent.sum).admits_iff res.gasUsed
      rw [GasMeter.charge_rejects] at haccepts'
      simp only [GasMeter.charge_admits, GasMeter.charge_rejects, haccepts', not_false_eq_true,
        true_and] at hadmits
      have hsum : (spent ++ [res.gasUsed]).sum = spent.sum + res.gasUsed := by simp
      simp only [hgas, hfailed, haccepts', hadmits, true_and, false_or]
      split
      · next hout => simp [keepsLaw_error_iff, hchanged, hout]
      · next hout =>
          rw [GasMeter.charge_charge, ← hsum, k.keepsLaw_checkReceiver_iff]
          rw [GasMeter.charge_charge, ← hsum] at hout
          have hout := eq_false_of_ne_true hout
          constructor
          · exact fun hspared => ⟨hspared.le, hout, hspared⟩
          · rintro ⟨-, -, hspared⟩
            exact hspared

/-- The receiver's account has been set, so that no error but a panic keeps the law. -/
theorem keepsLaw_approveReceiver_iff (hchanged : ¬ SameStores st start.st) (amount : ℤ) :
    KeepsLaw start cbData.commitGasLimit.toNat
        (k.approveReceiver ⟨st, start.meter⟩ cbData token receiverHex contractAddr amount) ↔
      k.ApproveSpared start st cbData token receiverHex contractAddr amount := by
  have hsettles := k.settles_callEVM ⟨st, .newInfiniteWithLimit cbData.commitGasLimit⟩ receiverHex token
    (.approve contractAddr amount) true
    (some ((GasMeter.newInfiniteWithLimit cbData.commitGasLimit).gasRemaining : ℤ))
  unfold approveReceiver ApproveSpared
  dsimp only at hsettles ⊢
  generalize k.callEVM _ _ _ _ _ _ = called at hsettles ⊢
  generalize k.execute _ _ _ _ _ = executed at hsettles ⊢
  cases hsettles with
  | refused hpanic => simp [keepsLaw_error_iff, hchanged, hpanic]
  | failed hfailed herr => simp [keepsLaw_error_iff, hchanged, hfailed, herr]
  | @overdrawn res _ err hfailed hrejects herr =>
    have hpast : ¬ res.gasUsed ≤ cbData.commitGasLimit.toNat :=
      fun hle => GasMeter.not_rejects_newInfiniteWithLimit _ hle hrejects
    simp [keepsLaw_error_iff, hpast]
  | @answered res approved hfailed haccepts =>
    dsimp only
    have hremaining : (GasMeter.newInfiniteWithLimit cbData.commitGasLimit).gasRemaining =
      cbData.commitGasLimit.toNat := rfl
    rcases consume_cases start.meter res.gasUsed with ⟨hrejects, text, hgas⟩ | ⟨haccepts', hgas⟩
    · simp [hgas, keepsLaw_error_iff, hfailed, hrejects]
    · have hadmits := start.meter.admits_iff res.gasUsed
      simp only [haccepts', not_false_eq_true, true_and] at hadmits
      simp only [hgas, hremaining, hfailed, haccepts', hadmits, true_and, false_or]
      split
      · next hout =>
          simp only [keepsLaw_error_iff, not_isPanic_wrapped, hchanged, or_self, false_and, false_iff,
            not_and]
          intro hle hadmitted
          rcases hout with hout | hpast
          · exact absurd hout (by simp [hadmitted])
          · omega
      · next hout =>
          obtain ⟨hadmitted, hle⟩ := not_or.mp hout
          have hle : res.gasUsed ≤ cbData.commitGasLimit.toNat := by omega
          simp only [hle, eq_false_of_ne_true hadmitted, true_and]
          match hunpack : unpackBool res.ret with
          | .error err => simp [keepsLaw_error_iff, hchanged, not_isPanic_of_unpackBool hunpack]
          | .ok false => simp [keepsLaw_error_iff, hchanged]
          | .ok true =>
            simp only [true_and]
            exact k.keepsLaw_callReceiver_iff hchanged _ [res.gasUsed]

end

theorem not_receiveSpared_of_ne {ctx : CallContext S} {packet : Packet}
    {contractAddress version : String} {data : PacketData} {cbData : CallbackData}
    {receiver : AccAddress} {receiverHex : Address}
    (hread : k.readCallback ctx packet version .destination = .ok (some (data, cbData)))
    (hreceiver : k.receiverOf data = .ok (receiver, receiverHex))
    (hne : receiverHex ≠ bytesToAddress (k.generateIsolatedAddress packet.destinationChannel data.sender)) :
    ¬ k.ReceiveSpared ctx packet contractAddress version := by
  unfold ReceiveSpared checkTarget
  simp [hread, hreceiver, hne]

theorem not_isPanic_of_checkTarget {st : TokenState S} {packet : Packet} {data : PacketData}
    {receiverHex contractAddr : Address} {err : Err}
    (hcheck : k.checkTarget st packet data receiverHex contractAddr = .error err) : ¬ IsPanic err := by
  unfold checkTarget at hcheck
  dsimp only at hcheck
  split_ifs at hcheck
  · cases hcheck
    exact not_isPanic_wrapped _ _
  · cases hcheck
    exact not_isPanic_wrapped _ _
  · split at hcheck
    · cases hcheck
      exact not_isPanic_wrapped _ _
    · split at hcheck
      · cases hcheck
        exact not_isPanic_wrapped _ _
      · cases hcheck

theorem keepsLaw_receive_iff (hreset : ∀ st receiver, ¬ SameStores (k.resetAccount st receiver) st)
    (ctx : CallContext S) (packet : Packet) (contractAddress version : String) :
    KeepsLaw ctx (k.commitGasLimit ctx packet version .destination)
        (k.ibcReceivePacketCallback ctx packet contractAddress version) ↔
      k.ReceiveSpared ctx packet contractAddress version := by
  unfold commitGasLimit ibcReceivePacketCallback ReceiveSpared
  match k.readCallback ctx packet version .destination with
  | .error err => simp [keepsLaw_start]
  | .ok none => simp [keepsLaw_start]
  | .ok (some (data, cbData)) =>
    dsimp only
    match k.receiverOf data with
    | .error err => simp [keepsLaw_start]
    | .ok (receiver, receiverHex) =>
      dsimp only
      have hchanged := hreset ctx.st receiver
      cases hcheck : k.checkTarget (k.resetAccount ctx.st receiver) packet data receiverHex
          (hexToAddress contractAddress) with
      | error err =>
        simp [keepsLaw_error_iff, hchanged, k.not_isPanic_of_checkTarget hcheck]
      | ok target => exact k.keepsLaw_approveReceiver_iff hchanged target.2

/-- A new account takes the next account number, so that setting it changes the state. -/
def NumbersAccounts : Prop :=
  ∀ s a, k.vm.ak.setAccount (k.vm.ak.newAccountWithAddress s a).2 (k.vm.ak.newAccountWithAddress s a).1 ≠ s

theorem NumbersAccounts.resetAccount {k : ContractKeeper S Acc} (hnumbers : k.NumbersAccounts)
    (st : TokenState S) (receiver : AccAddress) : ¬ SameStores (k.resetAccount st receiver) st := by
  rintro ⟨hstore, -⟩
  exact hnumbers st.ctx.store.sdk receiver (congrArg MultiStore.sdk hstore)

end ContractKeeper

def callbackContract : Address := bytesToAddress [0xc1]

def ownerText : String := textCodec.accAddressString tokenOwner.bytes

variable (gasUsed : ℕ)

/-- The data of a packet is its sender followed by its receiver, and its callback has a limit of 50000. Every
message takes the given gas. -/
def callbackKeeper : ContractKeeper (AuthLedger Evmd.moduleAccounts) AuthAccount where
  vm := Evmd.vmKeeper Evmd.sixDecimalsCoin
  codec := textCodec
  lib := plainLibraries
  erc20ModuleAddress := Evmd.moduleAddress "erc20"
  pack call := match call with
    | .approve spender _ => spender.bytes
    | .balanceOf account => account.bytes
    | .raw data => data
    | .onPacketAcknowledgement _ _ _ data acknowledgement => data ++ acknowledgement
    | .onPacketTimeout _ _ _ data => data
  applyMessage st _ := (.ok ⟨gasUsed, gasUsed, none, [], []⟩, st)
  unmarshalPacketData data _ :=
    if data.length = 40 then
      .ok ⟨⟨"utest", []⟩, "1", textCodec.accAddressString (data.take 20),
        textCodec.accAddressString (data.drop 20)⟩
    else .error (.wrapped .other "cannot unmarshal ICS20-V1 transfer packet data")
  getCallbackData _ _ _ _ maxGas _ := .ok (some ⟨[], .ofNat (min 50000 maxGas)⟩)
  valAddressFromBech32 _ := none
  consAddressFromBech32 _ := none
  generateIsolatedAddress channel sender :=
    (bytesToAddress ((channel ++ sender).toList.map fun c => lowByte c.toNat)).bytes
  newIntFromString := decimal
  denomHash denom := "ibc/" ++ denom.base

def callbackCtx : CallContext (AuthLedger Evmd.moduleAccounts) where
  st :=
    { ctx := ⟨⟨Evmd.genesisAuth [(tokenOwner.bytes, []), (callbackContract.bytes, [])], ∅, none,
        ⟨∅, Finmap.singleton callbackContract (bytesToHash [1]), ∅⟩⟩, []⟩
      store := Store.empty }
  meter := ⟨100000, 0, false⟩

def callbackPacket : Packet :=
  ⟨1, "transfer", "channel-0", "transfer", "channel-1", tokenOwner.bytes ++ tokenSpender.bytes⟩

def callbackPacketData : PacketData :=
  ⟨⟨"utest", []⟩, "1", ownerText, textCodec.accAddressString tokenSpender.bytes⟩

theorem callbackKeeper_numbersAccounts : (callbackKeeper gasUsed).NumbersAccounts := by
  intro s a heq
  have hnumber : s.globalAccountNumber + 1 = s.globalAccountNumber :=
    congrArg AuthLedger.globalAccountNumber heq
  omega

theorem readCallback_callbackKeeper (key : CallbackKey) :
    (callbackKeeper gasUsed).readCallback callbackCtx callbackPacket "ics20-1" key =
      .ok (some (callbackPacketData, ⟨[], 50000⟩)) := rfl

theorem isContract_callbackContract :
    (callbackKeeper gasUsed).isContract callbackCtx.st callbackContract = true := by
  have hcontract : (callbackKeeper 0).isContract callbackCtx.st callbackContract = true := by
    decide +kernel
  exact hcontract

theorem hasAccount_tokenOwner :
    (callbackCtx.st.ctx.store.sdk.accounts.lookup tokenOwner.bytes).isSome = true := by
  decide +kernel

theorem execute_callbackKeeper (contract : Address) (data : Calldata) :
    (callbackKeeper gasUsed).execute callbackCtx.st tokenOwner contract data true =
      (.ok ⟨gasUsed, gasUsed, none, [], []⟩, callbackCtx.st) := by
  obtain ⟨acc, hacc⟩ := Option.isSome_iff_exists.mp hasAccount_tokenOwner
  have hlookup : (callbackKeeper gasUsed).vm.ak.getAccount callbackCtx.st.ctx.store.sdk
      tokenOwner.bytes = some acc := hacc
  unfold ContractKeeper.execute
  rw [hlookup]
  rfl

theorem accAddressFromBech32_ownerText : textCodec.accAddressFromBech32 ownerText = some tokenOwner.bytes :=
  TextCodec.accAddressFromText_accAddressString tokenOwner.bytes

theorem hexAddressFromBech32String_ownerText :
    (callbackKeeper gasUsed).hexAddressFromBech32String ownerText = some tokenOwner := by
  have hdecoded : (callbackKeeper gasUsed).codec.accAddressFromBech32 ownerText = some tokenOwner.bytes :=
    accAddressFromBech32_ownerText
  unfold ContractKeeper.hexAddressFromBech32String
  rw [hdecoded]
  exact congrArg some (by decide)

theorem whenCalled_callbackKeeper_iff (name : String) (such : UInt64 → Address → Prop) :
    (callbackKeeper gasUsed).WhenCalled callbackCtx callbackPacket name ownerText "ics20-1"
      (some tokenOwner) (hexToAddress (lowerHex callbackContract)) such ↔ such 50000 tokenOwner := by
  have hcheck : (callbackKeeper gasUsed).checkSource callbackCtx.st ⟨[], 50000⟩ name ownerText
      (some tokenOwner) callbackContract = .ok tokenOwner := by
    unfold ContractKeeper.checkSource
    simp [isContract_callbackContract]
  unfold ContractKeeper.WhenCalled
  rw [readCallback_callbackKeeper, hexToAddress_lowerHex]
  simp only [hcheck]

namespace ContractKeeper

variable {S Acc : Type} (k : ContractKeeper S Acc)

/-- Each callback is atomic, charges what it used and keeps to its limit exactly under its condition. -/
theorem callbacks_keep_law_iff (hnumbers : k.NumbersAccounts) (ctx : CallContext S) (packet : Packet)
    (acknowledgement : Bytes) (contractAddress packetSenderAddress version : String) :
    (KeepsLaw ctx (k.commitGasLimit ctx packet version .destination)
        (k.ibcReceivePacketCallback ctx packet contractAddress version) ↔
      k.ReceiveSpared ctx packet contractAddress version) ∧
    (KeepsLaw ctx (k.commitGasLimit ctx packet version .source)
        (k.ibcOnAcknowledgementPacketCallback ctx packet acknowledgement contractAddress
          packetSenderAddress version) ↔
      k.AcknowledgementSpared ctx packet acknowledgement contractAddress packetSenderAddress version) ∧
    (KeepsLaw ctx (k.commitGasLimit ctx packet version .source)
        (k.ibcOnTimeoutPacketCallback ctx packet contractAddress packetSenderAddress version) ↔
      k.TimeoutSpared ctx packet contractAddress packetSenderAddress version) :=
  ⟨k.keepsLaw_receive_iff hnumbers.resetAccount ctx packet contractAddress version,
    k.keepsLaw_acknowledgement_iff ctx packet acknowledgement contractAddress packetSenderAddress version,
    k.keepsLaw_timeout_iff ctx packet contractAddress packetSenderAddress version⟩

theorem acknowledgement_keeps_law :
    KeepsLaw callbackCtx
      ((callbackKeeper 26852).commitGasLimit callbackCtx callbackPacket "ics20-1" .source)
      ((callbackKeeper 26852).ibcOnAcknowledgementPacketCallback callbackCtx callbackPacket [1]
        (lowerHex callbackContract) ownerText "ics20-1") := by
  refine ((callbackKeeper 26852).callbacks_keep_law_iff (callbackKeeper_numbersAccounts 26852)
    callbackCtx callbackPacket [1] (lowerHex callbackContract) ownerText "ics20-1").2.1.mpr ?_
  unfold AcknowledgementSpared
  rw [hexAddressFromBech32String_ownerText, whenCalled_callbackKeeper_iff, execute_callbackKeeper]
  decide

/-- A packet for someone else leaves the receiver's account reset, an acknowledgement executes more than the
limit, and a timeout within the limit is charged twice. -/
theorem callbacks_break_law :
    ¬ KeepsLaw callbackCtx
        ((callbackKeeper 26852).commitGasLimit callbackCtx callbackPacket "ics20-1" .destination)
        ((callbackKeeper 26852).ibcReceivePacketCallback callbackCtx callbackPacket
          (lowerHex callbackContract) "ics20-1") ∧
      ¬ KeepsLaw callbackCtx
        ((callbackKeeper 60000).commitGasLimit callbackCtx callbackPacket "ics20-1" .source)
        ((callbackKeeper 60000).ibcOnAcknowledgementPacketCallback callbackCtx callbackPacket [1]
          (lowerHex callbackContract) ownerText "ics20-1") ∧
      ¬ KeepsLaw callbackCtx
        ((callbackKeeper 26852).commitGasLimit callbackCtx callbackPacket "ics20-1" .source)
        ((callbackKeeper 26852).ibcOnTimeoutPacketCallback callbackCtx callbackPacket
          (lowerHex callbackContract) ownerText "ics20-1") := by
  refine ⟨?_, ?_, ?_⟩
  · rw [keepsLaw_receive_iff _ (callbackKeeper_numbersAccounts 26852).resetAccount]
    have hreceiver : (callbackKeeper 26852).receiverOf callbackPacketData =
        .ok (tokenSpender.bytes, tokenSpender) := by
      decide +kernel
    have hother : tokenSpender ≠ bytesToAddress ((callbackKeeper 26852).generateIsolatedAddress
        callbackPacket.destinationChannel callbackPacketData.sender) := by
      decide +kernel
    exact (callbackKeeper 26852).not_receiveSpared_of_ne (readCallback_callbackKeeper 26852 .destination)
      hreceiver hother
  · rw [keepsLaw_acknowledgement_iff]
    unfold AcknowledgementSpared
    rw [hexAddressFromBech32String_ownerText, whenCalled_callbackKeeper_iff, execute_callbackKeeper]
    decide
  · rw [keepsLaw_timeout_iff]
    have hsender : ((callbackKeeper 26852).codec.accAddressFromBech32 ownerText).map bytesToAddress =
        some tokenOwner := by
      have hdecoded : (callbackKeeper 26852).codec.accAddressFromBech32 ownerText = some tokenOwner.bytes :=
        accAddressFromBech32_ownerText
      rw [hdecoded]
      exact congrArg some (by decide)
    unfold TimeoutSpared
    rw [hsender, whenCalled_callbackKeeper_iff, execute_callbackKeeper]
    simp [HarmlessOn, MsgEthereumTxResponse.failed, GasMeter.Rejects, GasMeter.Admits, callbackCtx]

end ContractKeeper

end CosmosEvm.Ibc
