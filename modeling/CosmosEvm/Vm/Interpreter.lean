import CosmosEvm.Statedb.Profile
import CosmosEvm.Vm.Message

/-!
# Executions of the interpreter

What an execution does to the StateDB, as a tree of frames: which calls, creations and operations are made
is the choice of code and gas, and free here, so that every execution of go-ethereum is a tree.
-/

namespace CosmosEvm

namespace Vm

open Statedb

/-- What a frame does. A creation has the address of `CREATE2` or takes that of `CREATE`, and the code it
deploys unless its init code fails. `SELFDESTRUCT` ends a frame, after its balance has moved. The frame of a
precompile starts with it, and may go on with the balances that its `BalanceHandler` changes. -/
inductive Frame (σ : Type) where
  | stop
  | selfDestruct
  | op (op : Op σ) (plain : op.Plain) (next : Frame σ)
  | create (salted : Option Address) (init : Frame σ) (deployed : Option Bytes) (next : Frame σ)
  | call (target : Address) (body : Frame σ) (failed : Bool) (next : Frame σ)
  | precompile (body : Context σ → Except Err (Context σ)) (next : Frame σ)

abbrev Creation := Address × UInt64

/-- What the interpreter reads besides the StateDB: the addresses of precompiles, `crypto.CreateAddress`, and
whether there is storage under an address, of which `GetStorageRoot` is the root. -/
structure Interpreter (σ : Type) where
  env : Env σ
  activePrecompiles : List Address
  createAddress : Address → UInt64 → Address
  hasStorage : σ → Address → Bool

namespace Interpreter

variable {σ : Type} (interp : Interpreter σ) (s : StateDB σ)

def collides (address : Address) : Bool × StateDB σ :=
  let codeHash := (s.getCodeHash interp.env address).1
  let s := (s.getCodeHash interp.env address).2
  let nonce := (s.getNonce interp.env address).1
  let s := (s.getNonce interp.env address).2
  (nonce ≠ 0 ∨ (codeHash ≠ zeroHash ∧ codeHash ≠ interp.env.emptyCodeHash) ∨
    interp.hasStorage s.ctx.store address = true, s)

def createMissing (address : Address) : StateDB σ :=
  let found := (s.exist interp.env address).1
  let s := (s.exist interp.env address).2
  if found then s else s.createAccount interp.env address

def newContract (address : Address) : Option (StateDB σ) :=
  ((interp.createMissing s address).createContract interp.env address).map fun s =>
    s.setNonce interp.env address 1

def deploy (runInit : Address → StateDB σ → Option (StateDB σ × List Creation)) (creation : Creation)
    (address : Address) (deployed : Option Bytes) (s : StateDB σ) :
    Option (Bool × StateDB σ × List Creation) :=
  (interp.newContract s.snapshot.1 address).bind fun created =>
    (runInit address created).bind fun (ran, made) =>
      match deployed with
      | none => (ran.revertToSnapshot interp.env s.snapshot.2).map fun s => (false, s, [])
      | some code => some (true, (ran.setCode interp.env address (some code)).2, creation :: made)

/-- `evm.create`, with whether it succeeds and the creations that are kept. -/
def create (runInit : Address → StateDB σ → Option (StateDB σ × List Creation)) (creator : Address)
    (salted : Option Address) (deployed : Option Bytes) (s : StateDB σ) :
    Option (Bool × StateDB σ × List Creation) :=
  let nonce := (s.getNonce interp.env creator).1
  let s := (s.getNonce interp.env creator).2
  if nonce + 1 < nonce then some (false, s, [])
  else
    let address := salted.getD (interp.createAddress creator nonce)
    let s := (s.setNonce interp.env creator (nonce + 1)).addAddressToAccessList address
    let taken := (interp.collides s address).1
    let s := (interp.collides s address).2
    if taken then some (false, s, [])
    else interp.deploy runInit (creator, nonce) address deployed s

def call (runBody : Address → StateDB σ → Option (StateDB σ × List Creation)) (target : Address)
    (failed : Bool) (s : StateDB σ) : Option (StateDB σ × List Creation) :=
  (runBody target (interp.createMissing s.snapshot.1 target)).bind fun (ran, made) =>
    if failed then (ran.revertToSnapshot interp.env s.snapshot.2).map fun s => (s, [])
    else some (ran, made)

def run : Frame σ → Address → StateDB σ → Option (StateDB σ × List Creation)
  | .stop, _, s => some (s, [])
  | .selfDestruct, self, s => some ((s.selfDestruct6780 interp.env self).2.2, [])
  | .op op _ next, self, s => (s.exec interp.env op).bind (run next self)
  | .create salted init deployed next, self, s =>
    (interp.create (fun address s => run init address s) self salted deployed s).bind
      fun (_, s, made) => (run next self s).map fun (s, later) => (s, made ++ later)
  | .call target body failed next, self, s =>
    (interp.call (fun target s => run body target s) target failed s).bind
      fun (s, made) => (run next self s).map fun (s, later) => (s, made ++ later)
  | .precompile body next, self, s => run next self (s.runPrecompile interp.env body).2

end Interpreter

structure Program (σ : Type) where
  frame : Frame σ
  deployed : Option Bytes
  leftoverGas : UInt64

namespace Program

variable {σ : Type} (interp : Interpreter σ) (program : Program σ) (s : StateDB σ)

def runCreate (sender : Address) : Option (Bool × StateDB σ × List Creation) :=
  interp.create (fun address s => interp.run program.frame address s) sender none program.deployed s

def runCall (recipient : Address) : Option (Bool × StateDB σ × List Creation) :=
  (interp.call (fun target s => interp.run program.frame target s) recipient program.deployed.isNone s).map
    fun (s, made) => (program.deployed.isSome, s, made)

def run (msg : Message) : Option (Bool × StateDB σ × List Creation) :=
  match msg.recipient with
  | none => program.runCreate interp s msg.sender
  | some recipient => program.runCall interp s recipient

def creations (msg : Message) : List Creation :=
  ((program.run interp s msg).map fun ran => ran.2.2).getD []

def result (ran : Option (Bool × StateDB σ × List Creation)) : Except Err (ExecutionResult σ) :=
  match ran with
  | none => .error (.panicked "the StateDB panics")
  | some (succeeded, s, _) =>
    .ok ⟨[], program.leftoverGas, if succeeded then none else some "execution reverted", s⟩

def evm : Evm σ where
  create s sender _ _ _ := program.result (program.runCreate interp s sender)
  call s _ recipient _ _ _ := program.result (program.runCall interp s recipient)
  activePrecompiles := interp.activePrecompiles

end Program

end Vm

end CosmosEvm
