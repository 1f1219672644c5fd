import CosmosEvm.Vm.Message

/-!
# The balance handler of precompiles

A precompile moves coins through keepers, behind the back of the StateDB. Its balance handler counts the
events of the context before the method runs.
-/

namespace CosmosEvm.Precompiles

open Statedb Vm

structure EventReader where
  codec : Codec
  newIntFromString : String → Option ℤ
  blockedAddr : AccAddress → Bool
  coinInfo : EvmCoinInfo

inductive BalanceChange where
  | addBalance (addr : Address) (amount : BitVec 256)
  | subBalance (addr : Address) (amount : BitVec 256)

def BalanceChange.applyTo {σ : Type} (env : Env σ) (s : StateDB σ) : Option BalanceChange → StateDB σ
  | none => s
  | some (.addBalance addr amount) => (s.addBalance env addr amount).2
  | some (.subBalance addr amount) => (s.subBalance env addr amount).2

namespace EventReader

variable (reader : EventReader) (event : Event)

def parseAddress (key : String) : Except Err AccAddress :=
  let type := event.type
  match event.getAttribute key with
  | none => .error (.wrapped .other s!"event \"{type}\" missing attribute \"{key}\"")
  | some value =>
    match reader.codec.accAddressFromBech32 value with
    | none => .error (.wrapped .other s!"invalid address \"{value}\"")
    | some addr => .ok addr

def parseAmount : Except Err (BitVec 256) :=
  match event.getAttribute "amount" with
  | none => .error (.wrapped .other "event \"coin_spent\" missing attribute \"amount\"")
  | some value =>
    match reader.codec.parseCoinsNormalized value with
    | none => .error (.wrapped .other s!"failed to parse coins from \"{value}\"")
    | some coins =>
      (uint256FromBigInt
        (coins.amountOf reader.coinInfo.denom * reader.coinInfo.decimals.conversionFactor)).mapError
        (Err.wrap "failed to convert coin amount to Uint256")

def parseFractionalAmount : Except Err ℤ :=
  match event.getAttribute "delta" with
  | none => .error (.wrapped .other "event \"fractional_balance_change\" missing attribute \"amount\"")
  | some value =>
    match reader.newIntFromString value with
    | none => .error (.wrapped .other s!"failed to parse coins from \"{value}\"")
    | some delta => .ok delta

/-- A bank event, whose coins count unless the account it names is blocked. -/
def readCoins (key : String) (change : Address → BitVec 256 → BalanceChange) :
    Except Err (Option BalanceChange) :=
  let type := event.type
  match (reader.parseAddress event key).mapError
      (Err.wrap s!"failed to parse {key} address from event \"{type}\"") with
  | .error err => .error err
  | .ok addr =>
    if reader.blockedAddr addr then .ok none
    else
      ((reader.parseAmount event).mapError (Err.wrap s!"failed to parse amount from event \"{type}\"")).map
        fun amount => some (change (bytesToAddress addr) amount)

def readFractional : Except Err (Option BalanceChange) :=
  let type := event.type
  match (reader.parseAddress event "address").mapError
      (Err.wrap s!"failed to parse address from event \"{type}\"") with
  | .error err => .error err
  | .ok addr =>
    if reader.blockedAddr addr then .ok none
    else do
      let delta ← (reader.parseFractionalAmount event).mapError
        (Err.wrap s!"failed to parse amount from event \"{type}\"")
      let deltaAbs ← (uint256FromBigInt |delta|).mapError (Err.wrap "failed to convert delta to Uint256")
      return if 0 < delta then some (.addBalance (bytesToAddress addr) deltaAbs)
        else if delta < 0 then some (.subBalance (bytesToAddress addr) deltaAbs)
        else none

/-- The `switch` of `AfterBalanceChange`: what an event changes at the StateDB. -/
def readEvent : Except Err (Option BalanceChange) :=
  if event.type = "coin_spent" then reader.readCoins event "spender" .subBalance
  else if event.type = "coin_received" then reader.readCoins event "receiver" .addBalance
  else if event.type = "fractional_balance_change" then reader.readFractional event
  else .ok none

end EventReader

structure BalanceHandler where
  prevEventsLen : ℕ

namespace BalanceHandler

variable {σ : Type}

def beforeBalanceChange (ctx : Context σ) : BalanceHandler := ⟨ctx.events.length⟩

def afterBalanceChange (handler : BalanceHandler) (reader : EventReader) (env : Env σ) (ctx : Context σ)
    (s : StateDB σ) : Except Err (StateDB σ) :=
  if ctx.events.length < handler.prevEventsLen then .error (.panicked "slice bounds out of range")
  else
    Result.run (fun s event => (reader.readEvent event).map fun change => BalanceChange.applyTo env s change)
      s (ctx.events.drop handler.prevEventsLen)

end BalanceHandler

end CosmosEvm.Precompiles
