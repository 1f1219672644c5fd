import CosmosEvm.Lib.Result
import CosmosEvm.Sdk.Dec
import CosmosEvm.Store.Context

/-!
# The fee market

`x/feemarket` moves the base fee at the beginning of a block, by the gas that the transactions of the parent
block wanted.
-/

namespace CosmosEvm.FeeMarket

def decText (d : Dec) : String :=
  let digits := toString (d.raw.natAbs % 10 ^ 18)
  (if d.raw < 0 then "-" else "") ++ toString (d.raw.natAbs / 10 ^ 18) ++ "." ++
    String.ofList (List.replicate (18 - digits.length) '0') ++ digits

/-- `types.Params`, with `none` for a nil base fee. The other decimals are never nil in the store. -/
structure Params where
  noBaseFee : Bool
  baseFeeChangeDenominator : UInt32
  elasticityMultiplier : UInt32
  baseFee : Option Dec
  enableHeight : ℤ
  minGasPrice : Dec
  minGasMultiplier : Dec
deriving DecidableEq

def oneDec : Dec := Dec.ofInt 1

def validateMinGasPrice (gasPrice : Dec) : Except Err Unit :=
  if gasPrice.raw < 0 then .error (.wrapped .other ("value cannot be negative: " ++ decText gasPrice))
  else .ok ()

def validateMinGasMultiplier (multiplier : Dec) : Except Err Unit :=
  if multiplier.raw < 0 then .error (.wrapped .other ("value cannot be negative: " ++ decText multiplier))
  else if oneDec.raw < multiplier.raw then
    .error (.wrapped .other ("value cannot be greater than 1: " ++ decText multiplier))
  else .ok ()

def Params.validate (p : Params) : Except Err Unit :=
  if p.baseFeeChangeDenominator = 0 then
    .error (.wrapped .other "base fee change denominator cannot be 0")
  else
    match p.baseFee with
    | none => .error (.panicked "invalid memory address or nil pointer dereference")
    | some baseFee =>
      if baseFee.raw < 0 then
        .error (.wrapped .other ("initial base fee cannot be negative: " ++ decText baseFee))
      else if p.enableHeight < 0 then
        .error (.wrapped .other ("enable height cannot be negative: " ++ toString p.enableHeight))
      else if p.elasticityMultiplier = 0 then
        .error (.wrapped .other
          ("elasticity multiplier cannot be zero: " ++ toString p.elasticityMultiplier))
      else do
        validateMinGasMultiplier p.minGasMultiplier
        validateMinGasPrice p.minGasPrice

def Params.isBaseFeeEnabled (p : Params) (height : ℤ) : Bool := !p.noBaseFee && p.enableHeight ≤ height

structure State where
  params : Params
  blockGasWanted : UInt64
  transientGasWanted : UInt64
deriving DecidableEq

structure BlockGasMeter where
  limit : UInt64
  consumedToLimit : UInt64

/-- What the context of a block tells: `maxGas` are the consensus parameters for blocks, where there are any. -/
structure BlockContext where
  height : ℤ
  maxGas : Option ℤ
  isLondon : Bool
  blockGasMeter : Option BlockGasMeter

variable (ctx : BlockContext)

def blockGasLimit : ℕ :=
  match ctx.blockGasMeter with
  | some meter => if meter.limit ≠ 0 then meter.limit.toNat else consensusLimit
  | none => consensusLimit
where
  consensusLimit : ℕ :=
    match ctx.maxGas with
    | none => 0
    | some maxGas => if maxGas = -1 then 2 ^ 64 - 1 else maxGas.toNat

def calcGasBaseFee (gasUsed gasTarget baseFeeChangeDenom : ℕ) (baseFee minUnitGas minGasPrice : Dec) :
    Except Err Dec :=
  if gasUsed = gasTarget then .ok baseFee
  else if gasTarget = 0 then .ok ⟨0⟩
  else do
    let num ← ((Dec.ofInt |(gasUsed : ℤ) - gasTarget|).mul baseFee).checked
    let num := (num.quoInt gasTarget).quoInt baseFeeChangeDenom
    if gasTarget < gasUsed then (baseFee.add (num.max minUnitGas)).checked
    else do
      let lowered ← (baseFee.sub num).checked
      .ok (lowered.max minGasPrice)

def gasLimit : ℤ :=
  match ctx.maxGas with
  | none => 2 ^ 64 - 1
  | some maxGas => if -1 < maxGas then maxGas else 2 ^ 64 - 1

def minUnitGas (decimals : Decimals) : Dec := oneDec.quoInt decimals.conversionFactor

def gasTarget (p : Params) : ℤ := (gasLimit ctx).tdiv p.elasticityMultiplier.toNat

def calculateBaseFee (decimals : Decimals) (ctx : BlockContext) (st : State) : Except Err (Option Dec) :=
  if !st.params.isBaseFeeEnabled ctx.height then .ok none
  else if ctx.height = st.params.enableHeight then .ok st.params.baseFee
  else
    match st.params.baseFee with
    | none => .ok none
    | some parentBaseFee =>
      let target := gasTarget ctx st.params
      if target < 0 ∨ 2 ^ 64 ≤ target then .ok none
      else do
        let baseFee ← calcGasBaseFee st.blockGasWanted.toNat target.toNat
          st.params.baseFeeChangeDenominator.toNat parentBaseFee (minUnitGas decimals) st.params.minGasPrice
        .ok (some baseFee)

def beginBlock (decimals : Decimals) (ctx : BlockContext) (st : State) : Except Err State := do
  match ← calculateBaseFee decimals ctx st with
  | none => .ok st
  | some baseFee => .ok { st with params := { st.params with baseFee := some baseFee } }

/-- The gas limit of a transaction, `none` where it is not a `sdk.FeeTx`. -/
abbrev Tx := Option UInt64

def State.addTransientGasWanted (st : State) (gasWanted : UInt64) : State :=
  { st with transientGasWanted := st.transientGasWanted + gasWanted }

def checkGasWanted (st : State) (tx : Tx) : Except Err State :=
  if !ctx.isLondon then .ok st
  else
    match tx with
    | none => .ok st
    | some gasWanted =>
      let limit := blockGasLimit ctx
      if limit < gasWanted.toNat then
        .error (.wrapped .other s!"tx gas ({gasWanted}) exceeds block gas limit ({limit}): out of gas")
      else if !st.params.isBaseFeeEnabled ctx.height then .ok st
      else .ok (st.addTransientGasWanted gasWanted)

def endBlock (st : State) : Except Err State :=
  match ctx.blockGasMeter with
  | none => .error (.wrapped .other "block gas meter is nil when setting block gas wanted")
  | some meter =>
    let gasWanted := st.transientGasWanted
    let gasUsed := meter.consumedToLimit
    if 2 ^ 63 ≤ gasWanted.toNat then
      .error (.wrapped .other
        s!"integer overflow by integer type conversion. Gas wanted > MaxInt64. Gas wanted: {gasWanted}")
    else if 2 ^ 63 ≤ gasUsed.toNat then
      .error (.wrapped .other
        s!"integer overflow by integer type conversion. Gas used > MaxInt64. Gas used: {gasUsed}")
    else do
      let limited ← ((Dec.ofInt gasWanted.toNat).mul st.params.minGasMultiplier).checked
      let updated := (limited.max (Dec.ofInt gasUsed.toNat)).truncateInt
      if updated < 0 ∨ 2 ^ 64 ≤ updated then .error (.panicked "Uint64() out of bounds")
      else .ok { st with blockGasWanted := UInt64.ofNat updated.toNat }

structure Block where
  ctx : BlockContext
  txs : List Tx

/-- A transaction that the ante handler refuses leaves nothing behind. -/
def deliverTx (st : State) (tx : Tx) : State :=
  match checkGasWanted ctx st tx with
  | .ok st => st
  | .error _ => st

/-- A block: `BeginBlock`, the transactions, `EndBlock`, and the commit that clears the transient store. -/
def runBlock (decimals : Decimals) (st : State) (block : Block) : Except Err State := do
  let st ← beginBlock decimals block.ctx st
  let st ← endBlock block.ctx (block.txs.foldl (deliverTx block.ctx) st)
  .ok { st with transientGasWanted := 0 }

def runBlocks (decimals : Decimals) : State → List Block → Except Err State := Result.run (runBlock decimals)

end CosmosEvm.FeeMarket
