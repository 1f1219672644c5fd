import CosmosEvm.Mempool.Ordering
import CosmosEvm.Sdk.Keepers

namespace CosmosEvm.Mempool

variable {E C B : Type}

structure FeeTx where
  fee : Coins
  gas : UInt64

structure MsgEthereumTx (E : Type) where
  sender : Address
  raw : E

/-- What an iterator is made with: `E` are the Ethereum transactions, `C` those of the Cosmos mempool, and `B`
what the transaction builder gives. The base fee is that of the current header, if there is one. -/
structure IteratorConfig (E C B : Type) where
  bondDenom : Denom
  ethSender : E → Except Err Address
  buildTx : MsgEthereumTx E → Except Err B
  feeTx : C → Option FeeTx
  headerBaseFee : Option ℤ

structure EVMMempoolIterator (E C : Type) where
  evmIterator : Option (TransactionsByPriceAndNonce E)
  cosmosIterator : List C

/-- `uint256.FromBig`, with `none` for an overflow. A negative number wraps. -/
def uint256FromBig (i : ℤ) : Option (BitVec 256) :=
  if 2 ^ 256 ≤ i.natAbs then none else some (BitVec.ofInt 256 i)

namespace IteratorConfig

variable (cfg : IteratorConfig E C B)

def getCurrentBaseFee : Option (BitVec 256) := cfg.headerBaseFee.bind uint256FromBig

def bondDenomFeeAmount (fees : Coins) : Option ℤ :=
  fees.foldl (fun amount coin => if coin.denom = cfg.bondDenom then some coin.amount else amount) none

/-- `extractCosmosEffectiveTip`, `none` when it panics: `Quo` does on the nil amount of a fee without the bond
denomination, and on a gas limit of zero. -/
def extractCosmosEffectiveTip (tx : C) : Option (Option (BitVec 256)) :=
  match cfg.feeTx tx with
  | none => some none
  | some feeTx =>
    match cfg.bondDenomFeeAmount feeTx.fee with
    | none => none
    | some amount =>
      if feeTx.gas = 0 then none
      else
        match uint256FromBig (amount.tdiv feeTx.gas.toNat) with
        | none => some none
        | some gasPrice =>
          match cfg.getCurrentBaseFee with
          | none => some (some gasPrice)
          | some baseFee =>
            if gasPrice < baseFee then some (some 0) else some (some (gasPrice - baseFee))

def convertEVMToSDKTx (tx : LazyTransaction E) : Option B :=
  match cfg.ethSender tx.tx with
  | .error _ => none
  | .ok sender => (cfg.buildTx ⟨sender, tx.tx⟩).toOption

end IteratorConfig

namespace EVMMempoolIterator

variable (cfg : IteratorConfig E C B) (it : EVMMempoolIterator E C)

def getNextEVMTx : Option (LazyTransaction E × BitVec 256) := it.evmIterator.bind (·.peek)

/-- `getNextCosmosTx`. This and what follows is `none` when it panics. -/
def getNextCosmosTx : Option (Option (C × BitVec 256)) :=
  match it.cosmosIterator with
  | [] => some none
  | tx :: _ => (cfg.extractCosmosEffectiveTip tx).map fun tip => some (tx, tip.getD 0)

def shouldUseEVM : Option Bool := do
  let nextCosmosTx ← it.getNextCosmosTx cfg
  match it.getNextEVMTx, nextCosmosTx with
  | none, _ => some false
  | some _, none => some true
  | some (_, evmFee), some (_, cosmosFee) => some (cosmosFee = 0 || !(evmFee < cosmosFee))

/-- `getPreferredTransaction`. The result is a Cosmos transaction or one built from an EVM transaction. -/
def getPreferredTransaction (nextEVMTx : Option (LazyTransaction E)) (nextCosmosTx : Option C) :
    Option (Option (C ⊕ B)) :=
  if nextEVMTx.isNone && nextCosmosTx.isNone then some none
  else do
    let useEVM ← it.shouldUseEVM cfg
    if useEVM then
      match nextEVMTx.bind cfg.convertEVMToSDKTx with
      | some tx => some (some (.inr tx))
      | none => some (nextCosmosTx.map .inl)
    else some (nextCosmosTx.map .inl)

def tx : Option (Option (C ⊕ B)) := do
  let nextCosmosTx ← it.getNextCosmosTx cfg
  it.getPreferredTransaction cfg (it.getNextEVMTx.map (·.1)) (nextCosmosTx.map (·.1))

def advanceCurrentIterator : Option (EVMMempoolIterator E C) := do
  let useEVM ← it.shouldUseEVM cfg
  some (if useEVM then { it with evmIterator := it.evmIterator.map (·.shift) }
    else { it with cosmosIterator := it.cosmosIterator.tail })

def passedTx : Option (Option (LazyTransaction E ⊕ C)) := do
  let useEVM ← it.shouldUseEVM cfg
  some (if useEVM then it.getNextEVMTx.map (.inl ·.1) else it.cosmosIterator.head?.map .inr)

def hasMoreTransactions : Option Bool := do
  let nextCosmosTx ← it.getNextCosmosTx cfg
  some (it.getNextEVMTx.isSome || nextCosmosTx.isSome)

def next : Option (Option (EVMMempoolIterator E C)) := do
  let nextCosmosTx ← it.getNextCosmosTx cfg
  if it.getNextEVMTx.isNone && nextCosmosTx.isNone then some none
  else
    let advanced ← it.advanceCurrentIterator cfg
    let more ← advanced.hasMoreTransactions cfg
    some (if more then some advanced else none)

end EVMMempoolIterator

def newEVMMempoolIterator (evmIterator : Option (TransactionsByPriceAndNonce E)) (cosmosIterator : List C) :
    Option (EVMMempoolIterator E C) :=
  let hasEVM := evmIterator.any fun t => !t.empty
  let hasCosmos := !cosmosIterator.isEmpty
  if !hasEVM && !hasCosmos then none else some ⟨evmIterator, cosmosIterator⟩

end CosmosEvm.Mempool
