import CosmosEvm.Lib.BinaryHeap
import CosmosEvm.Sdk.Bytes
import Mathlib.Algebra.Order.BigOperators.Group.List
import Mathlib.Tactic.Linarith

/-!
# The EVM transactions by price and nonce

`mempool/miner`: a heap of the next transaction of each account. `Shift` replaces the best one by the next
of its account, and drops the account when that one does not pay the base fee.
-/

namespace CosmosEvm.Mempool

variable {E : Type}

structure LazyTransaction (E : Type) where
  tx : E
  time : ℕ
  gasFeeCap : BitVec 256
  gasTipCap : BitVec 256
deriving DecidableEq

structure TxWithMinerFee (E : Type) where
  tx : LazyTransaction E
  sender : Address
  fees : BitVec 256

/-- `newTxWithMinerFee`. There is none where the fee cap is below the base fee. -/
def newTxWithMinerFee (tx : LazyTransaction E) (sender : Address) (baseFee : Option (BitVec 256)) :
    Option (TxWithMinerFee E) :=
  match baseFee with
  | none => some ⟨tx, sender, tx.gasTipCap⟩
  | some baseFee =>
    if tx.gasFeeCap < baseFee then none
    else
      let tip := tx.gasFeeCap - baseFee
      some ⟨tx, sender, if tx.gasTipCap < tip then tx.gasTipCap else tip⟩

def txByPriceAndTime (a b : TxWithMinerFee E) : Bool :=
  if a.fees = b.fees then a.tx.time < b.tx.time else b.fees < a.fees

/-- `TransactionsByPriceAndNonce`. An account without an entry in `txs` has no further transactions. -/
structure TransactionsByPriceAndNonce (E : Type) where
  txs : Address → List (LazyTransaction E)
  heads : Array (TxWithMinerFee E)
  baseFee : Option (BitVec 256)

namespace TransactionsByPriceAndNonce

variable (t : TransactionsByPriceAndNonce E)

def peek : Option (LazyTransaction E × BitVec 256) :=
  t.heads[0]?.map fun head => (head.tx, head.fees)

def empty : Bool := t.heads.isEmpty

def popHead : TransactionsByPriceAndNonce E :=
  { t with heads := BinaryHeap.pop txByPriceAndTime t.heads }

/-- `Shift` puts the next transaction of the best head's account in its place. -/
def replaceHead (wrapped : TxWithMinerFee E)
    (rest : List (LazyTransaction E)) : TransactionsByPriceAndNonce E :=
  { t with
    txs := fun account => if account = wrapped.sender then rest else t.txs account
    heads := BinaryHeap.fix txByPriceAndTime (t.heads.setIfInBounds 0 wrapped) 0 }

def shift : TransactionsByPriceAndNonce E :=
  match t.heads[0]? with
  | none => t
  | some head =>
    match t.txs head.sender with
    | [] => t.popHead
    | tx :: rest =>
      match newTxWithMinerFee tx head.sender t.baseFee with
      | none => t.popHead
      | some wrapped => t.replaceHead wrapped rest

def weight (txs : Address → List (LazyTransaction E)) (head : TxWithMinerFee E) : ℕ :=
  1 + (txs head.sender).length

def size : ℕ := (t.heads.toList.map (weight t.txs)).sum

theorem sender_of_newTxWithMinerFee {tx : LazyTransaction E} {sender : Address}
    {baseFee : Option (BitVec 256)} {wrapped : TxWithMinerFee E}
    (hnew : newTxWithMinerFee tx sender baseFee = some wrapped) : wrapped.sender = sender := by
  unfold newTxWithMinerFee at hnew
  cases baseFee with
  | none => rw [← Option.some.inj hnew]
  | some fee =>
    simp only at hnew
    split at hnew
    · cases hnew
    · rw [← Option.some.inj hnew]

theorem size_popHead_lt {t : TransactionsByPriceAndNonce E} (hne : t.heads ≠ #[]) :
    t.popHead.size < t.size := by
  obtain ⟨popped, hperm⟩ := BinaryHeap.exists_pop_perm txByPriceAndTime hne
  have hsum := (hperm.map (weight t.txs)).sum_eq
  have hpos : 0 < weight t.txs popped := by unfold weight; omega
  rw [List.map_cons, List.sum_cons] at hsum
  unfold size popHead
  simp only
  omega

/-- Each `Shift` uses up a transaction, so that the iteration ends. -/
theorem size_replaceHead_lt {t : TransactionsByPriceAndNonce E} {head wrapped : TxWithMinerFee E}
    {tx : LazyTransaction E} {rest : List (LazyTransaction E)} (hhead : t.heads[0]? = some head)
    (htxs : t.txs head.sender = tx :: rest) (hsender : wrapped.sender = head.sender) :
    (t.replaceHead wrapped rest).size < t.size := by
  obtain ⟨tail, htail⟩ : ∃ tail, t.heads.toList = head :: tail := by
    rw [← Array.getElem?_toList] at hhead
    cases hlist : t.heads.toList with
    | nil => rw [hlist] at hhead; cases hhead
    | cons first tail =>
      rw [hlist] at hhead
      exact ⟨tail, by rw [Option.some.inj hhead]⟩
  set txs := (t.replaceHead wrapped rest).txs with htxs'
  have hfix : (t.replaceHead wrapped rest).heads.toList.Perm (wrapped :: tail) := by
    refine (Array.perm_iff_toList_perm.1 (BinaryHeap.fix_perm txByPriceAndTime _ 0)).trans ?_
    rw [Array.toList_setIfInBounds, htail, List.set_cons_zero]
  have hweight : ∀ other, weight txs other ≤ weight t.txs other := by
    intro other
    simp only [weight, htxs', replaceHead]
    split
    · next heq =>
      rw [heq, hsender, htxs]
      simp
    · rfl
  have hwrapped : weight txs wrapped < weight t.txs head := by
    simp only [weight, htxs', replaceHead, if_true, htxs, List.length_cons]
    omega
  have htailSum : (tail.map (weight txs)).sum ≤ (tail.map (weight t.txs)).sum :=
    List.sum_le_sum fun other _ => hweight other
  calc (t.replaceHead wrapped rest).size
      = ((wrapped :: tail).map (weight txs)).sum := (hfix.map _).sum_eq
    _ = weight txs wrapped + (tail.map (weight txs)).sum := by rw [List.map_cons, List.sum_cons]
    _ < weight t.txs head + (tail.map (weight t.txs)).sum := by omega
    _ = t.size := by rw [size, htail, List.map_cons, List.sum_cons]

theorem size_shift_lt {t : TransactionsByPriceAndNonce E} {best : LazyTransaction E × BitVec 256}
    (hpeek : t.peek = some best) : t.shift.size < t.size := by
  obtain ⟨head, hhead, -⟩ := Option.map_eq_some_iff.1 hpeek
  have hne : t.heads ≠ #[] := by
    intro hempty
    rw [hempty] at hhead
    cases hhead
  unfold shift
  rw [hhead]
  dsimp only
  split
  · exact size_popHead_lt hne
  · next tx rest htxs =>
    split
    · exact size_popHead_lt hne
    · next wrapped hnew => exact size_replaceHead_lt hhead htxs (sender_of_newTxWithMinerFee hnew)

def order (t : TransactionsByPriceAndNonce E) : List (LazyTransaction E) :=
  match _hpeek : t.peek with
  | none => []
  | some best => best.1 :: t.shift.order
termination_by t.size
decreasing_by exact size_shift_lt _hpeek

theorem order_of_peek_eq_none {t : TransactionsByPriceAndNonce E} (hpeek : t.peek = none) :
    t.order = [] := by
  rw [order]
  split
  · rfl
  · next hsome => rw [hpeek] at hsome; cases hsome

theorem order_of_peek_eq_some {t : TransactionsByPriceAndNonce E} {tx : LazyTransaction E}
    {fees : BitVec 256} (hpeek : t.peek = some (tx, fees)) : t.order = tx :: t.shift.order := by
  rw [order]
  split
  · next hnone => rw [hpeek] at hnone; cases hnone
  · next best hsome =>
    rw [hpeek] at hsome
    rw [← Option.some.inj hsome]

end TransactionsByPriceAndNonce

end CosmosEvm.Mempool
