import Mathlib.Data.List.Induction
import Mathlib.Data.Nat.Bitwise

/-!
# Bloom filters

A filter is a number whose bits say what was added: each item sets a few bits of its own.
-/

namespace CosmosEvm.Bloom

variable {Item : Type} (bits : Item → List ℕ)

def add (filter : ℕ) (item : Item) : ℕ :=
  (bits item).foldl (fun filter bit => filter ||| 2 ^ bit) filter

def test (filter : ℕ) (item : Item) : Bool := (bits item).all filter.testBit

def ofItems (items : List Item) : ℕ := items.foldl (add bits) 0

variable {bits} {filter filter' : ℕ}

theorem testBit_add (filter : ℕ) (item : Item) (i : ℕ) :
    (add bits filter item).testBit i = (filter.testBit i || decide (i ∈ bits item)) := by
  unfold add
  induction bits item generalizing filter with
  | nil => simp
  | cons bit rest ih =>
    rw [List.foldl_cons, ih, Nat.testBit_or, Nat.testBit_two_pow, Bool.or_assoc]
    congr 1
    by_cases heq : bit = i
    · simp [heq]
    · simp [heq, Ne.symm heq]

theorem testBit_foldl_add (items : List Item) (filter i : ℕ) :
    (items.foldl (add bits) filter).testBit i =
      (filter.testBit i || items.any fun item => decide (i ∈ bits item)) := by
  induction items generalizing filter with
  | nil => simp
  | cons item items ih => rw [List.foldl_cons, ih, testBit_add, List.any_cons, Bool.or_assoc]

theorem testBit_ofItems (items : List Item) (i : ℕ) :
    (ofItems bits items).testBit i = items.any fun item => decide (i ∈ bits item) := by
  rw [ofItems, testBit_foldl_add, Nat.zero_testBit, Bool.false_or]

theorem ofItems_append (items more : List Item) :
    ofItems bits (items ++ more) = ofItems bits items ||| ofItems bits more := by
  apply Nat.eq_of_testBit_eq
  intro i
  rw [Nat.testBit_or, testBit_ofItems, testBit_ofItems, testBit_ofItems, List.any_append]

theorem ofItems_flatMap {α : Type} (f : α → List Item) (l : List α) :
    ofItems bits (l.flatMap f) = l.foldl (fun filter a => filter ||| ofItems bits (f a)) 0 := by
  induction l using List.reverseRecOn with
  | nil => rfl
  | append_singleton l a ih =>
    rw [List.flatMap_append, ofItems_append, ih, List.foldl_append, List.flatMap_singleton]
    rfl

theorem ofItems_lt {n : ℕ} (hbits : ∀ item, ∀ bit ∈ bits item, bit < n) (items : List Item) :
    ofItems bits items < 2 ^ n := by
  apply Nat.lt_pow_two_of_testBit
  intro i hle
  rw [testBit_ofItems, List.any_eq_false]
  intro item _
  rw [decide_eq_true_iff]
  exact fun hmem => absurd (hbits item i hmem) (not_lt.mpr hle)

theorem test_of_mem {items : List Item} {item : Item} (hmem : item ∈ items)
    (hbits : ∀ i, (ofItems bits items).testBit i = true → filter.testBit i = true) :
    test bits filter item = true := by
  rw [test, List.all_eq_true]
  intro bit hbit
  apply hbits
  rw [testBit_ofItems, List.any_eq_true]
  exact ⟨item, hmem, decide_eq_true hbit⟩

end CosmosEvm.Bloom
