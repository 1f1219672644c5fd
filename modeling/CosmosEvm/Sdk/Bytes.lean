import Mathlib.Algebra.Order.Group.Nat
import Mathlib.Data.Finset.Sort
import Mathlib.Data.List.Lex

/-!
# Byte strings and addresses

Go's `[]byte` is a list of bytes. The fixed-width `common.Address` and `common.Hash` of go-ethereum carry
their length, and order as `bytes.Compare` orders them.
-/

namespace CosmosEvm

abbrev Byte := Fin 256

instance neZero_byte : @NeZero ℕ Zero.ofOfNat0 256 := ⟨by decide⟩

def lowByte (n : Nat) : Byte := ⟨n % 256, Nat.mod_lt n (by decide)⟩

abbrev Bytes := List Byte

abbrev AccAddress := Bytes

structure FixedBytes (width : Nat) where
  bytes : Bytes
  length_bytes : bytes.length = width
deriving DecidableEq

namespace FixedBytes

variable {width : Nat}

theorem bytes_injective : Function.Injective (bytes : FixedBytes width → Bytes) := by
  rintro ⟨left, _⟩ ⟨right, _⟩ heq
  cases heq
  rfl

instance : LinearOrder (FixedBytes width) := LinearOrder.lift' bytes bytes_injective

/-- `SetBytes`: the last `width` bytes, padded with zeros on the left. -/
def ofBytes (width : Nat) (value : Bytes) : FixedBytes width where
  bytes := List.replicate (width - value.length) 0 ++ value.drop (value.length - width)
  length_bytes := by
    simp only [List.length_append, List.length_replicate, List.length_drop]
    omega

@[simp]
theorem ofBytes_bytes (value : FixedBytes width) : ofBytes width value.bytes = value := by
  apply bytes_injective
  simp [ofBytes, value.length_bytes]

abbrev sorted (values : Finset (FixedBytes width)) : List (FixedBytes width) := values.sort (· ≤ ·)

def zero (width : Nat) : FixedBytes width := ofBytes width []

end FixedBytes

abbrev Address := FixedBytes 20

instance lawfulBEq_address : LawfulBEq Address := inferInstance

abbrev Hash := FixedBytes 32

def bytesToAddress (value : Bytes) : Address := FixedBytes.ofBytes 20 value

def bytesToHash (value : Bytes) : Hash := FixedBytes.ofBytes 32 value

/-- `binary.BigEndian`: the low `width` bytes of a number, the highest first. -/
def bigEndian : ℕ → ℕ → Bytes
  | 0, _ => []
  | width + 1, n => bigEndian width (n / 256) ++ [lowByte n]

@[simp]
theorem length_bigEndian (width n : ℕ) : (bigEndian width n).length = width := by
  induction width generalizing n with
  | zero => rfl
  | succ width ih => simp [bigEndian, ih]

theorem bigEndian_inj {width m n : ℕ} (hm : m < 256 ^ width) (hn : n < 256 ^ width)
    (heq : bigEndian width m = bigEndian width n) : m = n := by
  induction width generalizing m n with
  | zero => simp_all
  | succ width ih =>
    obtain ⟨hhigh, hlow⟩ := List.append_inj' heq rfl
    have hmod : m % 256 = n % 256 := congrArg Fin.val (List.cons.inj hlow).1
    have hdiv : m / 256 = n / 256 := by
      apply ih _ _ hhigh
      · exact Nat.div_lt_of_lt_mul (by rwa [pow_succ'] at hm)
      · exact Nat.div_lt_of_lt_mul (by rwa [pow_succ'] at hn)
    omega

theorem bytesToHash_inj {left right : Bytes} (hlength : left.length = right.length)
    (hle : left.length ≤ 32) (heq : bytesToHash left = bytesToHash right) : left = right := by
  have hbytes := congrArg FixedBytes.bytes heq
  simp only [bytesToHash, FixedBytes.ofBytes] at hbytes
  rw [← hlength, Nat.sub_eq_zero_of_le hle] at hbytes
  exact List.append_cancel_left hbytes

end CosmosEvm
