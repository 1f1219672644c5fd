import CosmosEvm.Sdk.Bytes
import Mathlib.Algebra.BigOperators.Group.List.Basic
import Mathlib.Algebra.GroupWithZero.Nat

/-!
# Hexadecimal text

go-ethereum reads an address from hexadecimal text of either case, with or without `0x`, and takes what
decodes before the first error.
-/

namespace CosmosEvm

namespace Hex

def digit (c : Char) : Option ℕ :=
  if 48 ≤ c.toNat ∧ c.toNat ≤ 57 then some (c.toNat - 48)
  else if 97 ≤ c.toNat ∧ c.toNat ≤ 102 then some (c.toNat - 87)
  else if 65 ≤ c.toNat ∧ c.toNat ≤ 70 then some (c.toNat - 55)
  else none

/-- `hex.DecodeString`: the bytes before the first error, and that there was none. -/
def decodeString : List Char → Bytes × Bool
  | [] => ([], true)
  | [_] => ([], false)
  | high :: low :: rest =>
    match digit high, digit low with
    | some h, some l => (lowByte (16 * h + l) :: (decodeString rest).1, (decodeString rest).2)
    | _, _ => ([], false)

def stripMarker : List Char → List Char
  | '0' :: 'x' :: rest => rest
  | '0' :: 'X' :: rest => rest
  | text => text

def fromHex (text : List Char) : Bytes :=
  let digits := stripMarker text
  (decodeString (if (digits.map Char.utf8Size).sum % 2 = 1 then '0' :: digits else digits)).1

def encodeToString (bytes : Bytes) : List Char :=
  bytes.flatMap fun byte => [Nat.digitChar (byte.val / 16), Nat.digitChar (byte.val % 16)]

theorem decodeString_encodeToString (bytes : Bytes) :
    decodeString (encodeToString bytes) = (bytes, true) := by
  have hdigit : ∀ byte : Byte, digit (Nat.digitChar (byte.val / 16)) = some (byte.val / 16) ∧
      digit (Nat.digitChar (byte.val % 16)) = some (byte.val % 16) := by
    decide +kernel
  induction bytes with
  | nil => rfl
  | cons byte bytes ih =>
    obtain ⟨hhigh, hlow⟩ := hdigit byte
    have hbyte : lowByte (16 * (byte.val / 16) + byte.val % 16) = byte := by
      rw [Nat.div_add_mod]
      exact Fin.ext (Nat.mod_eq_of_lt byte.isLt)
    change decodeString (_ :: _ :: encodeToString bytes) = _
    rw [decodeString, hhigh, hlow]
    simp only [ih, hbyte]

theorem isHexDigit_encodeToString (bytes : Bytes) :
    (encodeToString bytes).all (fun c => (digit c).isSome && c.utf8Size == 1) = true := by
  have hdigit : ∀ byte : Byte, [Nat.digitChar (byte.val / 16), Nat.digitChar (byte.val % 16)].all
      (fun c => (digit c).isSome && c.utf8Size == 1) = true := by
    decide +kernel
  unfold encodeToString
  rw [List.all_flatMap, List.all_eq_true]
  intro byte _
  exact hdigit byte

theorem length_encodeToString (bytes : Bytes) : (encodeToString bytes).length = 2 * bytes.length := by
  induction bytes with
  | nil => rfl
  | cons byte bytes ih =>
    change (encodeToString bytes).length + 1 + 1 = 2 * (bytes.length + 1)
    omega

theorem fromHex_of_digits {digits : List Char}
    (hdigits : digits.all (fun c => (digit c).isSome && c.utf8Size == 1) = true)
    (heven : digits.length % 2 = 0) : fromHex ('0' :: 'x' :: digits) = (decodeString digits).1 := by
  have hones : digits.map Char.utf8Size = List.replicate digits.length 1 := by
    rw [List.eq_replicate_iff]
    simp only [List.all_eq_true, Bool.and_eq_true, beq_iff_eq] at hdigits
    refine ⟨List.length_map _, ?_⟩
    intro size hsize
    obtain ⟨c, hc, rfl⟩ := List.mem_map.mp hsize
    exact (hdigits c hc).2
  have hsum : (digits.map Char.utf8Size).sum = digits.length := by
    rw [hones, List.sum_replicate_nat, Nat.mul_one]
  unfold fromHex
  simp only [stripMarker, hsum]
  rw [if_neg (by omega)]

theorem fromHex_encodeToString (bytes : Bytes) :
    fromHex ('0' :: 'x' :: encodeToString bytes) = bytes := by
  have heven : (encodeToString bytes).length % 2 = 0 := by
    rw [length_encodeToString]
    omega
  rw [fromHex_of_digits (isHexDigit_encodeToString bytes) heven, decodeString_encodeToString]

def checksumChar (nibble : ℕ) (c : Char) : Char :=
  if '9' < c ∧ 7 < nibble then Char.ofNat (c.toNat - 32) else c

def nibble (hash : Bytes) (i : ℕ) : ℕ :=
  let byte := (hash.getD (i / 2) 0).val
  if i % 2 = 0 then byte / 16 else byte % 16

variable (keccak256 : Bytes → Hash)

def checksumDigits (bytes : Bytes) : List Char :=
  let digits := encodeToString bytes
  let hash := (keccak256 (digits.map fun c => lowByte c.toNat)).bytes
  digits.mapIdx fun i c => checksumChar (nibble hash i) c

def lowerDigits : List Char := ['0', '1', '2', '3', '4', '5', '6', '7', '8', '9', 'a', 'b', 'c', 'd', 'e', 'f']

theorem mem_lowerDigits_of_mem_encodeToString {bytes : Bytes} {c : Char} (hmem : c ∈ encodeToString bytes) :
    c ∈ lowerDigits := by
  have hbyte : ∀ byte : Byte, Nat.digitChar (byte.val / 16) ∈ lowerDigits ∧
      Nat.digitChar (byte.val % 16) ∈ lowerDigits := by
    decide +kernel
  obtain ⟨byte, -, hmem⟩ := List.mem_flatMap.mp hmem
  rcases List.mem_pair.mp hmem with rfl | rfl
  · exact (hbyte byte).1
  · exact (hbyte byte).2

theorem digit_checksumChar {c : Char} (hmem : c ∈ lowerDigits) (nibble : ℕ) :
    digit (checksumChar nibble c) = digit c ∧ (checksumChar nibble c).utf8Size = 1 ∧
      (digit c).isSome = true := by
  have hcases : ∀ c ∈ lowerDigits, digit c = digit (if '9' < c then Char.ofNat (c.toNat - 32) else c) ∧
      (if '9' < c then Char.ofNat (c.toNat - 32) else c).utf8Size = 1 ∧ c.utf8Size = 1 ∧
        (digit c).isSome = true := by
    rw [← List.forall_iff_forall_mem]
    decide
  obtain ⟨hdigit, hupper, hlower, hsome⟩ := hcases c hmem
  by_cases hhigh : 7 < nibble
  · simp only [checksumChar, hhigh, and_true]
    exact ⟨hdigit.symm, hupper, hsome⟩
  · have hkept : checksumChar nibble c = c := if_neg fun hupper => hhigh hupper.2
    rw [hkept]
    exact ⟨rfl, hlower, hsome⟩

theorem decodeString_congr : ∀ {left right : List Char}, left.map digit = right.map digit →
    decodeString left = decodeString right
  | [], [], _ => rfl
  | [_], [_], _ => rfl
  | [_], _ :: _ :: _, heq => by simp at heq
  | _ :: _ :: _, [_], heq => by simp at heq
  | high :: low :: rest, high' :: low' :: rest', heq => by
    simp only [List.map_cons, List.cons.injEq] at heq
    obtain ⟨hhigh, hlow, hrest⟩ := heq
    rw [decodeString, decodeString, hhigh, hlow, decodeString_congr hrest]

theorem map_digit_checksumDigits (bytes : Bytes) :
    (checksumDigits keccak256 bytes).map digit = (encodeToString bytes).map digit := by
  apply List.ext_getElem?
  intro i
  unfold checksumDigits
  simp only [List.getElem?_map, List.getElem?_mapIdx]
  cases hget : (encodeToString bytes)[i]? with
  | none => rfl
  | some c =>
    have hmem := mem_lowerDigits_of_mem_encodeToString (List.mem_of_getElem? hget)
    exact congrArg some (digit_checksumChar hmem _).1

theorem isHexDigit_checksumDigits (bytes : Bytes) :
    (checksumDigits keccak256 bytes).all (fun c => (digit c).isSome && c.utf8Size == 1) = true := by
  rw [List.all_eq_true]
  intro c hmem
  obtain ⟨i, hi, rfl⟩ := List.mem_mapIdx.mp hmem
  have hlower := mem_lowerDigits_of_mem_encodeToString (List.getElem_mem hi)
  obtain ⟨hdigit, hsize, hsome⟩ := digit_checksumChar hlower
    (nibble (keccak256 ((encodeToString bytes).map fun c => lowByte c.toNat)).bytes i)
  rw [hdigit, hsome, hsize]
  rfl

theorem length_checksumDigits (bytes : Bytes) :
    (checksumDigits keccak256 bytes).length = 2 * bytes.length := by
  unfold checksumDigits
  rw [List.length_mapIdx, length_encodeToString]

end Hex

open Hex

def hexToAddress (text : String) : Address := bytesToAddress (fromHex text.toList)

def isHexAddress (text : String) : Bool :=
  let digits := stripMarker text.toList
  digits.length = 40 && digits.all fun c => (digit c).isSome

theorem mem_of_mem_stripMarker {text : List Char} {c : Char} (hmem : c ∈ text) (hzero : c ≠ '0')
    (hx : c ≠ 'x') (hX : c ≠ 'X') : c ∈ stripMarker text := by
  unfold stripMarker
  split
  · simpa [hzero, hx] using hmem
  · simpa [hzero, hX] using hmem
  · exact hmem

theorem bar_not_mem_of_isHexAddress {text : String} (haddress : isHexAddress text = true) :
    '|' ∉ text.toList := by
  intro hmem
  have hstripped := mem_of_mem_stripMarker hmem (by decide) (by decide) (by decide)
  simp only [isHexAddress, Bool.and_eq_true, List.all_eq_true] at haddress
  exact absurd (haddress.2 '|' hstripped) (by decide)

def lowerHex (address : Address) : String := String.ofList ('0' :: 'x' :: encodeToString address.bytes)

theorem isHexAddress_lowerHex (address : Address) : isHexAddress (lowerHex address) = true := by
  have hdigits := isHexDigit_encodeToString address.bytes
  simp only [List.all_eq_true, Bool.and_eq_true] at hdigits
  simp only [isHexAddress, lowerHex, String.toList_ofList, stripMarker, length_encodeToString,
    address.length_bytes, Bool.and_eq_true, decide_eq_true_eq, List.all_eq_true, true_and]
  exact fun c hc => (hdigits c hc).1

theorem hexToAddress_lowerHex (address : Address) : hexToAddress (lowerHex address) = address := by
  unfold hexToAddress lowerHex
  rw [String.toList_ofList, fromHex_encodeToString]
  exact FixedBytes.ofBytes_bytes address

def addressHex (keccak256 : Bytes → Hash) (address : Address) : String :=
  String.ofList ('0' :: 'x' :: checksumDigits keccak256 address.bytes)

theorem hexToAddress_addressHex (keccak256 : Bytes → Hash) (address : Address) :
    hexToAddress (addressHex keccak256 address) = address := by
  have heven : (checksumDigits keccak256 address.bytes).length % 2 = 0 := by
    rw [length_checksumDigits]
    omega
  unfold hexToAddress addressHex
  rw [String.toList_ofList, fromHex_of_digits (isHexDigit_checksumDigits keccak256 address.bytes) heven,
    decodeString_congr (map_digit_checksumDigits keccak256 address.bytes), decodeString_encodeToString]
  exact FixedBytes.ofBytes_bytes address

end CosmosEvm
