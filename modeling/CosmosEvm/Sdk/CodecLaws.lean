import CosmosEvm.Sdk.LedgerBank
import CosmosEvm.Sdk.TextCodec
import Mathlib

namespace CosmosEvm

structure Codec.RoundTrips (codec : Codec) : Prop where
  accAddress : ∀ {address : AccAddress}, address ≠ [] →
    codec.accAddressFromBech32 (codec.accAddressString address) = some address
  coins : ∀ {coins : Coins}, coins.IsValid →
    codec.parseCoinsNormalized (codec.coinsString coins) = some coins

namespace TextCodec

theorem repr_of_pos {amount : ℤ} (hpos : 0 < amount) : amount.repr = amount.toNat.repr := by
  lift amount to ℕ using hpos.le
  rfl

theorem isDigit_of_mem_repr {n : ℕ} {c : Char} (hmem : c ∈ n.repr.toList) : c.isDigit = true := by
  rw [Nat.repr, String.toList_ofList] at hmem
  exact Nat.isDigit_of_mem_toDigits (by decide) (by decide) hmem

theorem isDigit_of_isAlpha {c : Char} (halpha : c.isAlpha = true) : c.isDigit = false := by
  have hbounds : 'A'.val.toNat = 65 ∧ 'Z'.val.toNat = 90 ∧ 'a'.val.toNat = 97 ∧ '9'.val.toNat = 57 := by
    decide
  simp only [Char.isAlpha, Char.isUpper, Char.isLower, Char.isDigit, Bool.or_eq_true, Bool.and_eq_true,
    decide_eq_true_eq, Bool.and_eq_false_iff, decide_eq_false_iff_not, UInt32.le_iff_toNat_le,
    ge_iff_le] at halpha ⊢
  omega

theorem denom_spec {denom : Denom} (hdenom : validateDenom denom = true) :
    (∃ first rest, denom.toList = first :: rest ∧ first.isDigit = false) ∧ ',' ∉ denom.toList := by
  unfold validateDenom at hdenom
  cases htext : denom.toList with
  | nil => simp [htext] at hdenom
  | cons first rest =>
    simp only [htext, Bool.and_eq_true, List.all_eq_true] at hdenom
    obtain ⟨⟨⟨halpha, -⟩, -⟩, hrest⟩ := hdenom
    refine ⟨⟨first, rest, rfl, isDigit_of_isAlpha halpha⟩, ?_⟩
    rw [List.mem_cons]
    rintro (rfl | hmem)
    · exact absurd halpha (by decide)
    · exact absurd (hrest ',' hmem) (by decide)

theorem parseCoin_coinChars {coin : Coin} (hdenom : validateDenom coin.denom = true)
    (hpos : 0 < coin.amount) : parseCoin (coinChars coin) = some coin := by
  obtain ⟨⟨first, rest, htext, hfirst⟩, -⟩ := denom_spec hdenom
  have hdigits : ∀ c ∈ coin.amount.toNat.repr.toList, c.isDigit = true := fun c => isDigit_of_mem_repr
  have hamount : (coin.amount.toNat : ℤ) = coin.amount := Int.toNat_of_nonneg hpos.le
  unfold parseCoin coinChars
  rw [repr_of_pos hpos, List.takeWhile_append_of_pos hdigits, List.dropWhile_append_of_pos hdigits, htext,
    List.takeWhile_cons_of_neg (by simp [hfirst]), List.dropWhile_cons_of_neg (by simp [hfirst]), ← htext,
    List.append_nil, String.ofList_toList, String.ofList_toList, Nat.toNat?_repr]
  simp only [hamount]

theorem comma_notMem_coinChars {coin : Coin} (hdenom : validateDenom coin.denom = true)
    (hpos : 0 < coin.amount) : ',' ∉ coinChars coin := by
  unfold coinChars
  rw [repr_of_pos hpos, List.mem_append]
  rintro (hmem | hmem)
  · exact absurd (isDigit_of_mem_repr hmem) (by decide)
  · exact (denom_spec hdenom).2 hmem

theorem parseCoins_coinsString {coins : Coins} (hvalid : coins.IsValid) :
    parseCoins (coinsString coins) = some coins := by
  unfold parseCoins coinsString
  rw [String.toList_ofList]
  cases coins with
  | nil => rfl
  | cons coin rest =>
    have hsplit : ([','].intercalate ((coin :: rest).map coinChars)).splitOn ',' =
        (coin :: rest).map coinChars := by
      refine List.splitOn_intercalate ',' (fun text hmem => ?_) (by simp)
      obtain ⟨written, hwritten, rfl⟩ := List.mem_map.mp hmem
      exact comma_notMem_coinChars (hvalid.1 written hwritten).1 (hvalid.1 written hwritten).2
    have hparse : ∀ coins : Coins, (∀ coin ∈ coins, validateDenom coin.denom = true ∧ 0 < coin.amount) →
        (coins.map coinChars).mapM parseCoin = some coins := by
      intro coins hcoins
      induction coins with
      | nil => rfl
      | cons coin coins ih =>
        have hcoin := hcoins coin List.mem_cons_self
        have htail := ih fun other hother => hcoins other (List.mem_cons_of_mem coin hother)
        rw [List.map_cons, List.mapM_cons, parseCoin_coinChars hcoin.1 hcoin.2, htail]
        rfl
    have hnonempty : [','].intercalate ((coin :: rest).map coinChars) ≠ [] := by
      intro hempty
      obtain ⟨⟨first, letters, htext, -⟩, -⟩ := denom_spec (hvalid.1 coin List.mem_cons_self).1
      rw [hempty] at hsplit
      have hfirst : [] = coinChars coin := (List.cons.inj hsplit).1
      unfold coinChars at hfirst
      rw [htext] at hfirst
      simp at hfirst
    rw [if_neg hnonempty, hsplit]
    exact hparse _ hvalid.1

end TextCodec

theorem textCodec_roundTrips : textCodec.RoundTrips where
  accAddress _ := TextCodec.accAddressFromText_accAddressString _
  coins := TextCodec.parseCoins_coinsString

end CosmosEvm
