import CosmosEvm.Sdk.Keepers

namespace CosmosEvm

namespace TextCodec

def accAddressString (address : AccAddress) : String :=
  String.ofList (address.map fun byte => Char.ofNat byte.val)

def accAddressFromText (text : String) : Option AccAddress :=
  if text.toList.all fun c => c.toNat < 256 then
    some (text.toList.map fun c => lowByte c.toNat)
  else none

theorem toNat_ofNat_byte : ∀ byte : Byte, (Char.ofNat byte.val).toNat = byte.val := by
  decide +kernel

theorem accAddressFromText_accAddressString (address : AccAddress) :
    accAddressFromText (accAddressString address) = some address := by
  have hlow : ∀ byte : Byte, lowByte (Char.ofNat byte.val).toNat = byte := by
    intro byte
    apply Fin.ext
    rw [toNat_ofNat_byte]
    exact Nat.mod_eq_of_lt byte.isLt
  unfold accAddressFromText accAddressString
  rw [String.toList_ofList, if_pos, List.map_map]
  · congr 1
    conv_rhs => rw [← List.map_id address]
    exact List.map_congr_left fun byte _ => hlow byte
  · rw [List.all_map, List.all_eq_true]
    intro byte _
    simp only [Function.comp_apply, toNat_ofNat_byte, decide_eq_true_eq]
    exact byte.isLt

def coinChars (coin : Coin) : List Char := coin.amount.repr.toList ++ coin.denom.toList

def coinsString (coins : Coins) : String :=
  String.ofList ([','].intercalate (coins.map coinChars))

def parseCoin (text : List Char) : Option Coin :=
  match (String.ofList (text.takeWhile Char.isDigit)).toNat? with
  | none => none
  | some amount => some ⟨String.ofList (text.dropWhile Char.isDigit), amount⟩

def parseCoins (text : String) : Option Coins :=
  if text.toList = [] then some []
  else (text.toList.splitOn ',').mapM parseCoin

end TextCodec

def textCodec : Codec where
  accAddressString := TextCodec.accAddressString
  accAddressFromBech32 := TextCodec.accAddressFromText
  coinsString := TextCodec.coinsString
  parseCoinsNormalized := TextCodec.parseCoins

end CosmosEvm
