/-!
# Hexadecimal text

The digits of a number in base sixteen, in either case and padded to a least number of
digits.
-/

namespace MsgPack.Hex

/-- The digits of a number, the letters small. -/
def digits (number : Nat) : String :=
  String.ofList (Nat.toDigits 16 number)

/-- The digits of a number, the letters small, with zeros in front up to `count` digits. -/
def padded (count number : Nat) : String :=
  let found := Nat.toDigits 16 number
  String.ofList (List.replicate (count - found.length) '0' ++ found)

/-- As `padded`, with capital letters. -/
def paddedCapital (count number : Nat) : String :=
  String.ofList ((padded count number).toList.map Char.toUpper)

end MsgPack.Hex
