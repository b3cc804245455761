import MsgPack.Float.Shortest
import MsgPack.Text.Quoted
import MsgPack.Value.Basic

/-!
# Values as text

Two texts of a value.  The *display* is for readers: plain numbers, quoted strings,
brackets, and for binary data and extensions only their sizes.  The *detailed* text names
every constructor; there a floating point number always has a point or an exponent, and the
latter when it is below one ten-thousandth or not below ten quadrillions.
-/

namespace MsgPack

namespace DecimalDigits

/-- The power of ten of the first digit. -/
def magnitude (decimal : DecimalDigits) : Int :=
  decimal.exponent + ((toString decimal.digits).length - 1 : Nat)

/-- The text of a decimal with an exponent. -/
def scientific (decimal : DecimalDigits) : String :=
  let significand :=
    match (toString decimal.digits).toList with
    | first :: second :: rest => first :: '.' :: second :: rest
    | single => single
  String.ofList significand ++ "e" ++ toString decimal.magnitude

/-- The text of a decimal with a point or an exponent. -/
def detailed (decimal : DecimalDigits) : String :=
  if decimal.magnitude < -4 ∨ 16 ≤ decimal.magnitude then decimal.scientific
  else if 0 ≤ decimal.exponent then decimal.positional ++ ".0"
  else decimal.positional

end DecimalDigits

/-- The text of the number that a pattern stands for, with a point or an exponent. -/
def BinaryFormat.detailed (format : BinaryFormat) (bits : Nat) : String :=
  match format.unpack bits with
  | .finite negative significand exponent =>
      let sign := if negative then "-" else ""
      if significand = 0 then sign ++ "0.0"
      else
        match (RoundingInterval.of format significand exponent).shortest? with
        | some decimal => sign ++ decimal.detailed
        | none => sign
  | _ => format.text bits

namespace Quoted

/-- One byte between quotes. -/
def escapeByte (byte : UInt8) : String :=
  match Char.ofNat byte.toNat with
  | '\n' => "\\n"
  | '\r' => "\\r"
  | '\t' => "\\t"
  | '\\' => "\\\\"
  | '\"' => "\\\""
  | character =>
      if byte = 0 then "\\0"
      else if 0x20 ≤ byte && byte < 0x7f then character.toString
      else "\\x" ++ Hex.padded 2 byte.toNat

/-- Bytes in quotes. -/
def bytes (content : Bytes) : String :=
  "b\"" ++ String.join (content.map escapeByte) ++ "\""

end Quoted

namespace Value

/-! ## Display -/

mutual

/-- The text of a value for readers. -/
def display : Value → String
  | nil => "nil"
  | bool truth => toString truth
  | int word => toString word.toInt
  | uint word => toString word.toNat
  | float32 bits => BinaryFormat.single.text bits.toNat
  | float64 bits => BinaryFormat.double.text bits.toNat
  | string text => Quoted.quote text
  | binary bytes => "bin(" ++ toString bytes.length ++ " bytes)"
  | array items => "[" ++ ", ".intercalate (displayItems items) ++ "]"
  | map entries => "\x7b" ++ ", ".intercalate (displayEntries entries) ++ "\x7d"
  | extension typeCode payload =>
      "ext(" ++ toString typeCode.toInt ++ ", " ++ toString payload.length ++ " bytes)"

/-- The texts of the items of an array. -/
def displayItems : List Value → List String
  | [] => []
  | item :: items => display item :: displayItems items

/-- The texts of the entries of a map. -/
def displayEntries : List (Value × Value) → List String
  | [] => []
  | (key, value) :: entries => (display key ++ ": " ++ display value) :: displayEntries entries

end

/-! ## Detailed text -/

mutual

/-- The text of a value that names its constructors. -/
def detailed : Value → String
  | nil => "Nil"
  | bool truth => "Bool(" ++ toString truth ++ ")"
  | int word => "Int(" ++ toString word.toInt ++ ")"
  | uint word => "UInt(" ++ toString word.toNat ++ ")"
  | float32 bits => "F32(" ++ BinaryFormat.single.detailed bits.toNat ++ ")"
  | float64 bits => "F64(" ++ BinaryFormat.double.detailed bits.toNat ++ ")"
  | string text => "String(" ++ Quoted.quote text ++ ")"
  | binary bytes => "Binary(" ++ Quoted.bytes bytes ++ ")"
  | array items => "Array([" ++ ", ".intercalate (detailedItems items) ++ "])"
  | map entries => "Map([" ++ ", ".intercalate (detailedEntries entries) ++ "])"
  | extension typeCode payload =>
      "Extension(" ++ toString typeCode.toInt ++ ", " ++ Quoted.bytes payload ++ ")"

/-- The texts of the items of an array. -/
def detailedItems : List Value → List String
  | [] => []
  | item :: items => detailed item :: detailedItems items

/-- The texts of the entries of a map. -/
def detailedEntries : List (Value × Value) → List String
  | [] => []
  | (key, value) :: entries =>
      ("(" ++ detailed key ++ ", " ++ detailed value ++ ")") :: detailedEntries entries

end

end Value

end MsgPack
