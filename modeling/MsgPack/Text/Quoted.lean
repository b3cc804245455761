import MsgPack.Text.Hex
import MsgPack.Text.Printable

/-!
# Quoted text

Text in double quotes.  A tab, a carriage return, a line feed, a double quote, a backslash
and the null character have short escapes; any other character that does not show itself is
written as its code point.  Literals differ in one point: there a null character that a
digit below eight follows is written in full, since the short escape would run into the
digit.
-/

namespace MsgPack.Quoted

/-- A code point as an escape. -/
def codePoint (character : Char) : String :=
  "\\u\x7b" ++ Hex.digits character.toNat ++ "\x7d"

/-- One character between quotes. -/
def escape (character : Char) : String :=
  match character with
  | '\t' => "\\t"
  | '\r' => "\\r"
  | '\n' => "\\n"
  | '\"' => "\\\""
  | '\\' => "\\\\"
  | other =>
      if other = Char.ofNat 0 then "\\0"
      else if isPrintable other then other.toString
      else codePoint other

/-- Text in quotes, as in reports. -/
def quote (text : String) : String :=
  "\"" ++ String.join (text.toList.map escape) ++ "\""

/-- Whether a character is a digit below eight. -/
def isOctalDigit (character : Char) : Bool :=
  '0' ≤ character && character ≤ '7'

/-- The characters of a literal between its quotes. -/
def literalParts : List Char → List String
  | [] => []
  | [last] => [escape last]
  | first :: second :: rest =>
      let part :=
        if first = Char.ofNat 0 && isOctalDigit second then "\\x00" else escape first
      part :: literalParts (second :: rest)

/-- Text in quotes, as a string literal. -/
def literal (text : String) : String :=
  "\"" ++ String.join (literalParts text.toList) ++ "\""

end MsgPack.Quoted
