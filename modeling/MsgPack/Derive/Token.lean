/-!
# Tokens of source text

Source text is a list of tokens: words, literals and marks.  Every delimiter and every
other punctuation character is a mark of its own, so a path separator is two marks and a
lifetime is a mark and a word.  A literal keeps the spelling that it has in the source; of
a text literal its content is known as well.
-/

namespace MsgPack.Derive

/-- A token. -/
inductive Token where
  /-- An identifier or a keyword, with the mark that makes it raw if it has one. -/
  | word (text : String)
  /-- A literal of text: its spelling, and the text that it denotes. -/
  | string (spelling content : String)
  /-- Any other literal. -/
  | literal (spelling : String)
  /-- A punctuation character or a delimiter. -/
  | mark (character : Char)
  deriving DecidableEq

/-- Source text. -/
abbrev Code := List Token

namespace Token

/-- The spelling of a token. -/
def text : Token → String
  | word text => text
  | string spelling _ => spelling
  | literal spelling => spelling
  | mark character => character.toString

/-- Whether a token opens a delimiter. -/
def opens : Token → Bool
  | mark '(' | mark '[' | mark '\x7b' => true
  | _ => false

/-- Whether a token closes a delimiter. -/
def closes : Token → Bool
  | mark ')' | mark ']' | mark '\x7d' => true
  | _ => false

end Token

/-- All tokens in order, with a space between any two. -/
def Code.text (code : Code) : String :=
  " ".intercalate (code.map Token.text)

end MsgPack.Derive
