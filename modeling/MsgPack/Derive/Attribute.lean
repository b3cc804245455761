import MsgPack.Derive.Lexer

/-!
# Attributes of items and members

An item, a variant or a field may carry attributes; those of the path `msgpack` hold options
in a delimited list.  Any other attribute is ignored.  Options are separated by commas, and
a comma may stand after the last one.  Options add up over all attributes of one place; a
flag given twice is given once, and of several names the last one counts.

A list is read from left to right, and the first thing that is wrong with it is reported.
-/

namespace MsgPack.Derive

/-- Where an option stands. -/
inductive Scope where
  | container
  | field
  deriving DecidableEq

/-- The word for a place in reports. -/
def Scope.name : Scope → String
  | container => "container"
  | field => "field"

/-- Why no code can be derived for an item. -/
inductive CompileError where
  | lifetimeParameter
  | union
  /-- An option that its place does not have. -/
  | unknownOption (scope : Scope) (name : String)
  /-- An attribute without a list of options. -/
  | noList
  /-- An attribute with an assignment in place of a list of options. -/
  | assignment
  | expectedIdentifier
  | keyword (word : String)
  | expectedEquals
  | expectedString
  | missingString
  | unexpectedToken
  /-- Variants by name, in an item that is no choice of variants without fields. -/
  | namesOfVariants
  /-- A map layout for fields without names. -/
  | mapWithoutNames
  /-- A map layout for a choice of variants. -/
  | mapOfVariants
  | noVariants
  /-- An option of fields on a variant. -/
  | variantOption
  deriving DecidableEq

/-- The wording of a compile error. -/
def CompileError.message : CompileError → String
  | lifetimeParameter => "MessagePackObject cannot be derived for types with lifetime parameters"
  | union => "MessagePackObject cannot be derived for unions"
  | unknownOption scope name => "Unknown " ++ scope.name ++ " attribute: " ++ name
  | noList => "expected attribute arguments in parentheses: #[msgpack(...)]"
  | assignment => "expected parentheses: #[msgpack(...)]"
  | expectedIdentifier => "expected identifier"
  | keyword word => "expected identifier, found keyword \x60" ++ word ++ "\x60"
  | expectedEquals => "expected \x60=\x60"
  | expectedString => "expected string literal"
  | missingString => "unexpected end of input, expected string literal"
  | unexpectedToken => "unexpected token"
  | namesOfVariants => "#[msgpack(as_string)] is only supported on unit-only enums"
  | mapWithoutNames => "#[msgpack(map)] requires named fields"
  | mapOfVariants => "#[msgpack(map)] is not supported on enums"
  | noVariants => "MessagePackObject cannot be derived for an enum without variants"
  | variantOption => "only #[msgpack(rename = \"...\")] is supported on variants"

/-! ## Attributes -/

/-- What follows the path of an attribute. -/
inductive Arguments where
  | absent
  | assigned
  /-- A list in delimiters, without them. -/
  | listed (tokens : Code)
  deriving DecidableEq

/-- An attribute. -/
structure Attribute where
  path : Code
  arguments : Arguments
  deriving DecidableEq

namespace Attribute

/-- Whether a token ends the path of an attribute. -/
def endsPath (token : Token) : Bool :=
  token.opens || token = .mark '='

/-- The attribute that tokens are. -/
def ofCode (code : Code) : Attribute where
  path := code.takeWhile fun token => !endsPath token
  arguments :=
    match code.dropWhile fun token => !endsPath token with
    | [] => .absent
    | .mark '=' :: _ => .assigned
    | _ :: tokens => .listed tokens.dropLast

/-- Whether an attribute holds options. -/
def isOwn (given : Attribute) : Bool :=
  given.path = [.word "msgpack"]

end Attribute

/-! ## Options -/

/-- The words that are no identifiers. -/
def keywords : List String :=
  ["_", "abstract", "as", "async", "await", "become", "box", "break", "const", "continue",
    "crate", "do", "dyn", "else", "enum", "extern", "false", "final", "fn", "for", "if", "impl",
    "in", "let", "loop", "macro", "match", "mod", "move", "mut", "override", "priv", "pub",
    "ref", "return", "Self", "self", "static", "struct", "super", "trait", "true", "try",
    "type", "typeof", "unsafe", "unsized", "use", "virtual", "where", "while", "yield"]

/-- An option. -/
inductive Setting where
  /-- A record is a map from keys to fields. -/
  | map
  /-- A variant is written by its name. -/
  | asString
  /-- The key of a field or the name of a variant. -/
  | rename (name : String)
  /-- A field is never written. -/
  | skip
  /-- A field may be missing. -/
  | lenient
  deriving DecidableEq

/-- The option that a word alone stands for. -/
def Setting.flag? : Scope → String → Option Setting
  | .container, "map" => some map
  | .container, "as_string" => some asString
  | .field, "skip" => some skip
  | .field, "default" => some lenient
  | _, _ => none

/-- Whether a word is followed by a name. -/
def Setting.takesName (scope : Scope) (word : String) : Bool :=
  scope = .field && word = "rename"

/-- The options of a list. -/
def Setting.listed (scope : Scope) : Code → Except CompileError (List Setting)
  | [] => .ok []
  | .word name :: rest =>
      if name ∈ keywords then .error (.keyword name)
      else if takesName scope name then
        match rest with
        | .mark '=' :: .string _ content :: [] => .ok [rename content]
        | .mark '=' :: .string _ content :: .mark ',' :: rest => do
            return rename content :: (← listed scope rest)
        | .mark '=' :: .string _ _ :: _ => .error .unexpectedToken
        | .mark '=' :: [] => .error .missingString
        | .mark '=' :: _ => .error .expectedString
        | _ => .error .expectedEquals
      else
        match flag? scope name, rest with
        | none, _ => .error (.unknownOption scope name)
        | some setting, [] => .ok [setting]
        | some setting, .mark ',' :: rest => do return setting :: (← listed scope rest)
        | some _, _ => .error .unexpectedToken
  | _ => .error .expectedIdentifier

/-- The options of an attribute. -/
def Attribute.settings (scope : Scope) (given : Attribute) :
    Except CompileError (List Setting) :=
  if given.isOwn then
    match given.arguments with
    | .absent => .error .noList
    | .assigned => .error .assignment
    | .listed tokens => Setting.listed scope tokens
  else .ok []

/-- The options of all attributes of one place. -/
def Attribute.allSettings (scope : Scope) :
    List Attribute → Except CompileError (List Setting)
  | [] => .ok []
  | given :: others => do
      let first ← given.settings scope
      return first ++ (← allSettings scope others)

/-- The name that options give, if any. -/
def Setting.renamed? (settings : List Setting) : Option String :=
  settings.reverse.findSome? fun
    | rename name => some name
    | _ => none

end MsgPack.Derive
