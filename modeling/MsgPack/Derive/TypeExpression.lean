import MsgPack.Derive.Item
import MsgPack.Formatter.Basic

/-!
# Types as they are written in source text

A type expression is a path, alone or applied to types in angle brackets, or types in
parentheses or brackets.  Words that are not known otherwise name types with definitions;
such a type is known by a path and by the full names of the types that it is applied to.
Words may also be given types of their own, as the parameters of an item are.

With them the layout of an item becomes the definition of a type that can be written and
read.  Which fields may be missing is decided by the types as they are written, before the
parameters of the item are replaced by types.
-/

namespace MsgPack

/-- The scalar type that a word stands for. -/
def Scalar.ofWord? (word : String) : Option Scalar :=
  [("bool", bool), ("u8", int .u8), ("u16", int .u16), ("u32", int .u32), ("u64", int .u64),
    ("i8", int .i8), ("i16", int .i16), ("i32", int .i32), ("i64", int .i64),
    ("usize", int .usize), ("isize", int .isize), ("f32", float32), ("f64", float64),
    ("char", char), ("String", string), ("SmolStr", smallString), ("Bytes", bytes),
    ("ByteBuf", byteBuffer), ("Value", value), ("Timestamp", timestamp),
    ("SystemTime", systemTime), ("Duration", duration), ("Ipv4Addr", ipv4),
    ("Ipv6Addr", ipv6), ("IpAddr", ip), ("SocketAddr", socket),
    ("NaiveDateTime", plainDateTime), ("NaiveDate", date), ("NaiveTime", time),
    ("Uuid", guid), ("Decimal", decimal)].lookup word

namespace Schema

/-! ## Words and paths -/

/-- The type that is declared under a path, alone or applied to types. -/
def declared (path : String) : List Schema → Schema
  | [] => named path
  | arguments => named (path ++ "<" ++ ", ".intercalate (typeNames arguments) ++ ">")

/-- The type that a word stands for, alone or applied to types. -/
def applied (path word : String) (arguments : List Schema) : Schema :=
  match word, arguments with
  | "Typeless", [] => typeless
  | "Option", [item] => option item
  | "Box", [item] => boxed item
  | "Arc", [item] => shared item
  | "Vec", [item] => sequence .list item
  | "VecDeque", [item] => sequence .deque item
  | "LinkedList", [item] => sequence .linkedList item
  | "HashSet", [item] => sequence .hashSet item
  | "BTreeSet", [item] => sequence .treeSet item
  | "IndexSet", [item] => sequence .indexSet item
  | "Stack", [item] => sequence .stack item
  | "Array2", [item] => grid item
  | "HashMap", [key, value] => map .hash key value
  | "BTreeMap", [key, value] => map .tree key value
  | "IndexMap", [key, value] => map .index key value
  | "DateTime", [clock] =>
      if clock = named (path ++ "Utc") then scalar .utcDateTime
      else if clock = named (path ++ "FixedOffset") then scalar .offsetDateTime
      else declared (path ++ word) arguments
  | _, [] =>
      match Scalar.ofWord? word with
      | some known => scalar known
      | none => named (path ++ word)
  | _, _ => declared (path ++ word) arguments

/-- The words whose types are found in libraries, by the names of these. -/
def origins : List (List String × List String) :=
  [(["std", "core", "alloc"],
      ["bool", "u8", "u16", "u32", "u64", "i8", "i16", "i32", "i64", "usize", "isize", "f32",
        "f64", "char", "String", "Option", "Box", "Arc", "Vec", "VecDeque", "LinkedList",
        "HashSet", "BTreeSet", "HashMap", "BTreeMap", "SystemTime", "Duration", "Ipv4Addr",
        "Ipv6Addr", "IpAddr", "SocketAddr"]),
    (["packwire"], ["ByteBuf", "Value", "Timestamp", "Typeless", "Stack", "Array2"]),
    (["bytes"], ["Bytes"]), (["indexmap"], ["IndexMap", "IndexSet"]),
    (["smol_str"], ["SmolStr"]), (["uuid"], ["Uuid"]), (["rust_decimal"], ["Decimal"]),
    (["chrono"],
      ["DateTime", "Utc", "FixedOffset", "NaiveDateTime", "NaiveDate", "NaiveTime"])]

/-- The word that a path stands for, if it stands for one: itself, or one that is found where
the path begins. -/
def wordOf? : List String → Option String
  | [word] => some word
  | library :: inside =>
      inside.getLast?.filter fun word =>
        origins.any fun (libraries, words) => libraries.contains library && words.contains word
  | [] => none

/-- The type that a path stands for, alone or applied to types. -/
def ofPath (path : String) (segments : List String) (arguments : List Schema) : Schema :=
  match wordOf? segments, segments with
  | some word, _ => applied path word arguments
  | none, "crate" :: inside | none, "self" :: inside =>
      declared (path ++ "::".intercalate inside) arguments
  | none, _ => declared (path ++ "::".intercalate segments) arguments

/-- The type that a path stands for alone.  A single word may be given a type. -/
def alone (path : String) (given : List (String × Schema)) : List String → Schema
  | [word] => (given.lookup word).getD (applied path word [])
  | segments => ofPath path segments []

open Derive

/-- The segments of a path at the start of code, and what follows them.  Two colons may stand
before arguments, too. -/
def segments : Code → List String × Code
  | .word word :: .mark ':' :: .mark ':' :: rest =>
      let (words, rest) := segments rest
      (word :: words, rest)
  | .word word :: rest => ([word], rest)
  | rest => ([], rest)

/-! ## Expressions -/

/-- A type in parentheses, or the items of a tuple, which a comma may end.  A single type that no
comma ends is in parentheses only. -/
def parenthesized : List Schema → Bool → Schema
  | [], _ => scalar .unit
  | [item], false => item
  | items, _ => tuple items

/-- The array of so many items as stand behind them, and what follows it. -/
def arrayOf (item : Schema) : Code → Option (Schema × Code)
  | .mark ';' :: .literal length :: .mark ']' :: rest => do
      return (array (← length.toNat?) item, rest)
  | _ => none

/-- The box of items, or of an array of them, and what follows it. -/
def boxOf (item : Schema) : Code → Option (Schema × Code)
  | .mark ']' :: .mark '>' :: rest => some (sequence .slice item, rest)
  | .mark ';' :: .literal length :: .mark ']' :: .mark '>' :: rest => do
      return (boxed (array (← length.toNat?) item), rest)
  | _ => none

mutual

/-- The type at the start of code, and what follows it. -/
def ofCodeWithin (path : String) (given : List (String × Schema)) :
    Nat → Code → Option (Schema × Code)
  | 0, _ => none
  | fuel + 1, .mark '(' :: rest => do
      let (items, ended, rest) ← itemsWithin path given fuel ')' rest
      return (parenthesized items ended, rest)
  | fuel + 1, .mark '[' :: rest => do
      let (item, rest) ← ofCodeWithin path given fuel rest
      arrayOf item rest
  | fuel + 1, .mark ':' :: .mark ':' :: rest => ofCodeWithin path given fuel rest
  | fuel + 1, .word first :: rest =>
      let words := segments (.word first :: rest)
      match words.2 with
      | .mark '<' :: rest =>
          -- Only a box holds items whose number is not fixed.
          if wordOf? words.1 = some "Box" ∧ rest.head? = some (.mark '[') then do
            let (item, rest) ← ofCodeWithin path given fuel rest.tail
            boxOf item rest
          else do
            let (arguments, _, rest) ← itemsWithin path given fuel '>' rest
            return (ofPath path words.1 arguments, rest)
      | rest => some (alone path given words.1, rest)
  | _ + 1, _ => none

/-- The types up to a closing mark, separated by commas, whether a comma ends them, and what
follows the mark. -/
def itemsWithin (path : String) (given : List (String × Schema)) :
    Nat → Char → Code → Option (List Schema × Bool × Code)
  | 0, _, _ => none
  | fuel + 1, close, code =>
      if code.head? = some (.mark close) then some ([], true, code.tail)
      else do
        let (item, rest) ← ofCodeWithin path given fuel code
        match rest with
        | .mark ',' :: rest => do
            let (items, ended, rest) ← itemsWithin path given fuel close rest
            return (item :: items, ended, rest)
        | .mark mark :: rest => if mark = close then return ([item], false, rest) else none
        | _ => none

end

/-- The type that code denotes, where the names of types with definitions begin with `path`
and some words are given types. -/
def ofCode? (path : String) (given : List (String × Schema)) (code : Code) : Option Schema :=
  match ofCodeWithin path given (code.length + 1) code with
  | some (type, []) => some type
  | _ => none

/-- The type that text denotes. -/
def ofText? (path text : String) : Option Schema :=
  ofCode? path [] (Code.ofText text)

end Schema

/-- The parameters of an item that stand for types. -/
def Derive.Item.typeParameters (item : Derive.Item) : List String :=
  item.parameters.filterMap fun
    | .type name _ => some name
    | _ => none

/-- The definition of the type that an item declares, applied to types.  Field types that are
no type expressions are types without definition. -/
def Derive.Item.typeDefinition (path : String) (item : Derive.Item) (arguments : List Schema) :
    Except Derive.CompileError (Definition Schema) := do
  let definition ← item.definition
  let given := item.typeParameters.zip arguments
  let type (code : Derive.Code) := (Schema.ofCode? path given code).getD (.named code.text)
  return ⟨definition.name, definition.layout.mapTypes type⟩

/-- The catalog of definitions that are known by their full names. -/
def Catalog.ofDefinitions (definitions : List (String × Definition Schema)) : Catalog :=
  { Catalog.empty with definition? := fun name => definitions.lookup name }

end MsgPack
