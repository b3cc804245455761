import MsgPack.Derive.Program
import MsgPack.Text.Quoted

/-!
# The code of a formatter

The code of the programs that write and read a type, and that makes the formatter known as
the one that the type brings.  Fixed parts are given as source text; what depends on the
item is put between them.
-/

namespace MsgPack.Derive

/-! ## Pieces -/

/-- Code given as text. -/
def source (text : String) : Code :=
  Code.ofText text

/-- Code in braces. -/
def braced (code : Code) : Code :=
  .mark '\x7b' :: code ++ [.mark '\x7d']

/-- A word of its own. -/
def word (text : String) : Code :=
  [.word text]

/-- A count or a position. -/
def sizeLiteral (size : Nat) : Code :=
  [.literal (toString size ++ "usize")]

/-- The number of a variant. -/
def indexLiteral (index : Nat) : Code :=
  [.literal (toString index ++ "u32")]

/-- Text as a literal. -/
def textLiteral (text : String) : Code :=
  [.string (Quoted.literal text) text]

/-- Pieces with a separator between any two. -/
def separated (separator : Char) (pieces : List Code) : Code :=
  List.intercalate [.mark separator] pieces

/-- A result that is returned at the end of a block. -/
def success (result : Code) : Code :=
  source "::core::result::Result::Ok(" ++ result ++ source ")"

/-- A failure that is returned at the end of a block. -/
def failure (cause : Code) : Code :=
  source "::core::result::Result::Err(::packwire::MessagePackError::" ++ cause ++ source ")"

/-- The slot of a field while it is read. -/
def slot (place : Nat) : Code :=
  word ("__v" ++ toString place)

/-- The name of a field while a variant is written. -/
def givenName (place : Nat) : Code :=
  word ("__f" ++ toString place)

/-- A variant of a type. -/
def VariantName.path (name : String) (variant : VariantName) : Code :=
  word name ++ source "::" ++ word variant.identifier

/-- Each of some arms, with a comma behind it. -/
def listed (arms : List Code) : Code :=
  arms.flatMap fun arm => arm ++ source ","

/-! ## Statements that write -/

/-- Where a value is found. -/
def Access.code : Access → Code
  | .member name _ => source "&value." ++ word name
  | .binding place => givenName place

/-- The code of a statement. -/
def WriteStatement.code : WriteStatement → Code
  | .arrayHeader count => source "writer.write_array_header(" ++ sizeLiteral count ++ source ")?;"
  | .mapHeader count => source "writer.write_map_header(" ++ sizeLiteral count ++ source ")?;"
  | .key content => source "writer.write_str(" ++ textLiteral content ++ source ")?;"
  | .value type access =>
      source "resolver.serialize_value::<" ++ type ++ source ">(writer, " ++ access.code
        ++ source ")?;"

/-! ## Statements that read -/

/-- Reads a value into a slot. -/
def Target.code (target : Target) : Code :=
  slot target.place ++ source " = ::core::option::Option::Some(resolver.deserialize_value::<"
    ++ target.type ++ source ">(reader)?);"

/-- Makes an empty slot. -/
def Target.declaration (target : Target) : Code :=
  source "let mut " ++ slot target.place ++ source ": ::core::option::Option<"
    ++ target.type ++ source "> = ::core::option::Option::None;"

/-- Skips a value. -/
def skipCode : Code :=
  braced (source "reader.skip()?;")

/-- The code of a statement inside a structure. -/
def InnerStatement.code : InnerStatement → Code
  | .item before target =>
      source "if __count > " ++ sizeLiteral before ++ braced target.code
  | .skipFrom before =>
      source "for _ in " ++ sizeLiteral before ++ source "..__count" ++ skipCode
  | .entries arms =>
      let arms := arms.flatMap fun (key, target) =>
        textLiteral key ++ source "=>" ++ braced target.code
      source "for _ in 0..__count" ++ braced
        (source "let __key = reader.read_str()?; match &*__key"
          ++ braced (arms ++ source "_ =>" ++ skipCode))

/-- Fails because a structure has another count than the one announced. -/
def countMismatch (typeName : String) (expected : Code) : Code :=
  source "return " ++ failure (source "CountMismatch"
    ++ braced (source "type_name: " ++ textLiteral typeName ++ source ", expected: "
      ++ expected ++ source ", actual: __count,")) ++ source ";"

/-- The code of a statement. -/
def ReadStatement.code : ReadStatement → Code
  | .arrayCount => source "let __count = reader.read_array_header()? as usize;"
  | .mapCount => source "let __count = reader.read_map_header()? as usize;"
  | .expectCount typeName expected =>
      let count := sizeLiteral expected
      source "if __count != " ++ count ++ braced (countMismatch typeName count)
  | .declare target => target.declaration
  | .nested body =>
      source "reader.nested(|reader|"
        ++ braced (body.flatMap InnerStatement.code ++ success (source "()")) ++ source ")?;"

/-- The value of a field from its slot. -/
def FieldValue.code : FieldValue → Code
  | .initial _ => source "::core::default::Default::default()"
  | .orInitial target => slot target.place ++ source ".unwrap_or_default()"
  | .required place key typeName =>
      source "match " ++ slot place ++ braced
        (source "::core::option::Option::Some(v) => v, ::core::option::Option::None =>"
          ++ braced (source "return " ++ failure (source "MissingField"
            ++ braced (source "field: " ++ textLiteral key ++ source ", type_name: "
              ++ textLiteral typeName ++ source ","))))

/-- The statements that read fields, and then the record or the variant of a path that they
make. -/
def FieldReading.code (reading : FieldReading) (path : Code) : Code × Code :=
  (reading.statements.flatMap ReadStatement.code,
    path ++ braced (separated ',' (reading.values.map fun (member, value) =>
      word member ++ source ":" ++ value.code)))

/-! ## Programs -/

/-- Fails because there is no such variant. -/
def unknownVariant (pattern name : String) : Code :=
  failure (source "InvalidValue(::std::format!(" ++ textLiteral pattern
    ++ source ", other, " ++ textLiteral name ++ source "),)")

/-- The report of an unknown number of a variant. -/
def unknownIndex : String :=
  "unknown variant index \x7b\x7d for \x7b\x7d"

/-- The report of an unknown name of a variant. -/
def unknownName : String :=
  "unknown variant '\x7b\x7d' for \x7b\x7d"

/-- The arm that writes a variant with its payload. -/
def writeArm (name : String) (arm : VariantName × Nat × Option PayloadWriting) : Code :=
  let (variant, index, payload) := arm
  let number := source "writer.write_u32(" ++ indexLiteral index ++ source ");"
  match payload with
  | none => variant.path name ++ source "=>" ++ braced (number ++ source "writer.write_nil();")
  | some payload =>
      let bindings := payload.bindings.map fun (member, place) =>
        word member ++ source ":" ++ givenName place
      variant.path name ++ braced (listed bindings ++ source "..") ++ source "=>"
        ++ braced (number ++ payload.statements.flatMap WriteStatement.code)

/-- The arm that reads the payload of a variant. -/
def readArm (name : String) (arm : Nat × VariantName × Option FieldReading) : Code :=
  let (index, variant, payload) := arm
  indexLiteral index ++ source "=>" ++ braced
    (match payload with
      | none => source "reader.read_nil()?;" ++ variant.path name
      | some reading =>
          let (statements, value) := reading.code (variant.path name)
          statements ++ value)

/-- The code of a program that writes a type of a name. -/
def WriteProgram.code (name : String) : WriteProgram → Code
  | .unit => source "writer.write_nil();" ++ success (source "()")
  | .record statements => statements.flatMap WriteStatement.code ++ success (source "()")
  | .byIndex arms =>
      source "let __index: u32 = match value"
        ++ braced (listed (arms.map fun (variant, index) =>
          variant.path name ++ source "=>" ++ indexLiteral index))
        ++ source "; writer.write_u32(__index);" ++ success (source "()")
  | .byName arms =>
      source "let __name: &str = match value"
        ++ braced (listed (arms.map fun (variant, text) =>
          variant.path name ++ source "=>" ++ textLiteral text))
        ++ source "; writer.write_str(__name)?;" ++ success (source "()")
  | .tagged arms =>
      source "writer.write_array_header(2)?; match value"
        ++ braced (arms.flatMap (writeArm name)) ++ success (source "()")

/-- The code of a program that reads a type of a name. -/
def ReadProgram.code (name : String) : ReadProgram → Code
  | .unit => source "reader.read_nil()?;" ++ success (word name)
  | .record reading =>
      let (statements, value) := reading.code (word name)
      statements ++ success value
  | .byIndex arms =>
      source "match reader.read_u32()?" ++ braced
        (listed (arms.map fun (index, variant) =>
            indexLiteral index ++ source "=>" ++ success (variant.path name))
          ++ source "other =>" ++ unknownVariant unknownIndex name ++ source ",")
  | .byName arms =>
      source "let __name = reader.read_str()?; match &*__name" ++ braced
        (listed (arms.map fun (text, variant) =>
            textLiteral text ++ source "=>" ++ success (variant.path name))
          ++ source "other =>" ++ unknownVariant unknownName name ++ source ",")
  | .tagged arms =>
      source "let __count = reader.read_array_header()? as usize; if __count != 2"
        ++ braced (countMismatch name (source "2"))
        ++ source "reader.nested(|reader|" ++ braced
          (success (source "match reader.read_u32()?" ++ braced
            (arms.flatMap (readArm name) ++ source "other =>"
              ++ braced (source "return " ++ unknownVariant unknownIndex name))))
        ++ source ")"

/-! ## Parameters -/

/-- Bounds with one more, which a plus sign parts from those before it. -/
def boundsWith (bounds : List Code) (last : Code) : Code :=
  let given := separated '+' bounds
  let joint := if given = [] ∨ given.getLast? = some (.mark '+') then [] else [.mark '+']
  given ++ joint ++ last

/-- The declaration of a parameter.  The type that it stands for must have a formatter. -/
def Parameter.declaration : Parameter → Code
  | .type name bounds =>
      word name ++ source ":" ++ boundsWith bounds (source "::packwire::Formattable")
  | .lifetime name => .mark '\'' :: word name
  | .const name given => source "const " ++ word name ++ source ":" ++ given

/-- The name of a parameter. -/
def Parameter.use : Parameter → Code
  | .type name _ => word name
  | .lifetime name => .mark '\'' :: word name
  | .const name _ => word name

/-- Parameters in angle brackets, if there are any. -/
def angled : List Code → Code
  | [] => []
  | pieces => .mark '<' :: separated ',' pieces ++ [.mark '>']

/-! ## Items -/

/-- The type that an item declares, with its parameters. -/
def Item.typeCode (item : Item) : Code :=
  word item.name ++ angled (item.parameters.map Parameter.use)

/-- The start of an implementation. -/
def Item.implementationHeader (item : Item) : Code :=
  source "impl" ++ angled (item.parameters.map Parameter.declaration)

/-- The conditions of an implementation. -/
def Item.whereClause (item : Item) : Code :=
  if item.conditions = [] then [] else word "where" ++ item.conditions

/-- The formatter of a type. -/
def Item.formatterCode (item : Item) (layout : Layout Code) : Code :=
  let type := item.typeCode
  source "#[allow(unused_variables)]" ++ item.implementationHeader
    ++ source "::packwire::Formatter<" ++ type ++ source "> for __PackwireFormatter<" ++ type
    ++ source ">" ++ item.whereClause ++ braced
      (source "fn serialize(&self, writer: &mut ::packwire::Writer, value: &" ++ type
        ++ source ", resolver: &dyn ::packwire::FormatterResolver,) -> ::packwire::Result<()>"
        ++ braced ((writeProgram layout).code item.name)
        ++ source "fn deserialize(&self, reader: &mut ::packwire::Reader<'_>,"
        ++ source "resolver: &dyn ::packwire::FormatterResolver,) -> ::packwire::Result<"
        ++ type ++ source ">" ++ braced ((readProgram item.name layout).code item.name))

/-- Makes the formatter known as the one that the type brings. -/
def Item.formattableCode (item : Item) : Code :=
  let type := item.typeCode
  item.implementationHeader ++ source "::packwire::Formattable for " ++ type ++ item.whereClause
    ++ braced
      (source "fn builtin_formatter() -> ::core::option::Option<::packwire::ErasedFormatter>"
        ++ braced
          (source "::core::option::Option::Some(::packwire::ErasedFormatter::new::<" ++ type
            ++ source ", _>(__PackwireFormatter::<" ++ type
            ++ source ">(::core::marker::PhantomData),))"))

/-- The code that is derived for an item. -/
def Item.expand (item : Item) : Except CompileError Code := do
  let definition ← item.definition
  return source "const _: () =" ++ braced
    (source "struct __PackwireFormatter<__T>(::core::marker::PhantomData<fn() -> __T>);"
      ++ item.formatterCode definition.layout ++ item.formattableCode) ++ source ";"

end MsgPack.Derive
