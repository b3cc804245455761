import MsgPack.Collection.Grid
import MsgPack.Collection.Sequence
import MsgPack.Datum.Scalar
import MsgPack.Formatter.Basic

/-!
# Reading typed data

The formatters that follow from the description of a type, for reading.  Each asks the
lookup for the formatters of the types inside: a collection once, after its header; a
record, a tuple or a wrapper whenever it comes to a value.

Everything inside an array, a map or a typeless value is read one level deeper.  Wrappers
and options are not, so reading goes down either in the description of the type or in the
budget of levels that the reader has left.
-/

namespace MsgPack.Decode

open Session

variable {σ α : Type}

/-- Reads the inside of a nested structure.  The depth afterwards is the depth before,
however the inner read ends. -/
def nested (inner : Decode σ α) : Decode σ α := fun session =>
  match Read.enterNested session.state with
  | .error failure after => .error failure { session with state := after }
  | .ok () entered =>
      let close (after : Session Reader σ) : Session Reader σ :=
        { after with state := { after.state with depth := session.state.depth } }
      match inner { session with state := entered } with
      | .ok result after => .ok result (close after)
      | .error failure after => .error failure (close after)

/-- Reads a value of a type with the formatter that the lookup gives for it. -/
def found (lookup : Lookup σ) (inner : Formatter → Schema → Decode σ Datum) (type : Schema) :
    Decode σ Datum := do
  inner (← find lookup type) type

/-! ## Collections -/

/-- Reads the items of an array of any length. -/
def collection (lookup : Lookup σ) (inner : Formatter → Schema → Decode σ Datum)
    (type : Schema) : Decode σ (List Datum) := do
  let count ← lift Read.arrayHeader
  let formatter ← find lookup type
  nested (Loop.times count (inner formatter type))

/-- Reads an array of fixed length. -/
def array (lookup : Lookup σ) (inner : Formatter → Schema → Decode σ Datum) (length : Nat)
    (type : Schema) : Decode σ Datum := do
  let items ← collection lookup inner type
  if items.length = length then return .list items
  else throw (.countMismatch (Schema.array length type).typeName length items.length)

/-- Reads a two-dimensional array: its dimensions, and all its items row by row. -/
def grid (lookup : Lookup σ) (inner : Formatter → Schema → Decode σ Datum) (type : Schema) :
    Decode σ Datum := do
  lift (Read.arrayOf 3 (Schema.grid type).typeName)
  let (rows, columns, items) ← nested do
    let rows ← lift (Read.size .usize)
    let columns ← lift (Read.size .usize)
    return (rows.toNat, columns.toNat, ← collection lookup inner type)
  let built ← lift (Read.ofExcept (Grid.ofItems (Schema.grid type).typeName rows columns items))
  return .grid built.rows built.columns built.items

/-- Reads the entries of a map. -/
def entries (lookup : Lookup σ) (inner : Formatter → Schema → Decode σ Datum)
    (keyType valueType : Schema) : Decode σ (List (Datum × Datum)) := do
  let count ← lift Read.mapHeader
  let keys ← find lookup keyType
  let values ← find lookup valueType
  let entry : Decode σ (Datum × Datum) := do
    let key ← inner keys keyType
    return (key, ← inner values valueType)
  nested (Loop.times count entry)

/-- Reads one value of each type. -/
def each (lookup : Lookup σ) (inner : Formatter → Schema → Decode σ Datum) :
    List Schema → Decode σ (List Datum)
  | [] => pure []
  | type :: types => do
      let item ← found lookup inner type
      return item :: (← each lookup inner types)

/-! ## Typeless values -/

/-- Whether a typeless value is next that carries the name of its type. -/
def carriesName : Read Bool := do
  if (← Read.peekKind) = .extension then
    return decide ((← Read.peekExtensionHeader).typeCode = ExtensionCode.typeless)
  else return false

/-- Reads the name of a type and a value as it is read for that type. -/
def named (lookup : Lookup σ) (inner : Formatter → Schema → Decode σ Datum)
    (registry : Option Nat) : Decode σ (TypeHandle × Schema × Datum) := do
  let name ← lift Read.string
  match (← names lookup registry).byName? name with
  | none => throw (.unknownTypeName name)
  | some handle => do
      note lookup registry handle.type
      return (handle, ← follow (found lookup inner) handle.delegates.read)

/-- Reads a typeless value.  Whatever carries no name is a value of any shape. -/
def typeless (lookup : Lookup σ) (inner : Formatter → Schema → Decode σ Datum)
    (registry : Option Nat) : Decode σ Datum := do
  if ← lift carriesName then
    let header ← lift Read.extensionHeader
    let start ← lift Read.position
    let (handle, type, content) ← nested (named lookup inner registry)
    let taken := (← lift Read.position) - start
    if taken = header.length then return .typeless type content
    else throw (.invalidValue (.typelessLength handle.name header.length taken))
  else return .typeless (.scalar .value) (.atom (.value (← lift Value.read)))

/-! ## Records -/

/-- The fields of a record from what was found for each of them.  A field that was not
found takes the initial value of its type if it may be missing or is never written. -/
def construct (catalog : Catalog) (typeName : String) :
    List (Field Schema) → List (Option Datum) → Except Error (List Datum)
  | [], _ => .ok []
  | field :: fields, slots => do
      let value ← match slots.head?.join with
        | some value => .ok value
        | none =>
            if field.skip || field.lenient then .ok (field.type.initial catalog.initial)
            else .error (.missingField field.key typeName)
      return value :: (← construct catalog typeName fields slots.tail)

/-- Reads the first `available` of the fields that are written. -/
def slots (lookup : Lookup σ) (inner : Formatter → Schema → Decode σ Datum) :
    Nat → List (Field Schema) → Decode σ (List (Option Datum))
  | _, [] => pure []
  | available, field :: fields =>
      if field.skip || available = 0 then do
        return none :: (← slots lookup inner available fields)
      else do
        let value ← found lookup inner field.type
        return some value :: (← slots lookup inner (available - 1) fields)

/-- Reads fields from an array.  Missing items leave their fields without value, and items
beyond the last field are skipped. -/
def slotsOfArray (lookup : Lookup σ) (inner : Formatter → Schema → Decode σ Datum)
    (fields : List (Field Schema)) (count : Nat) : Decode σ (List (Option Datum)) :=
  nested do
    let values ← slots lookup inner count fields
    lift (Loop.discard Read.skip (count - (Field.written fields).length))
    return values

/-- The first written field with a key, and its place. -/
def fieldOf? (fields : List (Field Schema)) (key : String) : Option (Field Schema × Nat) :=
  fields.zipIdx.find? fun placed => !placed.1.skip && placed.1.key == key

/-- Reads one entry of a map of fields: the place of its field, and the value.  An entry of
no field is skipped. -/
def assignment (lookup : Lookup σ) (inner : Formatter → Schema → Decode σ Datum)
    (fields : List (Field Schema)) : Decode σ (Option (Nat × Datum)) := do
  let key ← lift Read.string
  match fieldOf? fields key with
  | none => do
      lift Read.skip
      return none
  | some (field, place) => return some (place, ← found lookup inner field.type)

/-- The last value that each field was assigned. -/
def lastAssigned (fields : List (Field Schema)) (assignments : List (Nat × Datum)) :
    List (Option Datum) :=
  (List.range fields.length).map fun place =>
    (assignments.reverse.find? fun assigned => assigned.1 = place).map (·.2)

/-- Reads fields from a map. -/
def slotsOfMap (lookup : Lookup σ) (inner : Formatter → Schema → Decode σ Datum)
    (fields : List (Field Schema)) : Decode σ (List (Option Datum)) := do
  let count ← lift Read.mapHeader
  let assignments ← nested (Loop.times count (assignment lookup inner fields))
  return lastAssigned fields (assignments.filterMap id)

/-! ## Choices -/

/-- The variant with a number. -/
def variantOf (name : String) (variants : List (Variant Schema)) (index : Nat) :
    Except Error (Variant Schema) :=
  match variants[index]? with
  | some variant => .ok variant
  | none => .error (.invalidValue (.variantIndex index name))

/-- Reads the payload of a variant. -/
def payload (lookup : Lookup σ) (catalog : Catalog)
    (inner : Formatter → Schema → Decode σ Datum) (name : String) (variant : Variant Schema) :
    Decode σ (List Datum) :=
  match variant.fields with
  | none => do
      lift Read.nil
      return []
  | some fields => do
      let expected := (Field.written fields).length
      let qualified := variant.qualifiedName name
      lift (Read.arrayOf expected qualified)
      let values ← slotsOfArray lookup inner fields expected
      lift (Read.ofExcept (construct catalog qualified fields values))

/-- Reads the number of a variant and its payload. -/
def tagged (lookup : Lookup σ) (catalog : Catalog)
    (inner : Formatter → Schema → Decode σ Datum) (name : String)
    (variants : List (Variant Schema)) : Decode σ Datum := do
  let index := (← lift (Read.int .u32)).toNat
  let variant ← lift (Read.ofExcept (variantOf name variants index))
  return .variant index (← payload lookup catalog inner name variant)

/-! ## Any type -/

/-- Reads a value of a defined type. -/
def defined (lookup : Lookup σ) (catalog : Catalog)
    (inner : Formatter → Schema → Decode σ Datum) (definition : Definition Schema) :
    Decode σ Datum := do
  let name := definition.name
  match definition.layout with
  | .unit => do
      lift Read.nil
      return .record []
  | .array fields => do
      let count ← lift Read.arrayHeader
      let values ← slotsOfArray lookup inner fields count
      return .record (← lift (Read.ofExcept (construct catalog name fields values)))
  | .map fields => do
      let values ← slotsOfMap lookup inner fields
      return .record (← lift (Read.ofExcept (construct catalog name fields values)))
  | .byIndex variants => do
      let index := (← lift (Read.int .u32)).toNat
      let _ ← lift (Read.ofExcept (variantOf name variants index))
      return .variant index []
  | .byName variants => do
      let chosen ← lift Read.string
      match variants.findIdx? fun variant => variant.name = chosen with
      | some index => return .variant index []
      | none => throw (.invalidValue (.variantName chosen name))
  | .tagged variants => do
      lift (Read.arrayOf 2 name)
      nested (tagged lookup catalog inner name variants)

/-- Reads with a formatter, where `shaped` follows the description of the type. -/
def formatted (lookup : Lookup σ) (inner : Formatter → Schema → Decode σ Datum)
    (shaped : Decode σ Datum) : Formatter → Decode σ Datum
  | .builtin => shaped
  | .codec codec => lift codec.read
  | .custom custom => follow (fun type => nested (found lookup inner type)) custom.read
  | .typeless registry => typeless lookup inner (some registry)

/-- Reads a value of a type as the description of the type says, where `inner` reads what
lies one level deeper. -/
def shaped (lookup : Lookup σ) (catalog : Catalog)
    (inner : Formatter → Schema → Decode σ Datum) : Schema → Decode σ Datum
  | .scalar scalar => return .atom (← lift scalar.read)
  | .typeless => typeless lookup inner none
  | .option type => do
      if ← lift Read.tryNil then return .none
      else
        let formatter ← find lookup type
        return .some (← formatted lookup inner (shaped lookup catalog inner type) formatter)
  | .boxed type | .shared type => do
      let formatter ← find lookup type
      formatted lookup inner (shaped lookup catalog inner type) formatter
  | .sequence kind type => do
      return .list (kind.build (catalog.sortKey type) (← collection lookup inner type))
  | .array length type => array lookup inner length type
  | .grid type => grid lookup inner type
  | .map kind keyType valueType => do
      return .map (Keyed.ofEntries (catalog.sortKey keyType) kind
        (← entries lookup inner keyType valueType))
  | .tuple types => do
      lift (Read.arrayOf types.length (Schema.tuple types).typeName)
      return .list (← nested (each lookup inner types))
  | .named name => do
      match catalog.definition? name with
      | some definition => defined lookup catalog inner definition
      | none => throw (.formatterNotFound name lookup.chain)

/-- Reads a value of a type with a formatter for it, where `budget` more levels may be
opened. -/
def within (lookup : Lookup σ) (catalog : Catalog) :
    Nat → Formatter → Schema → Decode σ Datum
  | 0, formatter, type =>
      let inner (_ : Formatter) (_ : Schema) : Decode σ Datum := lift Read.tooDeep
      formatted lookup inner (shaped lookup catalog inner type) formatter
  | budget + 1, formatter, type =>
      let inner := within lookup catalog budget
      formatted lookup inner (shaped lookup catalog inner type) formatter

/-- Reads a value of a type with a formatter for it. -/
def datum (lookup : Lookup σ) (catalog : Catalog) (formatter : Formatter) (type : Schema) :
    Decode σ Datum := fun session =>
  within lookup catalog session.state.budget formatter type session

/-- Reads a value of a type with the formatter that the lookup gives for the type. -/
def value (lookup : Lookup σ) (catalog : Catalog) (type : Schema) : Decode σ Datum := do
  datum lookup catalog (← find lookup type) type

/-- A datum of a type from a reader, and the reader and the memory of the lookup
afterwards. -/
def run (lookup : Lookup σ) (catalog : Catalog) (type : Schema) (reader : Reader)
    (memory : σ) : Except Error Datum × Session Reader σ :=
  Session.run (value lookup catalog type) reader memory

end MsgPack.Decode
