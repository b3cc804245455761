import MsgPack.Collection.Sequence
import MsgPack.Formatter.Basic

/-!
# Writing typed data

The formatters that follow from the description of a type, for writing.  Each asks the
lookup for the formatters of the types inside: a collection once, before its header; a
record, a tuple or a wrapper whenever it comes to a value.  A sequence writes its items in the
order of its kind.

A typeless value is written under the name of its type into a payload of its own, which is
appended only when it is complete.  So a failure inside it leaves nothing written.
-/

namespace MsgPack.Encode

open Session

variable {σ : Type}

/-- Fails because a datum is not of the type to be written. -/
def anotherType (type : Schema) : Encode σ Unit :=
  throw (.unwritable (.anotherType type.typeName))

/-- Goes through wrappers that leave no trace, to the type whose formatter writes. -/
def settle (lookup : Lookup σ) : Formatter → Schema → Encode σ (Formatter × Schema)
  | .builtin, .boxed item => do
      settle lookup (← find lookup item) item
  | .builtin, .shared item => do
      settle lookup (← find lookup item) item
  | formatter, type => pure (formatter, type)

/-- Writes into a payload of its own and hands it on when it is complete. -/
def intoPayload (write : Encode σ Unit) : Encode σ Bytes := fun session =>
  match write { session with state := Writer.empty } with
  | .ok () after => .ok after.state.toList { session with memory := after.memory }
  | .error failure after => .error failure { session with memory := after.memory }

/-! ## Defined types -/

/-- Writes what comes before the fields of a record.  The result says whether each field
has its key before it, and which fields there are. -/
def recordHeader (catalog : Catalog) (name : String) : Encode σ (Bool × List (Field Schema)) :=
  match (catalog.definition? name).map Definition.layout with
  | some .unit => do
      lift Write.nil
      return (false, [])
  | some (.array fields) => do
      lift (Write.arrayHeader (Field.written fields).length)
      return (false, fields)
  | some (.map fields) => do
      lift (Write.mapHeader (Field.written fields).length)
      return (true, fields)
  | _ => throw (.unwritable (.anotherType name))

/-- Writes what comes before the fields of a variant.  The result is its fields. -/
def variantHeader (catalog : Catalog) (name : String) (index : Nat) :
    Encode σ (List (Field Schema)) :=
  match (catalog.definition? name).map Definition.layout with
  | some (.byIndex _) => do
      lift (Write.int index)
      return []
  | some (.byName variants) =>
      match variants[index]? with
      | some variant => do
          lift (Write.str variant.name)
          return []
      | none => throw (.unwritable (.anotherType name))
  | some (.tagged variants) =>
      match variants[index]? with
      | some variant => do
          lift (Write.arrayHeader 2)
          lift (Write.int index)
          match variant.fields with
          | none =>
              lift Write.nil
              return []
          | some fields =>
              lift (Write.arrayHeader (Field.written fields).length)
              return fields
      | none => throw (.unwritable (.anotherType name))
  | _ => throw (.unwritable (.anotherType name))

/-! ## Parts of a value -/

/-- What writes a part of a value as a value of a type. -/
abbrev Part (σ : Type) := Schema → Encode σ Unit

/-- Writes the part with a number. -/
def part (parts : List (Part σ)) (index : Nat) (type : Schema) : Encode σ Unit :=
  match parts[index]? with
  | some write => write type
  | none => anotherType type

/-! ## Typeless values -/

/-- Writes what delegates make of a value of a type, where `whole` writes it as a value of a type
and there are the `parts` of it. -/
def delegated (delegates : TypelessDelegates) (type : Schema) (content : Datum) (whole : Part σ)
    (parts : List (Part σ)) : Encode σ Unit :=
  follow (fun
    | (none, wanted) => whole wanted
    | (some index, wanted) => part parts index wanted) (delegates.write type content)

/-- Writes a typeless value, where `whole` writes its content as a value of a type and there are
the `parts` of it: the name of its type and then what the delegates of the type make of the
content, as one extension.  A value that is of any shape needs no name. -/
def typeless (lookup : Lookup σ) (registry : Option Nat) (type : Schema) (content : Datum)
    (whole : Part σ) (parts : List (Part σ)) : Encode σ Unit :=
  match type, content with
  | .scalar .value, .atom (.value value) => lift value.write
  | _, _ => do
      match (← names lookup registry).byType? type with
      | none => throw (.unregisteredType type.typeName)
      | some handle => do
          note lookup registry type
          let payload ← intoPayload do
            lift (Write.str handle.name)
            delegated handle.delegates type content whole parts
          lift (Write.extension ExtensionCode.typeless payload)

/-! ## Any type -/

/-- Writes a datum with a formatter for its type, where `shaped` follows the description of
the type and `carried` writes a typeless value under the name of its type. -/
def formatted (lookup : Lookup σ) (content : Datum) (parts : List (Part σ))
    (shaped : Schema → Encode σ Unit) (carried : Option Nat → Encode σ Unit) (start : Formatter)
    (given : Schema) : Encode σ Unit := do
  let (formatter, type) ← settle lookup start given
  match formatter, type with
  | .builtin, .typeless => carried none
  | .builtin, type => shaped type
  | .codec codec, _ => lift (codec.write content)
  | .custom custom, _ =>
      follow (fun (index, wanted) => part parts index wanted) (custom.write content)
  | .typeless registry, _ => carried (some registry)

/-- Writes a datum that is not typeless with a formatter for its type. -/
def plain (lookup : Lookup σ) (content : Datum) (parts : List (Part σ))
    (shaped : Schema → Encode σ Unit) : Formatter → Schema → Encode σ Unit :=
  formatted lookup content parts shaped fun _ => anotherType .typeless

/-- Writes one thing after the other. -/
def inOrder : List (Encode σ Unit) → Encode σ Unit
  | [] => pure ()
  | first :: rest => do
      first
      inOrder rest

mutual

/-- Writes a datum of a type with a formatter for the type. -/
def datum (lookup : Lookup σ) (catalog : Catalog) :
    Datum → Formatter → Schema → Encode σ Unit
  | .atom atom =>
      plain lookup (.atom atom) [] fun
        | .scalar scalar => lift (scalar.write atom)
        | type => anotherType type
  | .none =>
      plain lookup .none [] fun
        | .option _ => lift Write.nil
        | type => anotherType type
  | .some item =>
      plain lookup (.some item)
          [fun wanted => do datum lookup catalog item (← find lookup wanted) wanted] fun
        | .option type => do datum lookup catalog item (← find lookup type) type
        | type => anotherType type
  | .list list =>
      plain lookup (.list list) (parts lookup catalog list) fun
        | .sequence kind type => do
            let formatter ← find lookup type
            lift (Write.arrayHeader list.length)
            inOrder (kind.elements (writers lookup catalog list formatter type))
        | .array _ type => do
            let formatter ← find lookup type
            lift (Write.arrayHeader list.length)
            inOrder (writers lookup catalog list formatter type)
        | .tuple types => do
            lift (Write.arrayHeader types.length)
            tuple lookup catalog list types
        | type => anotherType type
  | .grid rows columns list =>
      plain lookup (.grid rows columns list) (parts lookup catalog list) fun
        | .grid type => do
            let formatter ← find lookup type
            lift (Write.arrayHeader 3)
            lift (Write.int rows)
            lift (Write.int columns)
            lift (Write.arrayHeader list.length)
            inOrder (writers lookup catalog list formatter type)
        | type => anotherType type
  | .map list =>
      plain lookup (.map list) (entryParts lookup catalog list) fun
        | .map _ keyType valueType => do
            let keys ← find lookup keyType
            let values ← find lookup valueType
            lift (Write.mapHeader list.length)
            entries lookup catalog list keys keyType values valueType
        | type => anotherType type
  | .record values =>
      plain lookup (.record values) (parts lookup catalog values) fun
        | .named name => do
            let (keyed, fields) ← recordHeader catalog name
            fieldValues lookup catalog keyed values fields
        | type => anotherType type
  | .variant index values =>
      plain lookup (.variant index values) (parts lookup catalog values) fun
        | .named name => do
            let fields ← variantHeader catalog name index
            fieldValues lookup catalog false values fields
        | type => anotherType type
  | .typeless held item =>
      let whole : Part σ := fun wanted => do
        datum lookup catalog item (← find lookup wanted) wanted
      formatted lookup (.typeless held item) [whole] anotherType fun registry =>
        typeless lookup registry held item whole (inside lookup catalog item)
termination_by structural content => content

/-- The parts of a datum. -/
def inside (lookup : Lookup σ) (catalog : Catalog) : Datum → List (Part σ)
  | .atom _ | .none => []
  | .some item | .typeless _ item =>
      [fun wanted => do datum lookup catalog item (← find lookup wanted) wanted]
  | .list list | .grid _ _ list | .record list | .variant _ list => parts lookup catalog list
  | .map list => entryParts lookup catalog list
termination_by structural content => content

/-- Each of some data as a part. -/
def parts (lookup : Lookup σ) (catalog : Catalog) : List Datum → List (Part σ)
  | [] => []
  | item :: rest =>
      (fun wanted => do datum lookup catalog item (← find lookup wanted) wanted) ::
        parts lookup catalog rest

/-- The keys and the values of some entries as parts. -/
def entryParts (lookup : Lookup σ) (catalog : Catalog) : List (Datum × Datum) → List (Part σ)
  | [] => []
  | (key, value) :: rest =>
      (fun wanted => do datum lookup catalog key (← find lookup wanted) wanted) ::
        (fun wanted => do datum lookup catalog value (← find lookup wanted) wanted) ::
          entryParts lookup catalog rest

/-- What writes each of some items of one type. -/
def writers (lookup : Lookup σ) (catalog : Catalog) :
    List Datum → Formatter → Schema → List (Encode σ Unit)
  | [], _, _ => []
  | item :: rest, formatter, type =>
      datum lookup catalog item formatter type :: writers lookup catalog rest formatter type

/-- Writes entries of one type of keys and one type of values. -/
def entries (lookup : Lookup σ) (catalog : Catalog) :
    List (Datum × Datum) → Formatter → Schema → Formatter → Schema → Encode σ Unit
  | [], _, _, _, _ => pure ()
  | (key, value) :: rest, keys, keyType, values, valueType => do
      datum lookup catalog key keys keyType
      datum lookup catalog value values valueType
      entries lookup catalog rest keys keyType values valueType

/-- Writes items of given types. -/
def tuple (lookup : Lookup σ) (catalog : Catalog) :
    List Datum → List Schema → Encode σ Unit
  | item :: rest, type :: types => do
      datum lookup catalog item (← find lookup type) type
      tuple lookup catalog rest types
  | _, _ => pure ()

/-- Writes the fields that are written, each after its key if `keyed`. -/
def fieldValues (lookup : Lookup σ) (catalog : Catalog) (keyed : Bool) :
    List Datum → List (Field Schema) → Encode σ Unit
  | value :: rest, field :: fields => do
      if !field.skip then
        if keyed then lift (Write.str field.key)
        datum lookup catalog value (← find lookup field.type) field.type
      fieldValues lookup catalog keyed rest fields
  | _, _ => pure ()

end

/-- Writes items of one type. -/
def items (lookup : Lookup σ) (catalog : Catalog) (list : List Datum) (formatter : Formatter)
    (type : Schema) : Encode σ Unit :=
  inOrder (writers lookup catalog list formatter type)

theorem items_cons (lookup : Lookup σ) (catalog : Catalog) (item : Datum) (rest : List Datum)
    (formatter : Formatter) (type : Schema) :
    items lookup catalog (item :: rest) formatter type = (do
      datum lookup catalog item formatter type
      items lookup catalog rest formatter type) :=
  rfl

theorem writers_eq_map (lookup : Lookup σ) (catalog : Catalog) (list : List Datum)
    (formatter : Formatter) (type : Schema) : writers lookup catalog list formatter type =
      list.map fun item => datum lookup catalog item formatter type := by
  induction list with
  | nil => rfl
  | cons item rest ih => rw [writers, ih, List.map_cons]

/-- A sequence is written as its items in the order of its kind. -/
theorem datum_sequence (lookup : Lookup σ) (catalog : Catalog) (kind : SequenceKind)
    (type : Schema) (list : List Datum) :
    datum lookup catalog (.list list) .builtin (.sequence kind type) = (do
      let formatter ← find lookup type
      lift (Write.arrayHeader (kind.elements list).length)
      items lookup catalog (kind.elements list) formatter type) := by
  have inner (formatter : Formatter) :
      inOrder (kind.elements (writers lookup catalog list formatter type)) =
        items lookup catalog (kind.elements list) formatter type := by
    rw [items, writers_eq_map, writers_eq_map, SequenceKind.elements_map]
  simp only [← inner, SequenceKind.length_elements]
  rfl

/-- Writes a datum of a type with the formatter that the lookup gives for the type. -/
def value (lookup : Lookup σ) (catalog : Catalog) (type : Schema) (content : Datum) :
    Encode σ Unit := do
  datum lookup catalog content (← find lookup type) type

/-- The bytes of a datum of a type, and the memory of the lookup afterwards. -/
def run (lookup : Lookup σ) (catalog : Catalog) (type : Schema) (content : Datum)
    (memory : σ) : Except Error Bytes × σ :=
  let (result, after) := Session.run (value lookup catalog type content) Writer.empty memory
  (result.map fun _ => after.state.toList, after.memory)

end MsgPack.Encode
