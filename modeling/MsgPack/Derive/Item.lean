import MsgPack.Derive.Attribute
import MsgPack.Schema.Layout

/-!
# Items and their layouts

An item declares a type: a record, a choice of variants, or a union.  Its layout follows from
its shape and its options; the types of the fields stay as they are written.  An item that
has no layout is refused with the first reason that is found: its parameters are looked at
first, then its own options, and then its body from the outside in.
-/

namespace MsgPack.Derive

/-! ## Items -/

/-- The type of a field, and its attributes. -/
structure FieldItem where
  type : Code
  attributes : List Attribute

/-- The fields of a record or a variant. -/
inductive FieldItems where
  | unit
  | named (fields : List (String × FieldItem))
  | tuple (fields : List FieldItem)

/-- A variant. -/
structure VariantItem where
  identifier : String
  attributes : List Attribute
  fields : FieldItems

/-- What an item declares. -/
inductive Body where
  | record (fields : FieldItems)
  | choice (variants : List VariantItem)
  | union

/-- A parameter of an item. -/
inductive Parameter where
  | type (name : String) (bounds : List Code)
  | lifetime (name : String)
  | const (name : String) (type : Code)

/-- An item. -/
structure Item where
  name : String
  attributes : List Attribute
  parameters : List Parameter
  /-- The conditions on the parameters. -/
  conditions : Code
  body : Body

namespace FieldItems

/-- Whether there is no list of fields at all. -/
def isUnit : FieldItems → Bool
  | unit => true
  | _ => false

/-- Whether the fields are numbered. -/
def isTuple : FieldItems → Bool
  | tuple _ => true
  | _ => false

/-- The fields with their members: identifiers, or numbers. -/
def members : FieldItems → List (String × FieldItem)
  | unit => []
  | named fields => fields
  | tuple fields => fields.zipIdx.map fun numbered => (toString numbered.2, numbered.1)

end FieldItems

/-! ## Optional types -/

/-- The words that begin a type which is no path. -/
def nonPathWords : List String :=
  ["_", "dyn", "extern", "fn", "for", "impl", "unsafe"]

/-- The tokens outside all delimiters, where `depth` of these are open. -/
def outsideDelimiters : Nat → Code → Code
  | _, [] => []
  | depth, token :: rest =>
      if token.opens then outsideDelimiters (depth + 1) rest
      else if token.closes then outsideDelimiters (depth - 1) rest
      else if depth = 0 then token :: outsideDelimiters depth rest
      else outsideDelimiters depth rest

/-- The tokens outside all angle brackets, where `depth` of these are open.  The end of an
arrow closes nothing. -/
def outsideAngles : Nat → Code → Code
  | _, [] => []
  | 0, .mark '-' :: .mark '>' :: rest => .mark '-' :: .mark '>' :: outsideAngles 0 rest
  | depth + 1, .mark '-' :: .mark '>' :: rest => outsideAngles (depth + 1) rest
  | depth, token :: rest =>
      if token = .mark '<' then outsideAngles (depth + 1) rest
      else if token = .mark '>' then outsideAngles (depth - 1) rest
      else if depth = 0 then token :: outsideAngles depth rest
      else outsideAngles depth rest

/-- Whether a token may stand in a path outside its arguments. -/
def isPathToken : Token → Bool
  | .word _ => true
  | token => token = .mark ':'

/-- Whether a type is a path whose last segment is `Option`. -/
def isOptional (type : Code) : Bool :=
  let path := (outsideAngles 0 (outsideDelimiters 0 type)).takeWhile (· ≠ .mark '-')
  let special := nonPathWords.any fun word => path.head? = some (.word word)
  let segments := path.filter (· ≠ .mark ':')
  path.all isPathToken && !special && segments.getLast? = some (.word "Option")

/-! ## Layouts -/

/-- A field with its options. -/
def FieldItem.field (item : String × FieldItem) : Except CompileError (Field Code) := do
  let settings ← Attribute.allSettings .field item.2.attributes
  return {
    member := item.1
    key := (Setting.renamed? settings).getD item.1
    type := item.2.type
    skip := .skip ∈ settings
    lenient := .lenient ∈ settings || isOptional item.2.type }

/-- The fields of a record or a variant with their options. -/
def FieldItems.fields (items : FieldItems) : Except CompileError (List (Field Code)) :=
  items.members.mapM FieldItem.field

/-- The layout of a record. -/
def recordLayout (settings : List Setting) (items : FieldItems) :
    Except CompileError (Layout Code) := do
  if .asString ∈ settings then throw .namesOfVariants
  if items.isUnit then
    if .map ∈ settings then throw .mapWithoutNames
    return .unit
  let fields ← items.fields
  if .map ∈ settings then
    if items.isTuple then throw .mapWithoutNames
    return .map fields
  return .array fields

/-- The name of a variant. -/
def VariantItem.name (item : VariantItem) : Except CompileError String := do
  let settings ← Attribute.allSettings .field item.attributes
  if .skip ∈ settings || .lenient ∈ settings then throw .variantOption
  return (Setting.renamed? settings).getD item.identifier

/-- A variant with its fields, given its name. -/
def VariantItem.variant (named : VariantItem × String) : Except CompileError (Variant Code) := do
  if named.1.fields.isUnit then return ⟨named.1.identifier, named.2, none⟩
  return ⟨named.1.identifier, named.2, some (← named.1.fields.fields)⟩

/-- The layout of a choice of variants. -/
def choiceLayout (settings : List Setting) (items : List VariantItem) :
    Except CompileError (Layout Code) := do
  if .map ∈ settings then throw .mapOfVariants
  if items.isEmpty then throw .noVariants
  let names ← items.mapM VariantItem.name
  let unitOnly := items.all fun item => item.fields.isUnit
  if .asString ∈ settings ∧ ¬unitOnly then throw .namesOfVariants
  let variants ← (items.zip names).mapM VariantItem.variant
  if .asString ∈ settings then return .byName variants
  if unitOnly then return .byIndex variants
  return .tagged variants

/-- Whether a parameter is a lifetime. -/
def Parameter.isLifetime : Parameter → Bool
  | lifetime _ => true
  | _ => false

/-- The type that an item defines, with its layout. -/
def Item.definition (item : Item) : Except CompileError (Definition Code) := do
  if item.parameters.any Parameter.isLifetime then throw .lifetimeParameter
  let settings ← Attribute.allSettings .container item.attributes
  let layout ← match item.body with
    | .record fields => recordLayout settings fields
    | .choice variants => choiceLayout settings variants
    | .union => throw .union
  return ⟨item.name, layout⟩

end MsgPack.Derive
