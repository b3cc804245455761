import MsgPack.Datum.Basic
import MsgPack.Formatter.TypeRegistry
import MsgPack.Value.Text

/-!
# Detailed texts

The texts by which types, formatters and typeless values show themselves in detailed
reports.  A formatter shows the type it is for; a typeless value shows its content only if
that is a value of any shape.
-/

namespace MsgPack

/-- A type as what a lookup is asked for. -/
def Schema.keyText (type : Schema) : String :=
  "TypeKey(" ++ Quoted.quote type.typeName ++ ")"

/-- The formatter for a type. -/
def Schema.formatterText (type : Schema) : String :=
  "ErasedFormatter \x7b type_name: " ++ Quoted.quote type.typeName ++ " \x7d"

/-- A registered type. -/
def TypeHandle.detailed (handle : TypeHandle) : String :=
  "TypeHandle \x7b name: " ++ Quoted.quote handle.name ++ ", type_name: "
    ++ Quoted.quote handle.type.typeName ++ " \x7d"

/-- A typeless value. -/
def Datum.typelessText : Datum → String
  | .typeless _ (.atom (.value content)) => "Typeless(" ++ content.detailed ++ ")"
  | _ => "Typeless(TypeId)"

end MsgPack
