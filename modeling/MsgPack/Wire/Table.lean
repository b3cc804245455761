import MsgPack.Wire.Format

/-!
# The table of formats

What each way of reading makes of a format, as texts: one row of the table per format, one
column per kind of value.  A format that cannot be read as a kind is invalid there.
-/

namespace MsgPack

/-- The entry of an invalid format. -/
def invalidEntry : String := "Invalid"

/-- The entry of a length or a count. -/
def LengthForm.entry : LengthForm → String
  | .fixed mask => "Fixed(" ++ toString mask.toNat ++ ")"
  | .sized width => "Size" ++ toString width.bits

/-- The entry of an extension. -/
def ExtensionForm.entry : ExtensionForm → String
  | .fixed length => "Fixed(" ++ toString length ++ ")"
  | .sized width => "Size" ++ toString width.bits

namespace Format

/-- The entry of a format that can only be read in one way. -/
def entryIf (format : Format) (valid : Bool) : String :=
  if valid then format.name else invalidEntry

/-- The entry of a format that is read as a floating point number. -/
def floatEntry (format : Format) : String :=
  match format.float? with
  | none => invalidEntry
  | some .integer => "Integer"
  | some _ => format.name

/-- The row of a format: the name of each column and the entry there. -/
def row (format : Format) : List (String × String) :=
  let length (form : Option LengthForm) := (form.map LengthForm.entry).getD invalidEntry
  [("type", format.kind.name), ("name", format.name),
    ("integer", format.entryIf format.integer?.isSome), ("float", format.floatEntry),
    ("boolean", format.entryIf format.boolean?.isSome), ("string", length format.string?),
    ("binary", length format.binary?), ("array", length format.array?),
    ("map", length format.map?),
    ("extension", (format.extension?.map ExtensionForm.entry).getD invalidEntry)]

end Format

end MsgPack
