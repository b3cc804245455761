import MsgPack.Datum.Scalar

/-!
# Scripts

Of a formatter that somebody else supplies nothing is known but what it does: steps of its own
on a reader or a writer, and requests to have the values of other types read or written for it.
A *script* is all that it may do, as a tree.  A step gives its result as a datum, of whatever
shape suits what comes next; an error, of a step or of a request, ends the script.
-/

namespace MsgPack

/-- What is done in steps on a state of type `ρ` and in requests, until there is a result. -/
inductive Script (ρ request answer α : Type) where
  | done (result : α)
  | fail (failure : Error)
  | step (action : EStateM Error ρ Datum) (next : Datum → Script ρ request answer α)
  | ask (wanted : request) (next : answer → Script ρ request answer α)

/-- A script that reads.  A request names a type, and the answer is a value of it. -/
abbrev ReadScript (α : Type) := Script Reader Schema Datum α

/-- A script that writes. -/
abbrev WriteScript (request : Type) := Script Writer request Unit Unit

/-! ## Typeless values -/

/-- What is done with the values of a registered type.  To write one is to write it, or the part
of it with some number, as a value of some type. -/
structure TypelessDelegates where
  /-- Writes a value of some type. -/
  write : Schema → Datum → WriteScript (Option Nat × Schema)
  /-- Reads a value and says of what type it is. -/
  read : ReadScript (Schema × Datum)

/-- Leaves everything to the formatter of a type, and writes values of no other type. -/
def TypelessDelegates.of (type : Schema) : TypelessDelegates where
  write held _ :=
    if held = type then .ask (none, type) .done
    else .fail (.unwritable (.anotherType type.typeName))
  read := .ask type fun content => .done (type, content)

end MsgPack
