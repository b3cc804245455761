import MsgPack.Derive.Program
import MsgPack.Formatter.Decode
import MsgPack.Formatter.Encode

/-!
# What the programs of a formatter do

The statements of a program run one after the other.  While fields are read, a *frame* holds the
count of the structure and the slots of the fields.  A statement that fails ends the program.

The types of the fields are source text; `type` says what the text stands for.
-/

namespace MsgPack.Derive

open Session

variable {σ : Type}

/-! ## Reading -/

/-- What a program that reads remembers. -/
structure Frame where
  count : Nat
  slots : Nat → Option Datum

namespace Frame

/-- The frame before anything is read. -/
def start : Frame :=
  ⟨0, fun _ => none⟩

/-- Puts a value into a slot, or empties it. -/
def assign (frame : Frame) (place : Nat) (value : Option Datum) : Frame :=
  { frame with slots := fun other => if other = place then value else frame.slots other }

end Frame

section Reading

variable (lookup : Lookup σ) (inner : Formatter → Schema → Decode σ Datum) (type : Code → Schema)

/-- Reads a value into its slot. -/
def Target.run (target : Target) (frame : Frame) : Decode σ Frame := do
  return frame.assign target.place (some (← Decode.found lookup inner (type target.type)))

/-- Reads an entry of a map. -/
def runEntry (arms : List (String × Target)) (frame : Frame) : Decode σ Frame := do
  let key ← lift Read.string
  match arms.find? fun arm => arm.1 = key with
  | some arm => arm.2.run lookup inner type frame
  | none => do
      lift Read.skip
      return frame

/-- Takes a step again and again. -/
def repeated (step : Frame → Decode σ Frame) : Nat → Frame → Decode σ Frame
  | 0, frame => return frame
  | count + 1, frame => do repeated step count (← step frame)

/-- Runs a statement inside a structure. -/
def InnerStatement.run (frame : Frame) : InnerStatement → Decode σ Frame
  | .item before target =>
      if before < frame.count then target.run lookup inner type frame else return frame
  | .skipFrom before => do
      lift (Loop.discard Read.skip (frame.count - before))
      return frame
  | .entries arms => repeated (runEntry lookup inner type arms) frame.count frame

/-- Runs a statement. -/
def ReadStatement.run (frame : Frame) : ReadStatement → Decode σ Frame
  | .arrayCount => do return { frame with count := ← lift Read.arrayHeader }
  | .mapCount => do return { frame with count := ← lift Read.mapHeader }
  | .expectCount typeName expected =>
      if frame.count = expected then return frame
      else throw (.countMismatch typeName expected frame.count)
  | .declare target => return frame.assign target.place none
  | .nested body => Decode.nested (body.foldlM (InnerStatement.run lookup inner type) frame)

variable (catalog : Catalog)

/-- The value of a field. -/
def FieldValue.eval (frame : Frame) : FieldValue → Except Error Datum
  | .initial origin => .ok ((type origin).initial catalog.initial)
  | .orInitial target =>
      .ok ((frame.slots target.place).getD ((type target.type).initial catalog.initial))
  | .required place key typeName =>
      match frame.slots place with
      | some value => .ok value
      | none => .error (.missingField key typeName)

/-- Reads fields: all statements first, and then the values. -/
def FieldReading.run (reading : FieldReading) : Decode σ (List Datum) := do
  let frame ← reading.statements.foldlM (ReadStatement.run lookup inner type) .start
  lift (Read.ofExcept (reading.values.mapM fun member => member.2.eval type catalog frame))

/-- Runs a program that reads a type of a name. -/
def ReadProgram.run (name : String) : ReadProgram → Decode σ Datum
  | .unit => do
      lift Read.nil
      return .record []
  | .record reading => return .record (← reading.run lookup inner type catalog)
  | .byIndex arms => do
      let index := (← lift (Read.int .u32)).toNat
      match arms.find? fun arm => arm.1 = index with
      | some arm => return .variant arm.2.index []
      | none => throw (.invalidValue (.variantIndex index name))
  | .byName arms => do
      let chosen ← lift Read.string
      match arms.find? fun arm => arm.1 = chosen with
      | some arm => return .variant arm.2.index []
      | none => throw (.invalidValue (.variantName chosen name))
  | .tagged arms => do
      let count ← lift Read.arrayHeader
      if count = 2 then
        Decode.nested do
          let index := (← lift (Read.int .u32)).toNat
          match arms.find? fun arm => arm.1 = index with
          | some (_, variant, none) => do
              lift Read.nil
              return .variant variant.index []
          | some (_, variant, some reading) =>
              return .variant variant.index (← reading.run lookup inner type catalog)
          | none => throw (.invalidValue (.variantIndex index name))
      else throw (.countMismatch name 2 count)

end Reading

/-! ## Writing -/

/-- The place of the field whose value is found. -/
def Access.place : Access → Nat
  | member _ place | binding place => place

section Writing

variable (lookup : Lookup σ) (catalog : Catalog) (type : Code → Schema)

/-- Runs a statement, where there are the values of all fields. -/
def WriteStatement.run (values : List Datum) : WriteStatement → Encode σ Unit
  | .arrayHeader count => lift (Write.arrayHeader count)
  | .mapHeader count => lift (Write.mapHeader count)
  | .key content => lift (Write.str content)
  | .value origin access =>
      match values[access.place]? with
      | some held => Encode.value lookup catalog (type origin) held
      | none => Encode.anotherType (type origin)

/-- Runs a program that writes a value of a type of a name.  The arm of a variant is the first one
for it. -/
def WriteProgram.run (name : String) : WriteProgram → Datum → Encode σ Unit
  | .unit, .record _ => lift Write.nil
  | .record statements, .record values =>
      forM statements (WriteStatement.run lookup catalog type values)
  | .byIndex arms, .variant index _ =>
      match arms.find? fun arm => arm.1.index = index with
      | some arm => lift (Write.int arm.2)
      | none => Encode.anotherType (.named name)
  | .byName arms, .variant index _ =>
      match arms.find? fun arm => arm.1.index = index with
      | some arm => lift (Write.str arm.2)
      | none => Encode.anotherType (.named name)
  | .tagged arms, .variant index values => do
      lift (Write.arrayHeader 2)
      match arms.find? fun arm => arm.1.index = index with
      | some (_, number, none) => do
          lift (Write.int number)
          lift Write.nil
      | some (_, number, some payload) => do
          lift (Write.int number)
          forM payload.statements (WriteStatement.run lookup catalog type values)
      | none => Encode.anotherType (.named name)
  | _, _ => Encode.anotherType (.named name)

end Writing

end MsgPack.Derive
