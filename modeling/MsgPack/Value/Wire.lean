import MsgPack.Reader.Skip
import MsgPack.Value.Basic
import MsgPack.Writer

/-!
# Values on the wire

Any value is written in its shortest form, and any well-formed input is read as a value.
Reading goes one level deeper into every array and map, so the budget of levels that the
reader has left bounds the recursion: with none left, opening the structure fails before
anything inside it is read.
-/

namespace MsgPack.Value

/-! ## Writing -/

mutual

/-- Writes a value. -/
def write : Value → Write Unit
  | nil => Write.nil
  | bool truth => Write.bool truth
  | int word => Write.int word.toInt
  | uint word => Write.int word.toNat
  | float32 bits => Write.float32 bits
  | float64 bits => Write.float64 bits
  | string text => Write.str text
  | binary bytes => Write.bin bytes
  | array items => do
      Write.arrayHeader items.length
      writeItems items
  | map entries => do
      Write.mapHeader entries.length
      writeEntries entries
  | extension typeCode payload => Write.extension typeCode payload

/-- Writes the items of an array. -/
def writeItems : List Value → Write Unit
  | [] => pure ()
  | item :: items => do
      write item
      writeItems items

/-- Writes the entries of a map. -/
def writeEntries : List (Value × Value) → Write Unit
  | [] => pure ()
  | (key, value) :: entries => do
      write key
      write value
      writeEntries entries

end

/-! ## Reading -/

/-- Reads one value, whose inner values `inner` reads. -/
def readStep (inner : Read Value) : Read Value := do
  let code ← Read.peekCode
  match (Format.ofCode code).kind with
  | .nil => do
      Read.nil
      return nil
  | .boolean => return bool (← Read.bool)
  | .integer => return ofInteger (← Read.integer)
  | .float =>
      if Format.ofCode code = .float32 then return float32 (← Read.float32)
      else return float64 (← Read.float64)
  | .string => return string (← Read.string)
  | .binary => return binary (← Read.bin).content
  | .array => do
      let count ← Read.arrayHeader
      return array (← Read.nested (Loop.times count inner))
  | .map => do
      let count ← Read.mapHeader
      let entry : Read (Value × Value) := do
        let key ← inner
        return (key, ← inner)
      return map (← Read.nested (Loop.times count entry))
  | .extension => do
      let found ← Read.extension
      return extension found.typeCode found.payload.content
  | .unknown => throw (.invalidCode code .anyValue)

/-- Reads one value, where `budget` more levels may be opened. -/
def readWithin : Nat → Read Value
  | 0 => readStep Read.tooDeep
  | budget + 1 => readStep (readWithin budget)

/-- Reads one value. -/
def read : Read Value := fun reader =>
  readWithin reader.budget reader

end MsgPack.Value
