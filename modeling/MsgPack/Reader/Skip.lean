import MsgPack.Reader.Scalar

/-!
# Skipping values

A token is what one code announces: a whole value, but of an array or a map the header
alone.  Skipping a value skips its token and then every value inside it, one level deeper.
The raw bytes of a value are the bytes that skipping it passes over.
-/

namespace MsgPack.Read

/-- Skips one token.  The result is how many values the header of an array or a map
announces; any other token is a whole value. -/
def token : Read (Option Nat) := do
  let code ← peekCode
  match (Format.ofCode code).kind with
  | .integer => do
      let _ ← integer
      return none
  | .nil => do
      nil
      return none
  | .boolean => do
      let _ ← bool
      return none
  | .float => do
      let _ ← float64
      return none
  | .string => do
      advance (← strHeader)
      return none
  | .binary => do
      advance (← binHeader)
      return none
  | .extension => do
      advance (← extensionHeader).length
      return none
  | .array => return some (← arrayHeader)
  | .map => return some ((← mapHeader) * 2)
  | .unknown => throw (.invalidCode code .anyValue)

/-- Skips one value, whose inner values `inner` skips. -/
def skipStep (inner : Read Unit) : Read Unit := do
  match ← token with
  | none => pure ()
  | some count => nested (Loop.discard inner count)

/-- Skips one value with everything inside it, where `budget` more levels may be opened. -/
def skipWithin : Nat → Read Unit
  | 0 => skipStep tooDeep
  | budget + 1 => skipStep (skipWithin budget)

/-- Skips one value with everything inside it. -/
def skip : Read Unit := fun reader =>
  skipWithin reader.budget reader

/-- Reads the bytes of one value. -/
def raw : Read (Fetched Bytes) :=
  span skip

end MsgPack.Read
