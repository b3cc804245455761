import MsgPack.Cursor
import MsgPack.Loop

/-!
# Readers

A reader is a cursor with a count of the open arrays, maps and typeless values, and a limit
on it.  A read takes a reader to a result and to the reader after it; the reader after a
failure is what the failed read left behind, so that reading can go on from there.
-/

namespace MsgPack

/-- A position in a source, and how deep in its structure it lies. -/
structure Reader where
  cursor : Cursor
  /-- How many nested structures are open. -/
  depth : Nat
  /-- How many nested structures may be open. -/
  maxDepth : Nat

/-- A computation that reads.  It leaves a reader behind also when it fails. -/
abbrev Read := EStateM Error Reader

namespace Reader

/-- The limit of a reader that is not given one. -/
def defaultMaxDepth : Nat := 512

/-- A reader at the start of a source. -/
def ofCursor (cursor : Cursor) (maxDepth : Nat) : Reader :=
  ⟨cursor, 0, maxDepth⟩

/-- A reader at the start of one run of bytes. -/
def ofBytes (bytes : Bytes) : Reader :=
  ofCursor (.ofBytes bytes) defaultMaxDepth

/-- How many bytes have been read. -/
def position (reader : Reader) : Nat :=
  reader.cursor.consumed

/-- How many bytes are unread. -/
def remaining (reader : Reader) : Nat :=
  reader.cursor.remaining

/-- Whether all bytes have been read. -/
def isEnd (reader : Reader) : Bool :=
  reader.remaining = 0

/-- How many more structures may be opened. -/
def budget (reader : Reader) : Nat :=
  reader.maxDepth - reader.depth

end Reader

namespace Read

variable {α : Type}

/-- Looks at the source without moving. -/
def peek (look : Cursor → Except Error α) : Read α := fun reader =>
  match look reader.cursor with
  | .ok found => .ok found reader
  | .error failure => .error failure reader

/-- How many bytes have been read. -/
def position : Read Nat := fun reader =>
  .ok reader.position reader

/-- Takes something from the source.  A failing take does not move. -/
def take (step : Cursor → Except Error (α × Cursor)) : Read α := fun reader =>
  match step reader.cursor with
  | .ok (taken, next) => .ok taken { reader with cursor := next }
  | .error failure => .error failure reader

/-- Turns a check that needs no source into a read. -/
def ofExcept : Except Error α → Read α
  | .ok result => pure result
  | .error failure => throw failure

/-- Fails as a structure below the deepest allowed one does. -/
def tooDeep : Read α := fun reader =>
  .error (.depthExceeded reader.maxDepth) reader

/-- Opens a nested structure. -/
def enterNested : Read Unit := fun reader =>
  if reader.maxDepth ≤ reader.depth then .error (.depthExceeded reader.maxDepth) reader
  else .ok () { reader with depth := reader.depth + 1 }

/-- Closes a nested structure. -/
def leaveNested : Read Unit := fun reader =>
  .ok () { reader with depth := reader.depth - 1 }

/-- Reads the inside of a nested structure.  The depth afterwards is the depth before,
however the inner read ends. -/
def nested (inner : Read α) : Read α := fun reader =>
  match enterNested reader with
  | .error failure after => .error failure after
  | .ok () entered =>
      match inner entered with
      | .ok result after => .ok result { after with depth := reader.depth }
      | .error failure after => .error failure { after with depth := reader.depth }

/-- The bytes of the source between the position of a reader and the position a read takes
it to. -/
def span (skipping : Read Unit) : Read (Fetched Bytes) := fun reader =>
  match skipping reader with
  | .error failure after => .error failure after
  | .ok () after =>
      match reader.cursor.readSlice (after.cursor.consumed - reader.cursor.consumed) with
      | .ok (bytes, _) => .ok bytes after
      | .error failure => .error failure after

end Read

end MsgPack
