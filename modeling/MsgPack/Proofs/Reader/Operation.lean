import MsgPack.Formatter.Standard

/-!
# Operations on a reader

Everything that can be asked of a reader, one operation after the other, and what is seen of
each of them: its answer or its failure, and where the reader stands afterwards.  A failure
does not end a series of operations; the next one goes on where the failed one stopped.
-/

namespace MsgPack

/-- An operation on a reader. -/
inductive Operation where
  | peekCode
  | peekKind
  | peekName
  | peekIsNil
  | isEnd
  | nil
  | tryNil
  | bool
  | integer
  /-- An integer of a range. -/
  | int (range : IntRange)
  /-- An integer that has the width of an address. -/
  | size (range : IntRange)
  | float32
  | float64
  | char
  | strHeader
  | str
  | string
  | binHeader
  | bin
  | arrayHeader
  | mapHeader
  | extensionHeader
  | peekExtensionHeader
  | extensionHeaderWith (typeCode : Int8)
  | extension
  | timestamp
  | dateTimeOffset
  /-- Bytes into an array of their number. -/
  | fixed (count : Nat)
  | rawBytes (count : Nat)
  | skipToken
  | skip
  | raw
  | enterNested
  | leaveNested
  /-- A value of any shape. -/
  | value
  /-- A value of a type. -/
  | datum (catalog : Catalog) (type : Schema)

/-- What an operation answers when it does not fail. -/
inductive Answer where
  | done
  | truth (truth : Bool)
  | code (code : UInt8)
  | kind (kind : Kind)
  | name (name : String)
  | integer (integer : Integer)
  | number (number : Int)
  | float32 (bits : UInt32)
  | float64 (bits : UInt64)
  | char (character : Char)
  | length (length : Nat)
  | text (text : Fetched String)
  | bytes (bytes : Fetched Bytes)
  | header (header : Read.ExtensionHeader)
  | extension (extension : Read.Extension)
  | timestamp (timestamp : Timestamp)
  | dateTimeOffset (timestamp : Timestamp) (minutes : Int16)
  | value (value : Value)
  | datum (datum : Datum)

/-- A result that is a copy. -/
def Fetched.owned {α : Type} (fetched : Fetched α) : Fetched α :=
  { fetched with borrowed := false }

/-- The answer that copies whatever another answer borrows. -/
def Answer.owned : Answer → Answer
  | text fetched => text fetched.owned
  | bytes fetched => bytes fetched.owned
  | extension found => extension { found with payload := found.payload.owned }
  | answer => answer

/-- Performs an operation. -/
def Operation.perform : Operation → Read Answer
  | peekCode => return .code (← Read.peekCode)
  | peekKind => return .kind (← Read.peekKind)
  | peekName => return .name (← Read.peekFormat).name
  | peekIsNil => return .truth (← Read.peekIsNil)
  | isEnd => fun reader => .ok (.truth reader.isEnd) reader
  | nil => do
      Read.nil
      return .done
  | tryNil => return .truth (← Read.tryNil)
  | bool => return .truth (← Read.bool)
  | integer => return .integer (← Read.integer)
  | int range => return .number (← Read.int range)
  | size range => return .number (← Read.size range)
  | float32 => return .float32 (← Read.float32)
  | float64 => return .float64 (← Read.float64)
  | char => return .char (← Read.char)
  | strHeader => return .length (← Read.strHeader)
  | str => return .text (← Read.str)
  | string => return .text ⟨← Read.string, false⟩
  | binHeader => return .length (← Read.binHeader)
  | bin => return .bytes (← Read.bin)
  | arrayHeader => return .length (← Read.arrayHeader)
  | mapHeader => return .length (← Read.mapHeader)
  | extensionHeader => return .header (← Read.extensionHeader)
  | peekExtensionHeader => return .header (← Read.peekExtensionHeader)
  | extensionHeaderWith typeCode => return .header (← Read.extensionHeaderWith typeCode)
  | extension => return .extension (← Read.extension)
  | timestamp => return .timestamp (← Read.timestamp)
  | dateTimeOffset => do
      let found ← Read.dateTimeOffset
      return .dateTimeOffset found.1 found.2
  | fixed count => return .bytes ⟨← Read.fixed count, false⟩
  | rawBytes count => return .bytes (← Read.rawBytes count)
  | skipToken => do
      let _ ← Read.token
      return .done
  | skip => do
      Read.skip
      return .done
  | raw => return .bytes (← Read.raw)
  | enterNested => do
      Read.enterNested
      return .done
  | leaveNested => do
      Read.leaveNested
      return .done
  | value => return .value (← Value.read)
  | datum catalog type => return .datum (← Read.datum catalog type)

/-! ## Series of operations -/

/-- What is seen of one operation. -/
structure Step where
  outcome : Except Error Answer
  position : Nat
  remaining : Nat
  depth : Nat

/-- The step that copies whatever another one borrows. -/
def Step.owned (step : Step) : Step :=
  { step with outcome := step.outcome.map Answer.owned }

/-- What is seen of an outcome. -/
def Step.ofOutcome : EStateM.Result Error Reader Answer → Step
  | .ok answer after => ⟨.ok answer, after.position, after.remaining, after.depth⟩
  | .error failure after => ⟨.error failure, after.position, after.remaining, after.depth⟩

/-- The reader that an outcome leaves behind. -/
def readerAfter {α : Type} : EStateM.Result Error Reader α → Reader
  | .ok _ after => after
  | .error _ after => after

/-- Converting a result leaves the reader where it is. -/
theorem readerAfter_mapped {α β : Type} (read : Read α) (convert : α → β) (reader : Reader) :
    readerAfter ((do return convert (← read) : Read β) reader) = readerAfter (read reader) := by
  simp only [bind, EStateM.bind]
  cases read reader <;> rfl

/-- What is seen of operations on one reader, one after the other. -/
def trace : List Operation → Reader → List Step
  | [], _ => []
  | operation :: operations, reader =>
      let outcome := operation.perform reader
      .ofOutcome outcome :: trace operations (readerAfter outcome)

end MsgPack
