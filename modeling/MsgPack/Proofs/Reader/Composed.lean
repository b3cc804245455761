import MsgPack.Value.Wire

/-!
# Reads as compositions

All reads are put together from a few elementary ones: looking at the next code, moving over
bytes, checking how many are left, opening a nested structure, and looking at something
without moving.  `Composed` names the reads that arise in this way.  What holds of the
elementary reads and is kept by composition then holds of every read by one induction.

Some failures speak of the place where the reader stands: of the code that is next, or of how
many bytes are left.  Such a failure does not arise just anywhere.  A code is refused right
after the look at it, and bytes are missed only by the elementary reads that want them.

An elementary read does not tell whether its bytes are borrowed: what a slice holds is what
an array of its length holds.  A read that does tell is composed once that is left out of its
result.
-/

namespace MsgPack

/-- Whether a failure says nothing about the place where the reader stands, nor about how deep
it is. -/
def Error.Placeless : Error → Prop
  | .invalidCode _ _ | .insufficientData _ _ | .depthExceeded _ => False
  | _ => True

/-- Whether a check that needs no reader fails at most with such a failure. -/
def Placeless {α : Type} (result : Except Error α) : Prop :=
  ∀ ⦃failure : Error⦄, result = .error failure → failure.Placeless

namespace Placeless

variable {α β : Type}

theorem ok (result : α) : Placeless (.ok result) :=
  fun _ error => nomatch error

theorem error {failure : Error} (placeless : failure.Placeless) :
    Placeless (.error failure : Except Error α) := by
  intro other same
  cases same
  exact placeless

theorem bind {first : Except Error α} {next : α → Except Error β} (head : Placeless first)
    (tail : ∀ found, Placeless (next found)) : Placeless (first >>= next) := by
  cases first with
  | ok found => exact tail found
  | error failure => exact .error (head rfl)

end Placeless

namespace Read

/-- Reads something and goes back. -/
def lookAhead {α : Type} (read : Read α) : Read α := fun reader =>
  match read reader with
  | .ok result _ => .ok result reader
  | .error failure _ => .error failure reader

/-- Reads with the budget of levels that the reader has. -/
def withBudget {α : Type} (read : Nat → Read α) : Read α := fun reader =>
  read reader.budget reader

/-- A read after the look at a code refuses the code. -/
def Refuses {α : Type} (code : UInt8) (read : Read α) : Prop :=
  ∃ expected, read = throw (.invalidCode code expected)

/-- A read stays where it is when it fails. -/
def FailsInPlace {α : Type} (read : Read α) : Prop :=
  ∀ ⦃reader after : Reader⦄ ⦃failure : Error⦄, read reader = .error failure after → after = reader

/-- The reads that are composed of elementary ones.  Only `deep` ones open nested structures
and ask how many more of them may be opened.  A `ready` one may take for granted that a byte is
next: only what follows at once on a look at the next code moves over it unasked. -/
inductive Composed : (deep ready : Bool) → {α : Type} → Read α → Prop where
  | pure {deep ready : Bool} {α : Type} (result : α) : Composed deep ready (pure result)
  | throw {deep ready : Bool} {α : Type} {failure : Error} (placeless : failure.Placeless) :
      Composed deep ready (throw failure : Read α)
  | bind {deep ready : Bool} {α β : Type} {first : Read α} {next : α → Read β}
      (head : Composed deep ready first) (tail : ∀ result, Composed deep false (next result)) :
      Composed deep ready (first >>= next)
  | peekThen {deep ready : Bool} {α : Type} {next : UInt8 → Read α}
      (taken : ∀ code, ¬ Refuses code (next code) → Composed deep true (next code)) :
      Composed deep ready (peekCode >>= next)
  | skipByte {deep : Bool} : Composed deep true skipByte
  | advance {deep ready : Bool} (count : Nat) : Composed deep ready (advance count)
  | fixed {deep ready : Bool} (count : Nat) : Composed deep ready (fixed count)
  | ensure {deep ready : Bool} (needed : Nat) : Composed deep ready (ensure needed)
  | position {deep ready : Bool} : Composed deep ready position
  | lookAhead {deep ready : Bool} {α : Type} {read : Read α} (ahead : Composed deep ready read)
      (still : FailsInPlace read) : Composed deep ready (lookAhead read)
  | tooDeep {ready : Bool} {α : Type} : Composed true ready (tooDeep : Read α)
  | nested {ready : Bool} {α : Type} {inner : Read α} (inside : Composed true ready inner) :
      Composed true ready (nested inner)
  | withBudget {ready : Bool} {α : Type} {read : Nat → Read α}
      (within : ∀ budget, Composed true ready (read budget)) :
      Composed true ready (withBudget read)
  | span {ready : Bool} {skipping : Read Unit} (inside : Composed true ready skipping) :
      Composed true ready (return (← span skipping).content)

/-! ## Failures in place -/

theorem failsInPlace_throw {α : Type} (failure : Error) :
    FailsInPlace (throw failure : Read α) := by
  intro reader after _ error
  cases error
  rfl

/-- Looking at a code does not move, so what follows the look decides. -/
theorem failsInPlace_peekThen {α : Type} {next : UInt8 → Read α}
    (each : ∀ code, FailsInPlace (next code)) : FailsInPlace (peekCode >>= next) := by
  intro reader after failure error
  simp only [bind, EStateM.bind, peekCode, peek] at error
  cases look : reader.cursor.peekByte with
  | ok code =>
      rw [look] at error
      exact each code error
  | error missing =>
      rw [look] at error
      cases error
      rfl

/-- Bytes that are read at once are read or left. -/
theorem failsInPlace_fixed {α : Type} (count : Nat) (convert : Bytes → α) :
    FailsInPlace (return convert (← fixed count)) := by
  intro reader after failure error
  simp only [bind, EStateM.bind, fixed, take] at error
  cases taken : reader.cursor.readArray count with
  | ok found =>
      rw [taken] at error
      cases error
  | error missing =>
      rw [taken] at error
      cases error
      rfl

namespace Composed

variable {α β : Type} {deep ready : Bool}

/-! ## Closure -/

theorem ite {condition : Prop} [Decidable condition] {yes no : Read α}
    (first : Composed deep ready yes) (second : Composed deep ready no) :
    Composed deep ready (if condition then yes else no) := by
  split
  · exact first
  · exact second

/-- A read that opens nothing is one that may open structures. -/
theorem deeper {read : Read α} (composed : Composed deep ready read) :
    Composed true ready read := by
  induction composed with
  | pure result => exact pure result
  | throw placeless => exact throw placeless
  | bind _ _ head tail => exact bind head tail
  | peekThen _ taken => exact peekThen taken
  | skipByte => exact skipByte
  | advance count => exact advance count
  | fixed count => exact fixed count
  | ensure needed => exact ensure needed
  | position => exact position
  | lookAhead _ still ahead => exact lookAhead ahead still
  | tooDeep => exact tooDeep
  | nested inside _ => exact nested inside
  | withBudget within _ => exact withBudget within
  | span inside _ => exact span inside

/-- A look at the next code, which may be refused. -/
theorem peek {next : UInt8 → Read α}
    (each : ∀ code, Composed deep true (next code) ∨ Refuses code (next code)) :
    Composed deep ready (Read.peekCode >>= next) :=
  peekThen fun code taken => (each code).resolve_right taken

theorem peekCode : Composed deep ready Read.peekCode := by
  rw [← bind_pure Read.peekCode]
  exact peek fun code => .inl (pure code)

/-- A read with a converted result. -/
theorem mapped {read : Read α} (composed : Composed deep ready read) (convert : α → β) :
    Composed deep ready (return convert (← read)) :=
  composed.bind fun result => pure (convert result)

theorem ofExcept {result : Except Error α} (placeless : Placeless result) :
    Composed deep ready (ofExcept result) := by
  cases result with
  | ok result => exact pure result
  | error failure => exact throw (placeless rfl)

theorem times {item : Read α} (composed : Composed deep false item) (count : Nat) :
    Composed deep false (Loop.times count item) := by
  induction count with
  | zero => exact pure []
  | succ count ih =>
      rw [Loop.times_succ]
      exact composed.bind fun next => ih.bind fun rest => pure (next :: rest)

theorem discard {item : Read Unit} (composed : Composed deep false item) (count : Nat) :
    Composed deep false (Loop.discard item count) := by
  induction count with
  | zero => exact pure ()
  | succ count ih => exact composed.bind fun _ => ih

end Composed

variable {deep ready : Bool}

/-! ## Inspection, nil and truth values -/

theorem composed_peekFormat : Composed deep ready peekFormat :=
  Composed.peekCode.mapped Format.ofCode

theorem composed_peekKind : Composed deep ready peekKind :=
  composed_peekFormat.mapped Format.kind

theorem composed_peekIsNil : Composed deep ready peekIsNil :=
  composed_peekFormat.mapped fun format => decide (format = .nil)

theorem composed_nil : Composed deep ready nil := by
  apply Composed.peek
  intro code
  split
  · exact .inl .skipByte
  · exact .inr ⟨_, rfl⟩

theorem composed_tryNil : Composed deep ready tryNil := by
  simp only [tryNil, peekIsNil, peekFormat, bind_assoc, pure_bind]
  apply Composed.peek
  intro code
  exact .inl ((Composed.skipByte.bind fun _ => .pure true).ite (.pure false))

theorem composed_bool : Composed deep ready bool := by
  apply Composed.peek
  intro code
  split
  · exact .inl (Composed.skipByte.bind fun _ => .pure _)
  · exact .inr ⟨_, rfl⟩

/-! ## Numbers -/

theorem composed_suffix (width : Width) : Composed deep true (suffix width) := by
  cases width with
  | one => exact (Composed.fixed _).mapped List.tail
  | two => exact (Composed.fixed _).mapped List.tail
  | four => exact (Composed.fixed _).mapped List.tail
  | eight => exact Composed.skipByte.bind fun _ => .fixed 8

theorem composed_integerOf (code : UInt8) (form : IntegerForm) :
    Composed deep true (integerOf code form) := by
  cases form with
  | positiveFix => exact Composed.skipByte.bind fun _ => .pure _
  | negativeFix => exact Composed.skipByte.bind fun _ => .pure _
  | unsigned width => exact (composed_suffix width).mapped _
  | signed width => exact (composed_suffix width).mapped _

theorem composed_integerAs (expected : Expected) : Composed deep ready (integerAs expected) := by
  apply Composed.peek
  intro code
  split
  · exact .inl (composed_integerOf code _)
  · exact .inr ⟨_, rfl⟩

theorem composed_integer : Composed deep ready integer :=
  composed_integerAs .integer

theorem composed_fit (integer : Integer) (range : IntRange) :
    Composed deep ready (fit integer range) := by
  unfold fit
  split
  · exact .pure _
  · exact .throw trivial

theorem composed_int (range : IntRange) : Composed deep ready (int range) :=
  (composed_integerAs (.range range)).bind fun integer => composed_fit integer range

theorem composed_size (range : IntRange) : Composed deep ready (size range) :=
  composed_integer.bind fun integer => composed_fit integer range

theorem composed_float32 : Composed deep ready float32 := by
  apply Composed.peek
  intro code
  split
  · exact .inl ((composed_suffix .four).mapped _)
  · exact .inl ((composed_suffix .eight).mapped _)
  · exact .inl (composed_integer.mapped _)
  · exact .inr ⟨_, rfl⟩

theorem composed_float64 : Composed deep ready float64 := by
  apply Composed.peek
  intro code
  split
  · exact .inl ((composed_suffix .four).mapped _)
  · exact .inl ((composed_suffix .eight).mapped _)
  · exact .inl (composed_integer.mapped _)
  · exact .inr ⟨_, rfl⟩

/-! ## Headers -/

theorem composed_lengthOf (code : UInt8) (form : LengthForm) :
    Composed deep true (lengthOf code form) := by
  cases form with
  | fixed mask => exact Composed.skipByte.bind fun _ => .pure _
  | sized width => exact (composed_suffix width).mapped _

theorem composed_lengthAs (form? : Format → Option LengthForm) (expected : Expected) :
    Composed deep ready (lengthAs form? expected) := by
  apply Composed.peek
  intro code
  split
  · exact .inl (composed_lengthOf code _)
  · exact .inr ⟨_, rfl⟩

theorem composed_strHeader : Composed deep ready strHeader :=
  composed_lengthAs Format.string? .str

theorem composed_binHeader : Composed deep ready binHeader :=
  composed_lengthAs Format.binary? .bin

theorem composed_arrayHeader : Composed deep ready arrayHeader :=
  (composed_lengthAs Format.array? .array).bind fun count =>
    (Composed.ensure count).bind fun _ => .pure count

theorem composed_mapHeader : Composed deep ready mapHeader :=
  (composed_lengthAs Format.map? .map).bind fun count =>
    (Composed.ensure (count * 2)).bind fun _ => .pure count

theorem composed_extensionHeaderOf (form : ExtensionForm) :
    Composed deep ready (extensionHeaderOf form) := by
  cases form with
  | fixed length => exact (Composed.fixed _).mapped _
  | sized width => exact (Composed.fixed _).mapped _

theorem composed_extensionHeader : Composed deep ready extensionHeader := by
  apply Composed.peek
  intro code
  split
  · exact .inl (composed_extensionHeaderOf _)
  · exact .inr ⟨_, rfl⟩

/-- The header of an extension is read at once after its code, or not at all. -/
theorem failsInPlace_extensionHeader : FailsInPlace extensionHeader := by
  apply failsInPlace_peekThen
  intro code
  split
  · rename_i form _
    cases form with
    | fixed length => exact failsInPlace_fixed _ _
    | sized width => exact failsInPlace_fixed _ _
  · exact failsInPlace_throw _

theorem composed_peekExtensionHeader : Composed deep ready peekExtensionHeader := by
  have ahead : peekExtensionHeader = lookAhead extensionHeader := by
    funext reader
    simp only [peekExtensionHeader, lookAhead]
    cases extensionHeader reader <;> rfl
  rw [ahead]
  exact composed_extensionHeader.lookAhead failsInPlace_extensionHeader

theorem composed_extensionHeaderWith (expected : Int8) :
    Composed deep ready (extensionHeaderWith expected) :=
  composed_extensionHeader.bind fun header =>
    (Composed.pure header).ite (.throw trivial)

/-! ## Strings, binary data and extensions -/

/-- A slice holds what an array of its length holds. -/
theorem rawBytes_content (count : Nat) :
    (do return (← rawBytes count).content) = fixed count := by
  funext reader
  simp only [bind, EStateM.bind, rawBytes, fixed, take, Cursor.readSlice_eq, Cursor.readArray_eq]
  cases reader.cursor.peekInto count with
  | error failure => rfl
  | ok bytes =>
      simp only [Except.bind]
      cases reader.cursor.advance count <;> rfl

/-- Where it does not matter whether a slice is borrowed, it may be read as an array. -/
theorem rawBytesThen_eq (count : Nat) {α : Type} {next : Fetched Bytes → Read α}
    (blind : ∀ bytes, next ⟨bytes, true⟩ = next ⟨bytes, false⟩) :
    rawBytes count >>= next = fixed count >>= fun bytes => next ⟨bytes, false⟩ := by
  have forget (bytes : Fetched Bytes) : next bytes = next ⟨bytes.content, false⟩ := by
    rcases bytes with ⟨content, borrowed⟩
    cases borrowed with
    | false => rfl
    | true => exact blind content
  rw [← rawBytes_content, funext forget]
  simp only [bind_assoc, pure_bind]

/-- A slice may be read on the way to something that does not tell whether it is borrowed. -/
theorem composed_rawBytesThen (count : Nat) {α : Type} {next : Fetched Bytes → Read α}
    (blind : ∀ bytes, next ⟨bytes, true⟩ = next ⟨bytes, false⟩)
    (tail : ∀ bytes, Composed deep false (next ⟨bytes, false⟩)) :
    Composed deep ready (rawBytes count >>= next) := by
  rw [rawBytesThen_eq count blind]
  exact (Composed.fixed count).bind tail

theorem composed_string : Composed deep ready string := by
  simp only [string, str, bind_assoc]
  apply composed_strHeader.bind
  intro length
  apply composed_rawBytesThen length
  · intro bytes
    cases Utf8.decode bytes <;> simp
  · intro bytes
    split
    · exact .pure _
    · exact .throw trivial

theorem composed_char : Composed deep ready char :=
  (composed_int .u32).bind fun _ => (Composed.pure _).ite (.throw trivial)

theorem composed_binThen {α : Type} {next : Fetched Bytes → Read α}
    (blind : ∀ bytes, next ⟨bytes, true⟩ = next ⟨bytes, false⟩)
    (tail : ∀ bytes, Composed deep false (next ⟨bytes, false⟩)) :
    Composed deep ready (bin >>= next) := by
  simp only [bin, bind_assoc]
  exact composed_binHeader.bind fun length => composed_rawBytesThen length blind tail

theorem composed_fixedBin (length : Nat) (typeName : String) :
    Composed deep ready (fixedBin length typeName) :=
  composed_binHeader.bind fun _ => (Composed.fixed length).ite (.throw trivial)

theorem composed_extensionThen {α : Type} {next : Extension → Read α}
    (blind : ∀ typeCode bytes, next ⟨typeCode, bytes, true⟩ = next ⟨typeCode, bytes, false⟩)
    (tail : ∀ typeCode bytes, Composed deep false (next ⟨typeCode, bytes, false⟩)) :
    Composed deep ready (extension >>= next) := by
  simp only [extension, bind_assoc, pure_bind]
  exact composed_extensionHeader.bind fun header =>
    composed_rawBytesThen header.length (blind header.typeCode) (tail header.typeCode)

theorem composed_fixedExtension (length : Nat) (typeCode : Int8) :
    Composed deep ready (fixedExtension length typeCode) :=
  (composed_extensionHeaderWith typeCode).bind fun _ => (Composed.fixed length).ite (.throw trivial)

/-- A payload that is no timestamp is an invalid value. -/
theorem placeless_timestamp (payload : Bytes) : Placeless (Timestamp.ofPayload payload) := by
  have parts (seconds : Int64) (nanoseconds : Nat) :
      Placeless (Timestamp.ofParts seconds nanoseconds) := by
    unfold Timestamp.ofParts
    split
    · exact .ok _
    · exact .error trivial
  unfold Timestamp.ofPayload
  split
  · exact .ok _
  · exact parts _ _
  · exact parts _ _
  · exact .error trivial

theorem composed_timestamp : Composed deep ready timestamp :=
  (composed_extensionHeaderWith ExtensionCode.timestamp).bind fun header =>
    ((Composed.fixed header.length).bind fun _ =>
      .ofExcept (placeless_timestamp _)).ite (.throw trivial)

theorem composed_dateTimeOffset : Composed deep ready dateTimeOffset := by
  apply (composed_extensionHeaderWith ExtensionCode.dateTimeOffset).bind
  intro header
  apply composed_rawBytesThen header.length (fun _ => rfl)
  intro payload
  exact ((Composed.ofExcept (placeless_timestamp _)).bind fun _ =>
    .pure _).ite (.throw trivial)

/-! ## Skipping -/

theorem composed_token : Composed deep false token := by
  apply Composed.peek
  intro code
  split
  · exact .inl (composed_integer.bind fun _ => .pure _)
  · exact .inl (composed_nil.bind fun _ => .pure _)
  · exact .inl (composed_bool.bind fun _ => .pure _)
  · exact .inl (composed_float64.bind fun _ => .pure _)
  · exact .inl (composed_strHeader.bind fun _ => (Composed.advance _).bind fun _ => .pure _)
  · exact .inl (composed_binHeader.bind fun _ => (Composed.advance _).bind fun _ => .pure _)
  · exact .inl (composed_extensionHeader.bind fun _ => (Composed.advance _).bind fun _ => .pure _)
  · exact .inl (composed_arrayHeader.mapped _)
  · exact .inl (composed_mapHeader.mapped _)
  · exact .inr ⟨_, rfl⟩

theorem composed_skipStep {inner : Read Unit} (inside : Composed true false inner) :
    Composed true false (skipStep inner) := by
  apply composed_token.bind
  intro announced
  cases announced with
  | none => exact .pure ()
  | some count => exact (inside.discard count).nested

theorem composed_skipWithin (budget : Nat) : Composed true false (skipWithin budget) := by
  induction budget with
  | zero => exact composed_skipStep .tooDeep
  | succ budget ih => exact composed_skipStep ih

theorem composed_skip : Composed true false skip :=
  Composed.withBudget composed_skipWithin

theorem composed_raw : Composed true false (return (← raw).content) :=
  composed_skip.span

end Read

namespace Value

open Read

/-! ## Values of any shape -/

/-- After the look at its code, a value that holds no others is read by opening nothing.  An array
or a map is a header and a structure. -/
theorem readStep_cases (inner : Read Value) : ∃ next : UInt8 → Read Value,
    readStep inner = peekCode >>= next ∧ ∀ code, Composed false true (next code) ∨
      Refuses code (next code) ∨
      next code = (do
        let count ← Read.arrayHeader
        return array (← nested (Loop.times count inner))) ∨
      next code = (do
        let count ← Read.mapHeader
        let entry : Read (Value × Value) := do
          let key ← inner
          return (key, ← inner)
        return map (← nested (Loop.times count entry))) := by
  refine ⟨_, rfl, fun code => ?_⟩
  split
  · exact .inl (composed_nil.bind fun _ => .pure _)
  · exact .inl (composed_bool.mapped _)
  · exact .inl (composed_integer.mapped _)
  · exact .inl ((composed_float32.mapped _).ite (composed_float64.mapped _))
  · exact .inl (composed_string.mapped _)
  · exact .inl (composed_binThen (fun _ => rfl) fun _ => .pure _)
  · exact .inr (.inr (.inl rfl))
  · exact .inr (.inr (.inr rfl))
  · exact .inl (composed_extensionThen (fun _ _ => rfl) fun _ _ => .pure _)
  · exact .inr (.inl ⟨_, rfl⟩)

theorem composed_readStep {inner : Read Value} (inside : Composed true false inner) :
    Composed true false (readStep inner) := by
  obtain ⟨next, same, each⟩ := readStep_cases inner
  rw [same]
  apply Composed.peek
  intro code
  rcases each code with flat | refuses | array | map
  · exact .inl flat.deeper
  · exact .inr refuses
  · rw [array]
    exact .inl (composed_arrayHeader.bind fun count => (inside.times count).nested.mapped _)
  · rw [map]
    have entry : Composed true false (do
        let key ← inner
        return (key, ← inner)) :=
      inside.bind fun key => inside.mapped _
    exact .inl (composed_mapHeader.bind fun count => (entry.times count).nested.mapped _)

theorem composed_readWithin (budget : Nat) : Composed true false (readWithin budget) := by
  induction budget with
  | zero => exact composed_readStep .tooDeep
  | succ budget ih => exact composed_readStep ih

theorem composed_read : Composed true false read :=
  Composed.withBudget composed_readWithin

end Value

end MsgPack
