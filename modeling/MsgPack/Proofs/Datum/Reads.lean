import MsgPack.Datum.Scalar
import MsgPack.Proofs.Formatter.Answers
import MsgPack.Proofs.Text.Utf8
import MsgPack.Proofs.Value.Content

/-!
# Scalar types read one value

Every scalar type reads one content, and so do skipping and the reading of values of any
shape.  What is checked of a content, such as a range or a calendar, is checked after it was
read; the length and the type code of a payload are checked before.
-/

namespace MsgPack

/-- How many levels deeper than its reader was told a value of a scalar type may be: one for the
types that are a pair of numbers or of an address and a number. -/
def Scalar.overrun : Scalar → Nat
  | duration | socket | time => 1
  | _ => 0

theorem Scalar.overrun_le_one (scalar : Scalar) : scalar.overrun ≤ 1 := by
  unfold overrun
  split <;> decide

theorem Format.kind_eq_nil_iff (format : Format) : format.kind = .nil ↔ format = .nil := by
  cases format <;> simp [kind]

namespace Read

variable {α β : Type}

/-! ## Reads in the order of their checks -/

theorem ite_bind (condition : Prop) [Decidable condition] (read : Read α) (failure : Error)
    (next : α → Read β) :
    (if condition then read else throw failure) >>= next =
      if condition then read >>= next else throw failure := by
  split <;> rfl

theorem fit_eq (integer : Integer) (range : IntRange) :
    fit integer range =
      if range.Contains integer.toInt then pure integer.toInt
      else throw (.overflow integer.toInt range) := by
  unfold fit Integer.fit?
  split <;> split <;> simp_all

/-- Once nil is known to be next, it may be read as nil. -/
theorem tryNil_eq :
    tryNil = peekCode >>= fun code =>
      if Format.ofCode code = .nil then do
        nil
        return true
      else return false := by
  simp only [tryNil, peekIsNil, peekFormat, bind_assoc, pure_bind]
  funext reader
  cases unread : reader.cursor.unread with
  | nil =>
      obtain ⟨_, _, _, error⟩ := starves_peekCode unread
      rw [bind_of_error error, bind_of_error error]
  | cons code following =>
      have peeked := peekCode_eq unread
      rw [bind_of_ok peeked, bind_of_ok peeked]
      by_cases format : Format.ofCode code = .nil
      · have skips : nil reader = skipByte reader := by
          rw [nil, bind_of_ok peeked, if_pos format]
        simp only [format, decide_true, if_true, bind, EStateM.bind, skips]
      · simp only [format, decide_false, Bool.false_eq_true, if_false]

theorem string_eq :
    string = (strHeader >>= fixed) >>= fun bytes =>
      match Utf8.decode bytes with
      | .ok text => pure text
      | .error failure => throw (.invalidUtf8 failure) := by
  simp only [string, str, bind_assoc]
  congr 1
  funext length
  rw [rawBytesThen_eq]
  · congr 1
    funext bytes
    cases Utf8.decode bytes <;> rfl
  · intro bytes
    cases Utf8.decode bytes <;> rfl

/-- Where only the bytes of binary data matter, they may be read as an array. -/
theorem binThen_eq (next : Bytes → Read α) :
    (bin >>= fun found => next found.content) = (binHeader >>= fixed) >>= next := by
  simp only [bin, bind_assoc]
  congr 1
  funext length
  rw [rawBytesThen_eq length fun _ => rfl]

/-- Where only the bytes of an extension matter, they may be read as an array. -/
theorem extensionThen_eq (next : Int8 → Bytes → Read α) :
    (extension >>= fun found => next found.typeCode found.payload.content) =
      extensionHeader >>= fun header => fixed header.length >>= next header.typeCode := by
  simp only [extension, bind_assoc, pure_bind]
  congr 1
  funext header
  rw [rawBytesThen_eq header.length fun _ => rfl]

theorem extensionHeaderWith_bind (expected : Int8) (next : ExtensionHeader → Read α) :
    extensionHeaderWith expected >>= next = extensionHeader >>= fun header =>
      if header.typeCode = expected then next header
      else throw (.extensionTypeMismatch expected header.typeCode) := by
  simp only [extensionHeaderWith, bind_assoc, ite_bind, pure_bind]

theorem timestamp_eq :
    timestamp = (extensionHeaderWith ExtensionCode.timestamp >>= fun header =>
      if header.length = 4 ∨ header.length = 8 ∨ header.length = 12 then fixed header.length
      else throw (.invalidValue (.timestampPayload header.length))) >>= fun payload =>
        ofExcept (Timestamp.ofPayload payload) := by
  simp only [timestamp, bind_assoc, ite_bind]

theorem dateTimeOffset_eq :
    dateTimeOffset = (extensionHeaderWith ExtensionCode.dateTimeOffset >>= fun header =>
      fixed header.length) >>= fun payload =>
        if payload.length = 6 ∨ payload.length = 10 ∨ payload.length = 14 then do
          let split := payload.length - 2
          let timestamp ← ofExcept (Timestamp.ofPayload (payload.take split))
          return (timestamp, Int16.ofInt (BigEndian.decodeSigned (payload.drop split)))
        else throw (.invalidValue (.offsetPayload payload.length)) := by
  simp only [dateTimeOffset, bind_assoc]
  congr 1
  funext header
  rw [rawBytesThen_eq header.length fun _ => rfl]

/-! ## Numbers, text and counts in all their forms -/

/-- A number of a range is accepted in every form that an integer may have. -/
theorem accepts_int (range : IntRange) : Accepts (int range) fun bytes number _ =>
    (Content.integer number).Stands bytes ∧ range.Contains number := by
  have same : int range = (return (← integerAs (.range range)).toInt) >>= fun number =>
      ofExcept (if range.Contains number then .ok number else .error (.overflow number range)) := by
    simp only [int, fit_eq, bind_assoc, pure_bind]
    congr 1
    funext integer
    split <;> rfl
  rw [same]
  apply ((single_integerAs (.range range)).accepts.checked _).congr
  intro bytes number left
  constructor
  · rintro ⟨stands, contained⟩
    exact ⟨number, ⟨_, stands, rfl⟩, if_pos contained⟩
  · rintro ⟨found, ⟨_, stands, rfl⟩, checked⟩
    by_cases contained : range.Contains found
    · rw [if_pos contained] at checked
      cases checked
      exact ⟨stands, contained⟩
    · rw [if_neg contained] at checked
      cases checked

/-- Text is accepted in every form that a string may have. -/
theorem accepts_string : Accepts string fun bytes text _ =>
    (Content.string (Utf8.encode text)).Stands bytes := by
  have same : string = (strHeader >>= fixed) >>= fun bytes =>
      ofExcept ((Utf8.decode bytes).mapError .invalidUtf8) := by
    rw [string_eq]
    congr 1
    funext bytes
    cases Utf8.decode bytes <;> rfl
  rw [same]
  apply ((single_strThen Payload.fixed).accepts.checked _).congr
  intro bytes text left
  constructor
  · intro stands
    refine ⟨Utf8.encode text, ⟨_, stands, _, rfl, rfl⟩, ?_⟩
    rw [Utf8.decode_encode]
    rfl
  · rintro ⟨payload, ⟨_, stands, _, rfl, rfl⟩, decoded⟩
    cases read : Utf8.decode payload with
    | error failure =>
        rw [read] at decoded
        cases decoded
    | ok other =>
        rw [read] at decoded
        cases decoded
        rwa [Utf8.encode_of_decode read]

/-- A count is accepted if it is the one that is expected. -/
theorem accepts_arrayOf (length : Nat) (typeName : String) :
    Accepts (arrayOf length typeName) fun bytes _ left =>
      HeaderGives Format.array? bytes length ∧ length ≤ left := by
  have same : arrayOf length typeName = arrayHeader >>= fun count =>
      ofExcept (if count = length then .ok () else
        .error (.countMismatch typeName length count)) := by
    rw [arrayOf]
    congr 1
    funext count
    split <;> rfl
  rw [same]
  apply (accepts_arrayHeader.checked _).congr
  intro bytes result left
  constructor
  · intro given
    exact ⟨length, given, if_pos rfl⟩
  · rintro ⟨count, given, checked⟩
    by_cases expected : count = length
    · rwa [expected] at given
    · rw [if_neg expected] at checked
      cases checked

end Read

namespace Decode

open Session

variable {σ α β : Type} {margin : Nat}

/-- A converted result is read from the same contents. -/
theorem Reads.lifted {read : Read α} {count : Nat}
    (reads : Reads margin count (lift read : Decode σ α)) (convert : α → β) :
    Reads margin count (lift (return convert (← read)) : Decode σ β) := by
  rw [lift_bind]
  exact reads.mapped convert

/-- What is checked of a result is checked after it was read. -/
theorem Reads.liftedThen {read : Read α} {next : α → Read β} {count : Nat}
    (reads : Reads margin count (lift read : Decode σ α))
    (tail : ∀ found, Reads 1 0 (lift (next found) : Decode σ β)) :
    Reads margin count (lift (read >>= next) : Decode σ β) := by
  rw [lift_bind]
  exact reads.andThen tail

/-! ## Numbers -/

theorem reads_nil : Reads (margin + 1) 1 (lift Read.nil : Decode σ Unit) :=
  reads_of_single Read.single_nil

theorem reads_bool : Reads (margin + 1) 1 (lift Read.bool : Decode σ Bool) :=
  reads_of_single Read.single_bool

/-- Where only the number of an integer matters, its form does not. -/
theorem reads_integerThen (expected : Expected) (next : Int → Read β)
    (tail : ∀ number, Reads 1 0 (lift (next number) : Decode σ β)) :
    Reads (margin + 1) 1 (lift (Read.integerAs expected >>= fun integer => next integer.toInt) :
      Decode σ β) := by
  have number : Reads (margin + 1) 1
      (lift (return (← Read.integerAs expected).toInt) : Decode σ Int) :=
    reads_of_single (Read.single_integerAs expected)
  simpa only [bind_assoc, pure_bind] using number.liftedThen tail

/-- A number is checked against a range. -/
theorem reads_fitted (expected : Expected) (range : IntRange) :
    Reads (margin + 1) 1 (lift (Read.integerAs expected >>= fun integer =>
      Read.fit integer range) : Decode σ Int) := by
  simp only [Read.fit_eq]
  apply reads_integerThen expected fun number =>
    if range.Contains number then pure number else throw (.overflow number range)
  intro number
  rw [lift_ite]
  split
  · exact .pure number
  · exact .throw _ 0

theorem reads_int (range : IntRange) :
    Reads (margin + 1) 1 (lift (Read.int range) : Decode σ Int) :=
  reads_fitted (.range range) range

theorem reads_size (range : IntRange) :
    Reads (margin + 1) 1 (lift (Read.size range) : Decode σ Int) :=
  reads_fitted .integer range

theorem reads_float32 : Reads (margin + 1) 1 (lift Read.float32 : Decode σ UInt32) :=
  reads_of_single Read.single_float32

theorem reads_float64 : Reads (margin + 1) 1 (lift Read.float64 : Decode σ UInt64) :=
  reads_of_single Read.single_float64

theorem reads_char : Reads (margin + 1) 1 (lift Read.char : Decode σ Char) := by
  apply (reads_int .u32).liftedThen
  intro number
  simp only [lift_ite]
  split
  · exact .pure _
  · exact .throw _ 0

/-! ## Text and binary data -/

theorem reads_string : Reads (margin + 1) 1 (lift Read.string : Decode σ String) := by
  rw [Read.string_eq]
  apply (reads_of_single (Read.single_strThen Read.Payload.fixed)).liftedThen
  intro bytes
  cases Utf8.decode bytes with
  | ok text => exact .pure text
  | error failure => exact .throw _ 0

/-- Binary data, and what is made of their bytes. -/
theorem reads_binThen (next : Bytes → Read α)
    (tail : ∀ bytes, Reads 1 0 (lift (next bytes) : Decode σ α)) :
    Reads (margin + 1) 1 (lift (Read.bin >>= fun found => next found.content) : Decode σ α) := by
  rw [Read.binThen_eq]
  exact (reads_of_single (Read.single_binThen Read.Payload.fixed)).liftedThen tail

theorem reads_fixedBin (length : Nat) (typeName : String) :
    Reads (margin + 1) 1 (lift (Read.fixedBin length typeName) : Decode σ Bytes) := by
  exact reads_of_single (Read.single_binThen fun actual => .guarded .fixed_of_eq _)

theorem reads_address : Reads (margin + 1) 1 (lift Read.address : Decode σ Bytes) := by
  apply reads_binThen fun octets =>
    if octets.length = 4 ∨ octets.length = 16 then pure octets
    else throw (.invalidValue (.addressLength octets.length))
  intro octets
  rw [lift_ite]
  split
  · exact .pure octets
  · exact .throw _ 0

/-! ## Extensions -/

/-- An extension of any type code, and what is made of its bytes. -/
theorem reads_extensionThen (next : Int8 → Bytes → Read α)
    (tail : ∀ typeCode payload, Reads 1 0 (lift (next typeCode payload) : Decode σ α)) :
    Reads (margin + 1) 1 (lift (Read.extension >>= fun found =>
      next found.typeCode found.payload.content) : Decode σ α) := by
  have reads : Reads (margin + 1) 1 (lift (Read.extensionHeader >>= fun header => do
      return (header.typeCode, ← Read.fixed header.length)) : Decode σ (Int8 × Bytes)) :=
    reads_of_single (Read.single_extensionThen fun header =>
      (Read.Payload.fixed header.length).mapped fun payload => (header.typeCode, payload))
  rw [Read.extensionThen_eq]
  have checked := reads.liftedThen fun found => tail found.1 found.2
  simpa only [bind_assoc, pure_bind] using checked

/-- An extension of one type code, and what is made of its bytes. -/
theorem reads_extensionHeaderWithThen (expected : Int8) {next : Read.ExtensionHeader → Read α}
    {tells : Read.ExtensionHeader → Bytes → α → Prop}
    (payload : ∀ header, Read.Payload header.length (next header) (tells header)) :
    Reads (margin + 1) 1 (lift (Read.extensionHeaderWith expected >>= next) : Decode σ α) := by
  rw [Read.extensionHeaderWith_bind]
  exact reads_of_single (Read.single_extensionThen fun header =>
    .guarded (fun _ => payload header) _)

theorem reads_fixedExtension (length : Nat) (typeCode : Int8) :
    Reads (margin + 1) 1 (lift (Read.fixedExtension length typeCode) : Decode σ Bytes) := by
  exact reads_extensionHeaderWithThen typeCode fun header => .guarded .fixed_of_eq _

theorem reads_timestamp : Reads (margin + 1) 1 (lift Read.timestamp : Decode σ Timestamp) := by
  rw [Read.timestamp_eq]
  refine Reads.liftedThen ?_ fun payload => reads_ofExcept _
  exact reads_extensionHeaderWithThen ExtensionCode.timestamp fun header =>
    .guarded (fun _ => .fixed header.length) _

theorem reads_dateTimeOffset :
    Reads (margin + 1) 1 (lift Read.dateTimeOffset : Decode σ (Timestamp × Int16)) := by
  rw [Read.dateTimeOffset_eq]
  apply Reads.liftedThen
  · exact reads_extensionHeaderWithThen ExtensionCode.dateTimeOffset fun header =>
      .fixed header.length
  · intro payload
    rw [lift_ite]
    split
    · exact (reads_ofExcept _).lifted _
    · exact .throw _ 0

/-! ## Arrays that are read without a level of their own

Their pairs are one level deeper than the reader was told. -/

/-- The header of an array of a certain length, and then as many contents. -/
theorem reads_arrayOfThen {length : Nat} {next : Unit → Decode σ α} (typeName : String)
    (each : Reads margin length (next ())) :
    Reads (margin + 1) 1 (lift (Read.arrayOf length typeName) >>= next) := by
  rw [Read.arrayOf, lift_bind, bind_assoc]
  apply reads_arrayThen
  intro count
  by_cases same : count = length
  · rw [if_pos same, same]
    exact each
  · rw [if_neg same]
    exact .throw _ count

/-- Two values are read one after the other. -/
theorem reads_pairThen {first : Read α} {second : Read β} {γ : Type} {next : α → β → Read γ}
    (reads : Reads margin 1 (lift first : Decode σ α))
    (reads' : Reads margin 1 (lift second : Decode σ β))
    (tail : ∀ left right, Reads 1 0 (lift (next left right) : Decode σ γ)) :
    Reads margin 2 (lift (do
      let left ← first
      let right ← second
      next left right) : Decode σ γ) := by
  rw [lift_bind]
  exact reads.bind fun left => reads'.liftedThen (tail left)

theorem reads_socket : Reads (margin + 2) 1 (lift Read.socket : Decode σ Atom) := by
  rw [Read.socket, lift_bind]
  apply reads_arrayOfThen
  exact reads_pairThen reads_address (reads_int .u16) fun octets port => .pure _

theorem reads_duration : Reads (margin + 2) 1 (lift Read.duration : Decode σ Duration) := by
  rw [Read.duration, lift_bind]
  apply reads_arrayOfThen
  apply reads_pairThen (reads_int .u64) (reads_int .u32)
  intro seconds nanoseconds
  dsimp only
  split
  · exact .pure _
  · exact .throw _ 0

theorem reads_clockTime : Reads (margin + 2) 1 (lift Read.clockTime : Decode σ ClockTime) := by
  rw [Read.clockTime, lift_bind]
  apply reads_arrayOfThen
  apply reads_pairThen (reads_int .u32) (reads_int .u32)
  intro seconds nanoseconds
  dsimp only
  cases ClockTime.ofParts? seconds.toNat nanoseconds.toNat with
  | some clock => exact .pure clock
  | none => exact .throw _ 0

theorem reads_date : Reads (margin + 1) 1 (lift Read.date : Decode σ Date) := by
  apply (reads_int .i32).liftedThen
  intro number
  cases Date.ofNumber? number with
  | some day => exact .pure day
  | none => exact .throw _ 0

/-! ## Values of any shape -/

/-- Reading may depend on the kind of the next code, and on which of the two formats of
floating point numbers it has. -/
theorem reads_kindThen {next : UInt8 → Decode σ β} (each : ∀ code, Reads margin 1 (next code))
    (same : ∀ code other, (Format.ofCode code).kind = (Format.ofCode other).kind →
      (Format.ofCode code).kind ≠ .unknown →
      ((Format.ofCode code).kind = .float → Format.ofCode code = Format.ofCode other) →
        next code = next other) :
    Reads margin 1 (lift Read.peekCode >>= next) := by
  apply reads_lookThen looks_peekCode each
  rintro content code other ⟨following, spelled⟩ ⟨following', spelled'⟩
  apply same code other (spelled.kind.trans spelled'.kind.symm)
  · rw [spelled.kind]
    cases content <;> exact Kind.noConfusion
  · exact spelled.format_eq spelled'

/-- Nil is read if it is next, and whatever else is next is left for what follows. -/
theorem reads_tryNilThen {next : Bool → Decode σ α} (absent : Reads 1 0 (next true))
    (present : Reads (margin + 1) 1 (next false)) :
    Reads (margin + 1) 1 (lift Read.tryNil >>= next) := by
  rw [Read.tryNil_eq, lift_bind, bind_assoc]
  apply reads_kindThen
  · intro code
    rw [lift_ite]
    split
    · simp only [lift_bind, lift_pure, bind_assoc, pure_bind]
      exact reads_nil.andThen fun _ => absent
    · exact present
  · intro code other same _ _
    simp only [← Format.kind_eq_nil_iff, same]

/-- Skipping reads one content. -/
theorem reads_skipStep {inner : Read Unit}
    (reads : Reads (margin + 1) 1 (lift inner : Decode σ Unit)) :
    Reads (margin + 1) 1 (lift (Read.skipStep inner) : Decode σ Unit) := by
  rw [Read.skipStep, Read.token, bind_assoc, lift_bind]
  apply reads_kindThen
  · intro code
    cases (Format.ofCode code).kind with
    | integer =>
        simp only [bind_assoc, pure_bind]
        exact reads_integerThen .integer (fun _ => pure ()) fun _ => .pure ()
    | nil =>
        simp only [bind_assoc, pure_bind]
        exact reads_nil.lifted fun _ => ()
    | boolean =>
        simp only [bind_assoc, pure_bind]
        exact reads_bool.lifted fun _ => ()
    | float =>
        simp only [bind_assoc, pure_bind]
        exact reads_float64.lifted fun _ => ()
    | string =>
        have reads : Reads (margin + 1) 1
            (lift (Read.strHeader >>= Read.advance) : Decode σ Unit) :=
          reads_of_single (Read.single_strThen Read.Payload.advance)
        simpa only [bind_assoc, pure_bind] using reads.lifted fun _ => ()
    | binary =>
        have reads : Reads (margin + 1) 1
            (lift (Read.binHeader >>= Read.advance) : Decode σ Unit) :=
          reads_of_single (Read.single_binThen Read.Payload.advance)
        simpa only [bind_assoc, pure_bind] using reads.lifted fun _ => ()
    | extension =>
        have reads : Reads (margin + 1) 1 (lift (Read.extensionHeader >>= fun header =>
            Read.advance header.length) : Decode σ Unit) :=
          reads_of_single (Read.single_extensionThen fun header => .advance header.length)
        simpa only [bind_assoc, pure_bind] using reads.lifted fun _ => ()
    | array =>
        simp only [bind_assoc, pure_bind, lift_bind, lift_nested, lift_discard]
        exact reads_arrayThen fun count => (reads.discard count).nested
    | map =>
        simp only [bind_assoc, pure_bind, lift_bind, lift_nested, lift_discard]
        exact reads_mapThen fun count => (reads.discard (count * 2)).nested
    | unknown => exact .throw _ 1
  · intro code other same known _
    rw [same] at known ⊢
    cases kind : (Format.ofCode other).kind with
    | unknown => exact absurd kind known
    | _ => rfl

theorem reads_skipWithin (budget : Nat) :
    Reads (margin + 1) 1 (lift (Read.skipWithin budget) : Decode σ Unit) := by
  induction budget with
  | zero => exact reads_skipStep (reads_tooDeep 1)
  | succ budget ih => exact reads_skipStep ih

theorem reads_skip : Reads (margin + 1) 1 (lift Read.skip : Decode σ Unit) :=
  .withBudget reads_skipWithin

/-- A value of any shape reads one content. -/
theorem reads_readStep {inner : Read Value}
    (reads : Reads (margin + 1) 1 (lift inner : Decode σ Value)) :
    Reads (margin + 1) 1 (lift (Value.readStep inner) : Decode σ Value) := by
  rw [Value.readStep, lift_bind]
  apply reads_kindThen
  · intro code
    cases (Format.ofCode code).kind with
    | integer =>
        simp only [Value.ofInteger_eq]
        exact reads_integerThen .integer (fun number => pure (Value.ofInt number)) fun _ => .pure _
    | nil => exact reads_nil.lifted fun _ => Value.nil
    | boolean => exact reads_bool.lifted Value.bool
    | float =>
        simp only [lift_ite]
        split
        · exact reads_float32.lifted Value.float32
        · exact reads_float64.lifted Value.float64
    | string => exact reads_string.lifted Value.string
    | binary => exact reads_binThen (fun bytes => pure (Value.binary bytes)) fun _ => .pure _
    | extension =>
        exact reads_extensionThen (fun typeCode payload => pure (Value.extension typeCode payload))
          fun _ _ => .pure _
    | array =>
        simp only [lift_bind, lift_nested, lift_times]
        apply reads_arrayThen
        intro count
        have items := reads.times count
        rw [Nat.mul_one] at items
        exact items.nested.mapped _
    | map =>
        simp only [lift_bind, lift_nested, lift_times]
        apply reads_mapThen
        intro count
        have entry := reads.bind fun key => reads.mapped fun value => (key, value)
        exact (entry.times count).nested.mapped _
    | unknown => exact .throw _ 1
  · intro code other same known float
    rw [same] at known float ⊢
    cases kind : (Format.ofCode other).kind with
    | unknown => exact absurd kind known
    | float =>
        rw [float kind]
    | _ => rfl

theorem reads_readWithin (budget : Nat) :
    Reads (margin + 1) 1 (lift (Value.readWithin budget) : Decode σ Value) := by
  induction budget with
  | zero => exact reads_readStep (reads_tooDeep 1)
  | succ budget ih => exact reads_readStep ih

theorem reads_value : Reads (margin + 1) 1 (lift Value.read : Decode σ Value) :=
  .withBudget reads_readWithin

/-! ## Scalar types -/

/-- Every scalar type reads one content. -/
theorem reads_scalar (scalar : Scalar) :
    Reads (scalar.overrun + 1) 1 (lift scalar.read : Decode σ Atom) := by
  cases scalar with
  | unit => exact reads_nil.lifted fun _ => Atom.unit
  | bool => exact reads_bool.lifted Atom.bool
  | int range =>
      cases range with
      | usize => exact (reads_size .usize).lifted Atom.int
      | isize => exact (reads_size .isize).lifted Atom.int
      | _ => exact (reads_int _).lifted Atom.int
  | float32 => exact reads_float32.lifted Atom.float32
  | float64 => exact reads_float64.lifted Atom.float64
  | char => exact reads_char.lifted Atom.char
  | string => exact reads_string.lifted Atom.text
  | smallString => exact reads_string.lifted Atom.text
  | bytes => exact reads_binThen (fun bytes => pure (Atom.bytes bytes)) fun _ => .pure _
  | byteBuffer => exact reads_binThen (fun bytes => pure (Atom.bytes bytes)) fun _ => .pure _
  | value => exact reads_value.lifted Atom.value
  | timestamp => exact reads_timestamp.lifted Atom.timestamp
  | systemTime => exact reads_timestamp.lifted fun stamp => Atom.systemTime (.ofTimestamp stamp)
  | duration => exact reads_duration.lifted Atom.duration
  | ipv4 => exact (reads_fixedBin 4 "Ipv4Addr").lifted Atom.address
  | ipv6 => exact (reads_fixedBin 16 "Ipv6Addr").lifted Atom.address
  | ip => exact reads_address.lifted Atom.address
  | socket => exact reads_socket
  | utcDateTime =>
      exact (reads_timestamp.liftedThen fun _ => reads_ofExcept _).lifted Atom.instant
  | plainDateTime =>
      exact (reads_timestamp.liftedThen fun _ => reads_ofExcept _).lifted Atom.instant
  | offsetDateTime =>
      exact (reads_dateTimeOffset.liftedThen fun _ => reads_ofExcept _).lifted Atom.zoned
  | date => exact reads_date.lifted Atom.date
  | time => exact reads_clockTime.lifted Atom.time
  | guid =>
      exact ((reads_fixedExtension 16 ExtensionCode.guid).lifted _).lifted Atom.bytes
  | decimal =>
      exact ((reads_fixedExtension 16 ExtensionCode.decimal).liftedThen fun _ =>
        reads_ofExcept _).lifted Atom.decimal

end Decode

end MsgPack
