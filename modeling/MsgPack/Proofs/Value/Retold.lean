import MsgPack.Proofs.Datum.Reads
import MsgPack.Proofs.Text.Utf8

/-!
# Values say what was read

A value of any shape says what the bytes said that it was read from, and can be written: no
header gives a length of more than 32 bits.  So the bytes and what the value is written as are
spellings of one content.
-/

namespace MsgPack

/-! ## Headers give lengths that fit -/

theorem LengthForm.Gives.fits {form : LengthForm} {code : UInt8} {bytes : Bytes} {length : Nat}
    (gives : form.Gives code bytes length) (narrow : form ≠ .sized .eight) :
    Value.FitsLength length := by
  cases form with
  | fixed mask =>
      rcases gives with ⟨_, rfl⟩
      exact Nat.lt_trans (code &&& mask).toNat_lt (by decide)
  | sized width =>
      rcases gives with ⟨whole, rfl⟩
      have bound := BigEndian.decode_lt bytes
      rw [whole] at bound
      cases width with
      | one => exact Nat.lt_trans bound (by decide)
      | two => exact Nat.lt_trans bound (by decide)
      | four => exact bound
      | eight => exact absurd rfl narrow

/-- No header of a kind has a length of eight bytes. -/
def Narrow (form? : Format → Option LengthForm) : Prop :=
  ∀ format, form? format ≠ some (.sized .eight)

theorem Format.narrow_string? : Narrow string? := by
  intro format
  cases format <;> simp [string?]

theorem Format.narrow_binary? : Narrow binary? := by
  intro format
  cases format <;> simp [binary?]

theorem Format.narrow_array? : Narrow array? := by
  intro format
  cases format <;> simp [array?]

theorem Format.narrow_map? : Narrow map? := by
  intro format
  cases format <;> simp [map?]

theorem HeaderGives.fits {form? : Format → Option LengthForm} {header : Bytes} {length : Nat}
    (gives : HeaderGives form? header length) (narrow : Narrow form?) :
    Value.FitsLength length := by
  rcases gives with ⟨code, bytes, form, _, known, given⟩
  apply given.fits
  rintro rfl
  exact narrow _ known

theorem ExtensionGives.fits {bytes : Bytes} {header : Read.ExtensionHeader}
    (gives : ExtensionGives bytes header) : Value.FitsLength header.length := by
  rcases gives with ⟨code, following, form, _, known, start, typeByte, _, _, given⟩
  cases form with
  | fixed size =>
      have small : size ≤ 16 := by
        cases format : Format.ofCode code <;> rw [format] at known <;> cases known <;> decide
      rw [given.2]
      exact Nat.lt_of_le_of_lt small (by decide)
  | sized width =>
      have gives : (LengthForm.sized width).Gives code start header.length := given
      apply gives.fits
      rintro ⟨⟩
      cases format : Format.ofCode code <;> rw [format] at known <;> cases known

namespace Value

variable {α : Type} {code : UInt8}

/-- A read gives values that say what was read, and that can be written. -/
def Retells (read : Read Value) : Prop :=
  ∀ ⦃reader after : Reader⦄ ⦃value : Value⦄, read reader = .ok value after →
    ∃ bytes, Spells [value.content] bytes ∧ reader.Passed bytes after ∧ value.Fits

/-- The same of a read that relies on the next code. -/
def RetellsAfter (code : UInt8) (read : Read Value) : Prop :=
  ∀ ⦃reader after : Reader⦄ ⦃following : Bytes⦄ ⦃value : Value⦄,
    reader.cursor.unread = code :: following → read reader = .ok value after →
      ∃ bytes, Spells [value.content] bytes ∧ reader.Passed bytes after ∧ value.Fits

theorem Retells.peekThen {next : UInt8 → Read Value}
    (each : ∀ code, RetellsAfter code (next code)) :
    Retells (Read.peekCode >>= next) := by
  intro reader after value ok
  rcases bind_eq_ok.1 ok with ⟨code, middle, peeked, rest⟩
  obtain ⟨following, unread, rfl⟩ := Read.unread_of_peekCode peeked
  exact each code unread rest

/-! ## Single values -/

/-- A single value is retold if what is made of it says the same. -/
theorem RetellsAfter.single {read : Read α} {next : α → Read Value} {tells : Content → α → Prop}
    (single : Read.Single read tells)
    (told : ∀ {content : Content} {bytes : Bytes} {found : α}, content.After code bytes →
      tells content found → ∀ {reader after : Reader} {value : Value},
        next found reader = .ok value after →
          after = reader ∧ value.content = content ∧ value.Fits) :
    RetellsAfter code (read >>= next) := by
  intro reader after following value unread ok
  rcases bind_eq_ok.1 ok with ⟨found, middle, first, rest⟩
  obtain ⟨bytes, ⟨content, stands, said⟩, passed⟩ := single.accepts.sound first
  cases bytes with
  | nil => exact stands.elim
  | cons first bytes =>
      have joined := passed.unread
      rw [unread] at joined
      cases joined
      obtain ⟨rfl, rfl, fits⟩ := told stands said rest
      exact ⟨code :: bytes, stands.spells, passed, fits⟩

/-- What a converted value says is what the value says. -/
theorem RetellsAfter.converted {read : Read α} {convert : α → Value}
    {tells : Content → α → Prop} (single : Read.Single read tells)
    (told : ∀ {content : Content} {bytes : Bytes} {found : α}, content.After code bytes →
      tells content found → (convert found).content = content ∧ (convert found).Fits) :
    RetellsAfter code (return convert (← read)) := by
  refine .single single fun after said => ?_
  intro reader last value ok
  cases ok
  exact ⟨rfl, told after said⟩

theorem retellsAfter_nil :
    RetellsAfter code (do
      Read.nil
      return nil) := by
  refine .converted Read.single_nil ?_
  rintro content bytes _ after rfl
  exact ⟨rfl, trivial⟩

theorem retellsAfter_bool : RetellsAfter code (return bool (← Read.bool)) := by
  refine .converted Read.single_bool ?_
  rintro content bytes truth after rfl
  exact ⟨rfl, trivial⟩

theorem retellsAfter_integer : RetellsAfter code (return ofInteger (← Read.integer)) := by
  have retells : RetellsAfter code (return ofInt (← (return (← Read.integer).toInt))) := by
    refine .converted (Read.single_integerAs .integer) ?_
    rintro content bytes number after rfl
    rcases after with ⟨form, _, _, rfl⟩
    rw [← ofInteger_eq]
    exact ⟨content_ofInteger _, fits_ofInteger _⟩
  simpa only [ofInteger_eq, bind_assoc, pure_bind] using retells

theorem retellsAfter_float32 (format : Format.ofCode code = .float32) :
    RetellsAfter code (return float32 (← Read.float32)) := by
  refine .converted Read.single_float32 ?_
  intro content bytes bits after said
  cases content with
  | float32 bits' =>
      cases said
      exact ⟨rfl, trivial⟩
  | float64 bits' => cases format.symm.trans after.1
  | integer number =>
      rcases after with ⟨form, known, _⟩
      rw [format] at known
      cases known
  | _ => cases said

theorem retellsAfter_float64 (kind : (Format.ofCode code).kind = .float)
    (format : Format.ofCode code ≠ .float32) :
    RetellsAfter code (return float64 (← Read.float64)) := by
  refine .converted Read.single_float64 ?_
  intro content bytes bits after said
  cases content with
  | float32 bits' => exact absurd after.1 format
  | float64 bits' =>
      cases said
      exact ⟨rfl, trivial⟩
  | integer number => cases kind.symm.trans after.kind
  | _ => cases said

theorem retellsAfter_string : RetellsAfter code (return string (← Read.string)) := by
  rw [Read.string_eq, bind_assoc]
  refine .single (Read.single_strThen Read.Payload.fixed) ?_
  rintro content bytes payload after ⟨_, rfl, rfl⟩ reader last value ok
  rcases after with ⟨form, start, known, rfl, gives⟩
  cases decoded : Utf8.decode payload with
  | error failure =>
      rw [decoded] at ok
      cases ok
  | ok text =>
      rw [decoded] at ok
      cases ok
      have same := Utf8.encode_of_decode decoded
      refine ⟨rfl, by rw [content, same], ?_⟩
      rw [Fits, same]
      exact gives.fits fun wide => Format.narrow_string? _ (wide ▸ known)

theorem retellsAfter_binary : RetellsAfter code (return binary (← Read.bin).content) := by
  rw [Read.binThen_eq fun bytes => pure (binary bytes)]
  refine .converted (Read.single_binThen Read.Payload.fixed) ?_
  rintro content bytes payload after ⟨_, rfl, rfl⟩
  rcases after with ⟨form, start, known, rfl, gives⟩
  exact ⟨rfl, gives.fits fun wide => Format.narrow_binary? _ (wide ▸ known)⟩

theorem retellsAfter_extension :
    RetellsAfter code (do
      let found ← Read.extension
      return extension found.typeCode found.payload.content) := by
  have retells : RetellsAfter code (do
      let found ← Read.extensionHeader >>= fun header => do
        return (header.typeCode, ← Read.fixed header.length)
      return extension found.1 found.2) := by
    refine .converted (Read.single_extensionThen fun header =>
      (Read.Payload.fixed header.length).mapped fun payload => (header.typeCode, payload)) ?_
    rintro content bytes _ after ⟨typeCode, payload, rfl, _, rfl, rfl⟩
    rcases after with ⟨form, start, known, rfl, gives⟩
    exact ⟨rfl, ExtensionGives.fits ⟨code, start, form, rfl, known, gives⟩⟩
  rw [Read.extensionThen_eq fun typeCode payload => pure (extension typeCode payload)]
  simpa only [bind_assoc, pure_bind] using retells

/-! ## Arrays and maps -/

theorem Retells.items {item : Read Value} (retells : Retells item) (count : Nat)
    {reader after : Reader} {items : List Value}
    (ok : Loop.times count item reader = .ok items after) :
    items.length = count ∧ FitsItems items ∧
      ∃ bytes, Spells (contentItems items) bytes ∧ reader.Passed bytes after := by
  induction count generalizing reader items with
  | zero =>
      cases ok
      exact ⟨rfl, trivial, [], .done, .refl _⟩
  | succ count ih =>
      rw [Loop.times_succ] at ok
      rcases bind_eq_ok.1 ok with ⟨first, middle, head, rest⟩
      rcases bind_eq_ok.1 rest with ⟨others, last, tail, done⟩
      cases done
      obtain ⟨bytes, spelled, passed, fits⟩ := retells head
      obtain ⟨counted, fits', following, spelled', passed'⟩ := ih tail
      exact ⟨congrArg _ counted, ⟨fits, fits'⟩, bytes ++ following, spelled.append spelled',
        passed.trans passed'⟩

theorem Retells.entries {item : Read Value} (retells : Retells item) (count : Nat)
    {reader after : Reader} {entries : List (Value × Value)}
    (ok : Loop.times count (do
      let key ← item
      return (key, ← item)) reader = .ok entries after) :
    entries.length = count ∧ FitsEntries entries ∧
      ∃ bytes, Spells (contentEntries entries) bytes ∧ reader.Passed bytes after := by
  induction count generalizing reader entries with
  | zero =>
      cases ok
      exact ⟨rfl, trivial, [], .done, .refl _⟩
  | succ count ih =>
      rw [Loop.times_succ] at ok
      rcases bind_eq_ok.1 ok with ⟨first, middle, head, rest⟩
      rcases bind_eq_ok.1 rest with ⟨others, last, tail, done⟩
      rcases bind_eq_ok.1 head with ⟨key, between, left, right⟩
      rcases bind_eq_ok.1 right with ⟨value, beyond, right, pair⟩
      cases done
      cases pair
      obtain ⟨front, spelledKey, passedKey, fitsKey⟩ := retells left
      obtain ⟨back, spelledValue, passedValue, fitsValue⟩ := retells right
      obtain ⟨counted, fits, following, spelled, passed⟩ := ih tail
      exact ⟨congrArg _ counted, ⟨fitsKey, fitsValue, fits⟩, (front ++ back) ++ following,
        (spelledKey.append spelledValue).append spelled,
        (passedKey.trans passedValue).trans passed⟩

theorem Retells.array {item : Read Value} (retells : Retells item) :
    Retells (do
      let count ← Read.arrayHeader
      return array (← Read.nested (Loop.times count item))) := by
  intro reader after value ok
  rcases bind_eq_ok.1 ok with ⟨count, middle, counts, rest⟩
  rcases bind_eq_ok.1 rest with ⟨items, last, opened, done⟩
  cases done
  obtain ⟨header, ⟨gives, _⟩, passed⟩ := (Read.accepts_countAs _ .array id).sound counts
  obtain ⟨_, inside, inner, through⟩ := Read.of_nested_eq_ok opened
  obtain ⟨rfl, fits, bytes, spelled, passed'⟩ := retells.items count inner
  refine ⟨header ++ bytes, ?_, passed.trans (through bytes passed'),
    gives.fits Format.narrow_array?, fits⟩
  rw [← length_contentItems items] at gives
  exact Spells.array_iff.2 ⟨header, bytes, rfl, gives, spelled⟩

theorem Retells.map {item : Read Value} (retells : Retells item) :
    Retells (do
      let count ← Read.mapHeader
      let entry : Read (Value × Value) := do
        let key ← item
        return (key, ← item)
      return map (← Read.nested (Loop.times count entry))) := by
  intro reader after value ok
  rcases bind_eq_ok.1 ok with ⟨count, middle, counts, rest⟩
  rcases bind_eq_ok.1 rest with ⟨entries, last, opened, done⟩
  cases done
  obtain ⟨header, ⟨gives, _⟩, passed⟩ := (Read.accepts_countAs _ .map (· * 2)).sound counts
  obtain ⟨_, inside, inner, through⟩ := Read.of_nested_eq_ok opened
  obtain ⟨rfl, fits, bytes, spelled, passed'⟩ := retells.entries count inner
  exact ⟨header ++ bytes, Spells.map_iff.2 ⟨_, header, bytes, rfl, gives,
    length_contentEntries entries, spelled⟩, passed.trans (through bytes passed'),
    gives.fits Format.narrow_map?, fits⟩

/-! ## Any value -/

theorem Retells.step {item : Read Value} (retells : Retells item) : Retells (readStep item) := by
  apply Retells.peekThen
  intro code
  cases kind : (Format.ofCode code).kind with
  | nil => exact retellsAfter_nil
  | boolean => exact retellsAfter_bool
  | integer => exact retellsAfter_integer
  | float =>
      by_cases format : Format.ofCode code = .float32
      · simp only [if_pos format]
        exact retellsAfter_float32 format
      · simp only [if_neg format]
        exact retellsAfter_float64 kind format
  | string => exact retellsAfter_string
  | binary => exact retellsAfter_binary
  | array => exact fun _ _ _ _ _ ok => retells.array ok
  | map => exact fun _ _ _ _ _ ok => retells.map ok
  | extension => exact retellsAfter_extension
  | unknown =>
      intro reader after following value _ ok
      cases ok

theorem retells_readWithin (budget : Nat) : Retells (readWithin budget) := by
  induction budget with
  | zero => exact Retells.step fun _ _ _ ok => by cases ok
  | succ budget ih => exact Retells.step ih

/-- A value says what the bytes say that it was read from, and can be written. -/
theorem retells_read : Retells read :=
  fun _ _ _ ok => retells_readWithin _ ok

end Value

end MsgPack
