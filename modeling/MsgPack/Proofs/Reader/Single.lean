import MsgPack.Proofs.Wire.Spelling

/-!
# Single values and what they say

A read of a single value accepts the spellings of some contents, and what it gives depends on
the content alone.  A reader that ends within such a spelling makes it fail for want of
bytes, and in no other way: the code is looked at first, then as many bytes are taken as it
announces, and only then is anything checked that they may fail.
-/

namespace MsgPack

/-! ## Missing bytes -/

/-- A computation fails for want of bytes. -/
def Starves {ρ α : Type} (step : EStateM Error ρ α) (state : ρ) : Prop :=
  ∃ needed remaining after, step state = .error (.insufficientData needed remaining) after

namespace Starves

variable {ρ α β : Type} {first : EStateM Error ρ α} {next : α → EStateM Error ρ β}

/-- A failure of the first step is a failure of the sequence. -/
theorem head {state : ρ} (starves : Starves first state) (next : α → EStateM Error ρ β) :
    Starves (first >>= next) state := by
  obtain ⟨needed, remaining, after, error⟩ := starves
  refine ⟨needed, remaining, after, ?_⟩
  simp only [bind, EStateM.bind, error]

/-- So is a failure of what follows a step that succeeds. -/
theorem tail {state middle : ρ} {found : α} (ok : first state = .ok found middle)
    (starves : Starves (next found) middle) : Starves (first >>= next) state := by
  obtain ⟨needed, remaining, after, error⟩ := starves
  refine ⟨needed, remaining, after, ?_⟩
  simp only [bind, EStateM.bind, ok, error]

end Starves

/-- A reader stands before the first of some bytes, and ends before the last of them. -/
def Reader.EndsWithin (reader : Reader) (bytes : Bytes) : Prop :=
  ∃ missing, bytes = reader.cursor.unread ++ missing ∧ missing ≠ []

namespace Reader.EndsWithin

variable {reader : Reader} {start others : Bytes}

theorem remaining_lt (ends : reader.EndsWithin start) : reader.remaining < start.length := by
  obtain ⟨missing, rfl, present⟩ := ends
  have positive := List.length_pos_iff.2 present
  rw [List.length_append, Cursor.length_unread, Reader.remaining]
  omega

theorem ne_nil (ends : reader.EndsWithin start) : start ≠ [] := by
  rintro rfl
  exact Nat.not_lt_zero _ ends.remaining_lt

/-- A reader that ends within two runs of bytes ends within the first, or has all of it. -/
theorem split (ends : reader.EndsWithin (start ++ others)) :
    reader.EndsWithin start ∨ ∃ rest, reader.cursor.unread = start ++ rest ∧
      ∀ middle : Reader, reader.Passed start middle → middle.EndsWithin others := by
  obtain ⟨missing, joined, present⟩ := ends
  have second (rest : Bytes) (unread : reader.cursor.unread = start ++ rest)
      (tail : others = rest ++ missing) : ∃ rest, reader.cursor.unread = start ++ rest ∧
        ∀ middle : Reader, reader.Passed start middle → middle.EndsWithin others := by
    refine ⟨rest, unread, fun middle passed => ⟨missing, ?_, present⟩⟩
    rw [passed.unread_eq unread]
    exact tail
  rcases List.append_eq_append_iff.1 joined with ⟨rest, unread, tail⟩ | ⟨lacking, head, tail⟩
  · exact .inr (second rest unread tail)
  · cases lacking with
    | nil =>
        rw [List.append_nil] at head
        exact .inr (second [] (by rw [head, List.append_nil]) tail.symm)
    | cons byte lacking => exact .inl ⟨byte :: lacking, head, List.cons_ne_nil _ _⟩

/-- A reader that ends within bytes and has the first of them ends within the others. -/
theorem following {code : UInt8} {following : Bytes} (ends : reader.EndsWithin (code :: start))
    (unread : reader.cursor.unread = code :: following) :
    ∃ missing, start = following ++ missing ∧ missing ≠ [] := by
  obtain ⟨missing, joined, present⟩ := ends
  rw [unread, List.cons_append] at joined
  exact ⟨missing, (List.cons.inj joined).2, present⟩

/-- A reader at its end ends within whatever could follow. -/
theorem cons_cases {code : UInt8} (ends : reader.EndsWithin (code :: start)) :
    reader.cursor.unread = [] ∨ ∃ following, reader.cursor.unread = code :: following := by
  obtain ⟨missing, joined, _⟩ := ends
  cases unread : reader.cursor.unread with
  | nil => exact .inl rfl
  | cons first following =>
      rw [unread, List.cons_append] at joined
      rw [(List.cons.inj joined).1]
      exact .inr ⟨following, rfl⟩

end Reader.EndsWithin

namespace Read

variable {α β : Type}

/-! ## Bytes of a known number -/

theorem starves_fixed {reader : Reader} {count : Nat} (short : reader.remaining < count) :
    Starves (fixed count) reader := by
  refine ⟨count, reader.remaining, reader, ?_⟩
  rw [Reader.remaining] at short
  simp only [fixed, take, Cursor.readArray_eq, Cursor.peekInto_eq, if_neg (Nat.not_le.2 short),
    bind, Except.bind, Reader.remaining]

theorem starves_advance {reader : Reader} {count : Nat} (short : reader.remaining < count) :
    Starves (advance count) reader := by
  refine ⟨count, reader.remaining, reader, ?_⟩
  rw [Reader.remaining] at short
  simp only [advance, take, Cursor.advance_of_lt short, bind, Except.bind, Reader.remaining]

theorem starves_ensure {reader : Reader} {needed : Nat} (short : reader.remaining < needed) :
    Starves (ensure needed) reader := by
  refine ⟨needed, reader.remaining, reader, ?_⟩
  rw [Reader.remaining] at short
  simp only [ensure, peek, Cursor.ensure, if_neg (Nat.not_le.2 short), Reader.remaining]

theorem starves_peekCode {reader : Reader} (done : reader.cursor.unread = []) :
    Starves peekCode reader :=
  ⟨1, 0, reader, by simp only [peekCode, peek, Cursor.peekByte_eq, done]⟩

/-- After a code, a read wants a number of bytes before anything else. -/
def Wants (code : UInt8) (read : Read α) (count : Nat) : Prop :=
  ∀ (reader : Reader) (following : Bytes), reader.cursor.unread = code :: following →
    following.length < count → Starves read reader

namespace Wants

variable {code : UInt8} {count : Nat}

theorem nothing (read : Read α) : Wants code read 0 :=
  fun _ _ _ short => absurd short (Nat.not_lt_zero _)

theorem bind {first : Read α} (wants : Wants code first count) (next : α → Read β) :
    Wants code (first >>= next) count :=
  fun reader following unread short => (wants reader following unread short).head next

theorem peekThen {next : UInt8 → Read α} (wants : Wants code (next code) count) :
    Wants code (peekCode >>= next) count := by
  intro reader following unread short
  exact .tail (peekCode_eq unread) (wants reader following unread short)

/-- A reader that ends within a code and the bytes that are wanted after it. -/
theorem starves {next : UInt8 → Read α} {bytes : Bytes} {reader : Reader}
    (wants : Wants code (next code) bytes.length) (ends : reader.EndsWithin (code :: bytes)) :
    Starves (peekCode >>= next) reader := by
  rcases ends.cons_cases with done | ⟨following, unread⟩
  · exact (starves_peekCode done).head next
  · obtain ⟨missing, rfl, present⟩ := ends.following unread
    have positive := List.length_pos_iff.2 present
    apply Starves.tail (peekCode_eq unread) (wants reader following unread _)
    rw [List.length_append]
    omega

theorem fixed (count : Nat) : Wants code (Read.fixed (1 + count)) count := by
  intro reader following unread short
  apply starves_fixed
  rw [Reader.remaining, ← Cursor.length_unread, unread, List.length_cons]
  omega

theorem suffix (width : Width) : Wants code (Read.suffix width) width.bytes := by
  cases width with
  | one => exact (fixed 1).bind _
  | two => exact (fixed 2).bind _
  | four => exact (fixed 4).bind _
  | eight =>
      intro reader following unread short
      obtain ⟨middle, skipped, passed⟩ :
          ∃ middle, Read.skipByte reader = .ok () middle ∧ reader.Passed [code] middle :=
        AcceptsAfter.skipByte.complete rfl unread
      refine .tail skipped (starves_fixed ?_)
      rw [Reader.remaining, ← Cursor.length_unread, passed.unread_eq unread]
      exact short

theorem integerOf (form : IntegerForm) :
    Wants code (Read.integerOf code form) form.payloadLength := by
  cases form with
  | positiveFix => exact nothing _
  | negativeFix => exact nothing _
  | unsigned width => exact (suffix width).bind _
  | signed width => exact (suffix width).bind _

theorem integerAs {form : IntegerForm} (known : (Format.ofCode code).integer? = some form)
    (expected : Expected) : Wants code (Read.integerAs expected) form.payloadLength := by
  apply peekThen
  simp only [known]
  exact integerOf form

theorem lengthOf {form : LengthForm} {bytes : Bytes} {length : Nat}
    (gives : form.Gives code bytes length) : Wants code (Read.lengthOf code form) bytes.length := by
  cases form with
  | fixed mask =>
      rcases gives with ⟨rfl, _⟩
      exact nothing _
  | sized width =>
      rw [gives.1]
      exact (suffix width).bind _

theorem extensionHeaderOf {form : ExtensionForm} {bytes : Bytes} {header : ExtensionHeader}
    (gives : form.Gives bytes header) :
    Wants code (Read.extensionHeaderOf form) bytes.length := by
  rcases gives with ⟨start, typeByte, rfl, _, given⟩
  cases form with
  | fixed size =>
      rw [given.1]
      exact (fixed 1).bind _
  | sized width =>
      have count : 2 + width.bytes = 1 + (width.bytes + 1) := by omega
      rw [List.length_append, List.length_singleton, given.1, Read.extensionHeaderOf, count]
      exact (fixed _).bind _

end Wants

/-! ## What contents say to a read -/

/-- A read accepts the spellings of the contents that say something to it, with the result
that they say, and starves within each of them. -/
structure Single (read : Read α) (tells : Content → α → Prop) : Prop where
  accepts : Accepts read fun bytes result _ =>
    ∃ content, content.Stands bytes ∧ tells content result
  starves : ∀ {content : Content} {bytes : Bytes} {result : α} {reader : Reader},
    content.Stands bytes → tells content result → reader.EndsWithin bytes → Starves read reader

/-- The same of a read that relies on the next code. -/
structure SingleAfter (code : UInt8) (read : Read α) (tells : Content → α → Prop) : Prop where
  accepts : AcceptsAfter code read fun bytes result _ =>
    ∃ content, content.After code bytes ∧ tells content result
  starves : ∀ {content : Content} {bytes following : Bytes} {result : α} {reader : Reader},
    content.After code bytes → tells content result → reader.EndsWithin (code :: bytes) →
      reader.cursor.unread = code :: following → Starves read reader

/-- What a read makes of the bytes of a payload, of which it takes a given number. -/
structure Payload (length : Nat) (read : Read α) (tells : Bytes → α → Prop) : Prop where
  accepts : Accepts read fun bytes result _ => bytes.length = length ∧ tells bytes result
  starves : ∀ {bytes : Bytes} {result : α} {reader : Reader},
    bytes.length = length → tells bytes result → reader.EndsWithin bytes → Starves read reader

theorem Single.of_codes {next : UInt8 → Read α} {tells : Content → α → Prop}
    (each : ∀ code, SingleAfter code (next code) tells) : Single (peekCode >>= next) tells where
  accepts := by
    apply accepts_peekThen (fun code => (each code).accepts)
    rintro result left ⟨content, stands, _⟩
    exact stands
  starves := by
    intro content bytes result reader stands said ends
    cases bytes with
    | nil => exact stands.elim
    | cons code bytes =>
        rcases ends.cons_cases with done | ⟨following, unread⟩
        · exact (starves_peekCode done).head next
        · exact .tail (peekCode_eq unread) ((each code).starves stands said ends unread)

namespace Payload

variable {length : Nat} {tells : Bytes → α → Prop}

/-- The bytes themselves. -/
theorem fixed (length : Nat) : Payload length (Read.fixed length) fun bytes result =>
    result = bytes where
  accepts := accepts_fixed length
  starves := by
    rintro bytes _ reader rfl _ ends
    exact starves_fixed ends.remaining_lt

theorem fixed_of_eq {count : Nat} (same : length = count) :
    Payload length (Read.fixed count) fun bytes result => result = bytes := by
  rw [same]
  exact fixed count

/-- The bytes do not matter. -/
theorem advance (length : Nat) : Payload length (Read.advance length) fun _ _ => True where
  accepts := (accepts_advance length).congr fun _ _ _ => and_iff_left trivial
  starves := by
    rintro bytes _ reader rfl _ ends
    exact starves_advance ends.remaining_lt

/-- A converted result belongs to the same bytes. -/
theorem mapped {read : Read α} (payload : Payload length read tells) (convert : α → β) :
    Payload length (return convert (← read)) fun bytes result =>
      ∃ found, tells bytes found ∧ result = convert found where
  accepts := by
    apply (payload.accepts.bind fun found => accepts_pure (convert found)).congr
    intro bytes result left
    constructor
    · rintro ⟨whole, found, told, rfl⟩
      exact ⟨found, bytes, [], (List.append_nil bytes).symm, ⟨whole, told⟩, rfl, rfl⟩
    · rintro ⟨found, start, _, rfl, ⟨whole, told⟩, rfl, rfl⟩
      rw [List.append_nil]
      exact ⟨whole, found, told, rfl⟩
  starves := by
    rintro bytes _ reader whole ⟨found, told, rfl⟩ ends
    exact (payload.starves whole told ends).head _

/-- No payload is accepted. -/
theorem throw (failure : Error) :
    Payload length (throw failure : Read α) fun _ _ => False where
  accepts := {
    complete := fun given _ => given.2.elim
    sound := fun ok => by cases ok }
  starves := fun _ said _ => said.elim

/-- What is checked before a payload is read is part of what the payload must say. -/
theorem guarded {condition : Prop} [Decidable condition] {read : Read α}
    (payload : condition → Payload length read tells) (failure : Error) :
    Payload length (if condition then read else MonadExcept.throw failure) fun bytes result =>
      condition ∧ tells bytes result := by
  by_cases holds : condition
  · rw [if_pos holds]
    simpa only [holds, true_and] using payload holds
  · rw [if_neg holds]
    simpa only [holds, false_and] using throw failure

end Payload

namespace SingleAfter

variable {code : UInt8} {tells : Content → α → Prop}

/-- A failing read, where nothing that starts with the code says anything to it. -/
theorem throw (failure : Error)
    (silent : ∀ content bytes result, content.After code bytes → ¬ tells content result) :
    SingleAfter code (throw failure : Read α) tells where
  accepts := (AcceptsAfter.throw failure).congr fun bytes result _ =>
    iff_of_false (fun ⟨content, after, said⟩ => silent content bytes result after said) id
  starves := fun after said _ _ => absurd said (silent _ _ _ after)

/-- A value of fixed size, whose bytes are all that it says. -/
theorem fixed {size : Nat} {read : Read α} (word : Bytes → Content) (value : Bytes → α)
    (announced : (Format.ofCode code).announcement code = .fixed size)
    (stands : ∀ bytes, bytes.length = size → (word bytes).After code bytes)
    (accepted : AcceptsAfter code read fun bytes result _ =>
      bytes.length = size ∧ result = value bytes)
    (wants : Wants code read size)
    (same : ∀ bytes result, tells (word bytes) result ↔ result = value bytes) :
    SingleAfter code read tells where
  accepts := by
    apply accepted.congr
    intro bytes result left
    constructor
    · rintro ⟨content, after, said⟩
      have whole := after.length_of_fixed announced
      rw [after.unique (stands bytes whole)] at said
      exact ⟨whole, (same bytes result).1 said⟩
    · rintro ⟨whole, given⟩
      exact ⟨word bytes, stands bytes whole, (same bytes result).2 given⟩
  starves := by
    intro content bytes following result reader after _ ends unread
    obtain ⟨missing, rfl, present⟩ := ends.following unread
    have whole := after.length_of_fixed announced
    have positive := List.length_pos_iff.2 present
    rw [List.length_append] at whole
    exact wants reader following unread (by omega)

end SingleAfter

/-- A header, and then the payload whose length it gives. -/
theorem Single.headerThen {η : Type} {header : Read η} {next : η → Read α}
    {gives : Bytes → η → Prop} {size : η → Nat} {told : η → Bytes → α → Prop}
    {tells : Content → α → Prop} (accepted : Accepts header fun bytes found _ => gives bytes found)
    (starved : ∀ {start : Bytes} {found : η} {reader : Reader}, gives start found →
      reader.EndsWithin start → Starves header reader)
    (payload : ∀ found, Payload (size found) (next found) (told found))
    (same : ∀ bytes result, (∃ content, Content.Stands content bytes ∧ tells content result) ↔
      ∃ found start others, bytes = start ++ others ∧ gives start found ∧
        others.length = size found ∧ told found others result) :
    Single (header >>= next) tells where
  accepts := (accepted.bind fun found => (payload found).accepts).congr
    fun bytes result _ => same bytes result
  starves := by
    intro content bytes result reader stands said ends
    obtain ⟨found, start, others, rfl, given, whole, meant⟩ :=
      (same bytes result).1 ⟨content, stands, said⟩
    rcases ends.split with early | ⟨rest, unread, late⟩
    · exact (starved given early).head next
    · obtain ⟨middle, ok, passed⟩ := accepted.complete given unread
      exact .tail ok ((payload found).starves whole meant (late middle passed))

end Read

end MsgPack
