import MsgPack.Proofs.Reader.Grammar

/-!
# Codes and bytes of a known number

The grammars of the reads that everything else is put together from: bytes of a known number,
the check of how many bytes are left, and a code with the bytes of a known number after it.
-/

namespace MsgPack

/-! ## Moves of the cursor -/

/-- A move passes over the next bytes of a reader. -/
theorem Reader.passed_of_advance {reader : Reader} {next : Cursor} {count : Nat}
    (moved : reader.cursor.advance count = .ok next) :
    (reader.cursor.unread.take count).length = count ∧
      reader.Passed (reader.cursor.unread.take count) { reader with cursor := next } := by
  obtain ⟨enough, unread, consumed, _⟩ := Cursor.of_advance_eq_ok moved
  have length : (reader.cursor.unread.take count).length = count := by
    rw [List.length_take, Cursor.length_unread]
    exact Nat.min_eq_left enough
  refine ⟨length, ?_, ?_, rfl, rfl⟩
  · rw [unread, List.take_append_drop]
  · rw [length]
    exact consumed

/-- Bytes that are there can be passed over. -/
theorem Cursor.advance_append {cursor : Cursor} {bytes rest : Bytes}
    (next : cursor.unread = bytes ++ rest) :
    ∃ after, cursor.advance bytes.length = .ok after := by
  have enough : bytes.length ≤ cursor.remaining := by
    rw [← length_unread, next, List.length_append]
    exact Nat.le_add_right _ _
  obtain ⟨after, moved, _⟩ := exists_advance enough
  exact ⟨after, moved⟩

/-- Bytes that are there can be peeked at. -/
theorem Cursor.peekInto_append {cursor : Cursor} {bytes rest : Bytes}
    (next : cursor.unread = bytes ++ rest) : cursor.peekInto bytes.length = .ok bytes := by
  have enough : bytes.length ≤ cursor.remaining := by
    rw [← length_unread, next, List.length_append]
    exact Nat.le_add_right _ _
  rw [peekInto_eq, if_pos enough, next, List.take_left]

namespace Read

variable {α β : Type}

/-! ## Bytes of a known number -/

/-- Moving over bytes accepts any bytes of their number. -/
theorem accepts_advance (count : Nat) :
    Accepts (advance count) fun bytes _ _ => bytes.length = count where
  complete := by
    rintro bytes rest _ reader rfl next
    obtain ⟨after, moved⟩ := Cursor.advance_append next
    refine ⟨{ reader with cursor := after }, ?_, ?_⟩
    · simp only [advance, take, moved, bind, Except.bind, pure, Except.pure]
    · have passed := (Reader.passed_of_advance moved).2
      rw [next, List.take_left] at passed
      exact passed
  sound := by
    intro reader after _ ok
    simp only [advance, take, bind, Except.bind, pure, Except.pure] at ok
    cases moved : reader.cursor.advance count with
    | error failure =>
        rw [moved] at ok
        cases ok
    | ok next =>
        rw [moved] at ok
        cases ok
        exact ⟨_, Reader.passed_of_advance moved⟩

/-- An array accepts any bytes of its length, and holds them. -/
theorem accepts_fixed (count : Nat) :
    Accepts (fixed count) fun bytes result _ => bytes.length = count ∧ result = bytes where
  complete := by
    rintro bytes rest _ reader ⟨rfl, rfl⟩ next
    obtain ⟨after, moved⟩ := Cursor.advance_append next
    refine ⟨{ reader with cursor := after }, ?_, ?_⟩
    · simp only [fixed, take, Cursor.readArray_eq, Cursor.peekInto_append next, moved, bind,
        Except.bind, pure, Except.pure]
    · have passed := (Reader.passed_of_advance moved).2
      rw [next, List.take_left] at passed
      exact passed
  sound := by
    intro reader after result ok
    simp only [fixed, take, Cursor.readArray_eq, Cursor.peekInto_eq, bind, Except.bind, pure,
      Except.pure] at ok
    split at ok
    · rename_i taken next read
      cases ok
      split at read
      · cases read
      · rename_i bytes peeked
        split at peeked
        · cases peeked
          split at read
          · cases read
          · rename_i moved
            cases read
            obtain ⟨length, passed⟩ := Reader.passed_of_advance moved
            exact ⟨_, ⟨length, rfl⟩, passed⟩
        · cases peeked
    · cases ok

/-- A check of how much is left reads nothing. -/
theorem accepts_ensure (needed : Nat) :
    Accepts (ensure needed) fun bytes _ left => bytes = [] ∧ needed ≤ left where
  complete := by
    rintro bytes rest _ reader ⟨rfl, enough⟩ next
    refine ⟨reader, ?_, .refl reader⟩
    rw [List.nil_append] at next
    rw [← next, Cursor.length_unread] at enough
    simp only [ensure, peek, Cursor.ensure, if_pos enough]
  sound := by
    intro reader after _ ok
    simp only [ensure, peek, Cursor.ensure] at ok
    by_cases enough : needed ≤ reader.cursor.remaining
    · rw [if_pos enough] at ok
      cases ok
      exact ⟨[], ⟨rfl, enough⟩, .refl reader⟩
    · rw [if_neg enough] at ok
      cases ok

/-! ## Codes -/

theorem peekCode_eq {reader : Reader} {code : UInt8} {following : Bytes}
    (next : reader.cursor.unread = code :: following) : peekCode reader = .ok code reader := by
  simp only [peekCode, peek, Cursor.peekByte_eq, next]

/-- A successful look at the next code leaves it unread. -/
theorem unread_of_peekCode {reader after : Reader} {code : UInt8}
    (ok : peekCode reader = .ok code after) :
    ∃ following, reader.cursor.unread = code :: following ∧ after = reader := by
  simp only [peekCode, peek, Cursor.peekByte_eq] at ok
  cases unread : reader.cursor.unread with
  | nil =>
      rw [unread] at ok
      cases ok
  | cons first following =>
      rw [unread] at ok
      cases ok
      exact ⟨following, rfl, rfl⟩

/-- What follows a look at the next code may rely on it. -/
theorem accepts_peekThen {next : UInt8 → Read α} {grammar : Bytes → α → Nat → Prop}
    (each : ∀ code, AcceptsAfter code (next code) fun bytes => grammar (code :: bytes))
    (present : ∀ result left, ¬ grammar [] result left) :
    Accepts (peekCode >>= next) grammar where
  complete := by
    intro bytes rest result reader given following
    cases bytes with
    | nil => exact absurd given (present _ _)
    | cons code bytes =>
        obtain ⟨after, ok, passed⟩ := (each code).complete given following
        exact ⟨after, bind_eq_ok.2 ⟨code, reader, peekCode_eq following, ok⟩, passed⟩
  sound := by
    intro reader after result ok
    rcases bind_eq_ok.1 ok with ⟨code, middle, peeked, rest⟩
    obtain ⟨following, unread, rfl⟩ := unread_of_peekCode peeked
    obtain ⟨bytes, given, passed⟩ := (each code).sound unread rest
    exact ⟨code :: bytes, given, passed⟩

namespace AcceptsAfter

variable {code : UInt8}

/-- A second look finds the same code. -/
theorem peekThen {next : UInt8 → Read α} {grammar : Bytes → α → Nat → Prop}
    (accepted : AcceptsAfter code (next code) grammar) :
    AcceptsAfter code (peekCode >>= next) grammar where
  complete := by
    intro bytes rest result reader given following
    rw [bind_of_ok (peekCode_eq following)]
    exact accepted.complete given following
  sound := by
    intro reader after following result unread ok
    rw [bind_of_ok (peekCode_eq unread)] at ok
    exact accepted.sound unread ok

/-- A sequence accepts what its parts accept one after the other. -/
theorem bind {first : Read α} {next : α → Read β} {head : Bytes → α → Nat → Prop}
    {tail : α → Bytes → β → Nat → Prop} (accepted : AcceptsAfter code first head)
    (rest : ∀ found, Accepts (next found) (tail found)) :
    AcceptsAfter code (first >>= next) fun bytes result left => ∃ found start others,
      bytes = start ++ others ∧ head start found (others.length + left) ∧
        tail found others result left where
  complete := by
    rintro _ following result reader ⟨found, start, others, rfl, inHead, inTail⟩ next
    have split : reader.cursor.unread = code :: start ++ (others ++ following) := by
      rw [next, List.cons_append, List.cons_append, List.append_assoc]
    rw [← List.length_append] at inHead
    obtain ⟨middle, ok, passed⟩ := accepted.complete inHead split
    obtain ⟨after, done, passedRest⟩ := (rest found).complete inTail (passed.unread_eq split)
    exact ⟨after, bind_eq_ok.2 ⟨found, middle, ok, done⟩, passed.trans passedRest⟩
  sound := by
    intro reader after following result unread ok
    rcases bind_eq_ok.1 ok with ⟨found, middle, first, second⟩
    obtain ⟨start, inHead, passed⟩ := accepted.sound unread first
    obtain ⟨others, inTail, passedRest⟩ := (rest found).sound second
    rw [passedRest.remaining] at inHead
    exact ⟨start ++ others, ⟨found, start, others, rfl, inHead, inTail⟩, passed.trans passedRest⟩

theorem congr {read : Read α} {grammar other : Bytes → α → Nat → Prop}
    (accepted : AcceptsAfter code read grammar)
    (same : ∀ bytes result left, other bytes result left ↔ grammar bytes result left) :
    AcceptsAfter code read other where
  complete := fun given next => accepted.complete ((same _ _ _).1 given) next
  sound := fun unread ok => by
    obtain ⟨bytes, given, passed⟩ := accepted.sound unread ok
    exact ⟨bytes, (same _ _ _).2 given, passed⟩

/-- A converted result belongs to the same bytes. -/
theorem mapped {read : Read α} {grammar : Bytes → α → Nat → Prop}
    (accepted : AcceptsAfter code read grammar) (convert : α → β) :
    AcceptsAfter code (return convert (← read)) fun bytes result left =>
      ∃ found, grammar bytes found left ∧ result = convert found := by
  apply (accepted.bind fun found => accepts_pure (convert found)).congr
  intro bytes result left
  constructor
  · rintro ⟨found, given, rfl⟩
    exact ⟨found, bytes, [], (List.append_nil bytes).symm, by simpa using given, rfl, rfl⟩
  · rintro ⟨found, start, _, rfl, given, rfl, rfl⟩
    exact ⟨found, by simpa using given, rfl⟩

/-- A failing read accepts nothing. -/
theorem throw (failure : Error) :
    AcceptsAfter code (throw failure : Read α) fun _ _ _ => False where
  complete := by
    intro _ _ _ _ impossible
    exact impossible.elim
  sound := by
    intro _ _ _ _ _ ok
    cases ok

/-- A code alone. -/
theorem skipByte : AcceptsAfter code Read.skipByte fun bytes _ _ => bytes = [] where
  complete := by
    rintro _ rest _ reader rfl next
    have unread : reader.cursor.unread ≠ [] := by
      rw [next]
      exact List.cons_ne_nil code rest
    have passed := (Reader.passed_of_advance (Cursor.advance_one unread)).2
    rw [next] at passed
    exact ⟨_, rfl, passed⟩
  sound := by
    intro reader after following _ unread ok
    cases ok
    have moved := Cursor.advance_one (unread ▸ List.cons_ne_nil code following)
    have passed := (Reader.passed_of_advance moved).2
    rw [unread] at passed
    exact ⟨[], rfl, passed⟩

/-- A code read together with the bytes after it. -/
theorem fixed (count : Nat) :
    AcceptsAfter code (Read.fixed (1 + count)) fun bytes result _ =>
      bytes.length = count ∧ result = code :: bytes where
  complete := by
    rintro bytes rest _ reader ⟨rfl, rfl⟩ next
    exact (accepts_fixed _).complete ⟨Nat.add_comm _ _, rfl⟩ next
  sound := by
    intro reader after following result unread ok
    obtain ⟨bytes, ⟨length, rfl⟩, passed⟩ := (accepts_fixed _).sound ok
    cases result with
    | nil =>
        rw [List.length_nil] at length
        omega
    | cons first bytes =>
        have same := passed.unread
        rw [unread, List.cons_append] at same
        injection same with same
        subst same
        rw [List.length_cons] at length
        exact ⟨bytes, ⟨by omega, rfl⟩, passed⟩

/-- The bytes after a code, of whatever width. -/
theorem suffix (width : Width) :
    AcceptsAfter code (Read.suffix width) fun bytes result _ =>
      bytes.length = width.bytes ∧ result = bytes := by
  have together (count : Nat) :
      AcceptsAfter code (return (← Read.fixed (1 + count)).tail) fun bytes result _ =>
        bytes.length = count ∧ result = bytes := by
    apply ((fixed count).mapped List.tail).congr
    intro bytes result left
    constructor
    · rintro ⟨length, rfl⟩
      exact ⟨_, ⟨length, rfl⟩, rfl⟩
    · rintro ⟨_, ⟨length, rfl⟩, rfl⟩
      exact ⟨length, rfl⟩
  cases width with
  | one => exact together 1
  | two => exact together 2
  | four => exact together 4
  | eight =>
      apply (skipByte.bind fun _ => accepts_fixed 8).congr
      intro bytes result left
      constructor
      · rintro ⟨length, rfl⟩
        exact ⟨(), [], _, rfl, rfl, length, rfl⟩
      · rintro ⟨_, _, others, rfl, rfl, length, rfl⟩
        exact ⟨length, rfl⟩

end AcceptsAfter

end Read

end MsgPack
