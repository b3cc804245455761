import MsgPack.Proofs.Datum.Composed
import MsgPack.Proofs.Reader.Token

/-!
# Reads that open nothing

A read that opens no structure does not see how deep the reader is, nor how deep it may go.  At
each place of a source it ends in one way, and never because something is nested too deep.

The headers of structures are such reads, and each takes at least one byte.  So there are no
more structures inside each other than there are bytes.
-/

namespace MsgPack

/-- A result or a failure, with the state that is left. -/
def ended {ρ α : Type} (outcome : Except Error α) (after : ρ) : EStateM.Result Error ρ α :=
  match outcome with
  | .ok result => .ok result after
  | .error failure => .error failure after

/-- Whether an outcome is none of nesting too deep. -/
def InDepth {α : Type} (outcome : Except Error α) : Prop :=
  ∀ limit, outcome ≠ .error (.depthExceeded limit)

namespace InDepth

variable {α : Type}

theorem ok (result : α) : InDepth (.ok result) := by
  rintro limit ⟨⟩

/-- A failure that says nothing of the depth. -/
theorem error {failure : Error} (placeless : failure.Placeless) :
    InDepth (.error failure : Except Error α) := by
  rintro limit ⟨⟩
  exact placeless

/-- Bytes that are missing. -/
theorem missing (needed remaining : Nat) :
    InDepth (.error (.insufficientData needed remaining) : Except Error α) := by
  rintro limit ⟨⟩

/-- A code that is refused. -/
theorem refused (code : UInt8) (expected : Expected) :
    InDepth (.error (.invalidCode code expected) : Except Error α) := by
  rintro limit ⟨⟩

end InDepth

namespace Read

variable {α β : Type}

/-- A read ends in one way at each place of a source, does not go back there, and does not
speak of its depth. -/
def Flat (read : Read α) : Prop :=
  ∀ cursor : Cursor, ∃ (outcome : Except Error α) (last : Cursor),
    InDepth outcome ∧ last.remaining ≤ cursor.remaining ∧
      ∀ depth maxDepth, read ⟨cursor, depth, maxDepth⟩ = ended outcome ⟨last, depth, maxDepth⟩

namespace Flat

/-- A read that does not move. -/
theorem still {read : Read α} (outcome : Cursor → Except Error α)
    (shallow : ∀ cursor, InDepth (outcome cursor))
    (ends : ∀ reader, read reader = ended (outcome reader.cursor) reader) : Flat read :=
  fun cursor => ⟨outcome cursor, cursor, shallow cursor, Nat.le_refl _, fun _ _ => ends _⟩

theorem bind {first : Read α} {next : α → Read β} (head : Flat first)
    (tail : ∀ found, Flat (next found)) : Flat (first >>= next) := by
  intro cursor
  obtain ⟨outcome, middle, shallow, le, ends⟩ := head cursor
  cases outcome with
  | error failure =>
      refine ⟨.error failure, middle, ?_, le, fun depth maxDepth =>
        bind_of_error (ends depth maxDepth) next⟩
      rintro limit ⟨⟩
      exact shallow limit rfl
  | ok found =>
      obtain ⟨outcome, last, shallow, further, ends'⟩ := tail found middle
      refine ⟨outcome, last, shallow, Nat.le_trans further le, fun depth maxDepth => ?_⟩
      rw [bind_of_ok (ends depth maxDepth)]
      exact ends' depth maxDepth

/-- A look ends as it does at the place where it is taken. -/
theorem peek {look : Cursor → Except Error α} (shallow : ∀ cursor, InDepth (look cursor)) :
    Flat (peek look) := by
  apply still look shallow
  intro reader
  simp only [Read.peek]
  cases look reader.cursor <;> rfl

/-- What is taken is passed over, or missing. -/
theorem take {step : Cursor → Except Error (α × Cursor)}
    (each : ∀ cursor, (∃ found next, step cursor = .ok (found, next) ∧
      next.remaining ≤ cursor.remaining) ∨
        ∃ needed remaining, step cursor = .error (.insufficientData needed remaining)) :
    Flat (take step) := by
  intro cursor
  simp only [Read.take]
  rcases each cursor with ⟨found, next, taken, le⟩ | ⟨needed, remaining, missing⟩
  · rw [taken]
    exact ⟨.ok found, next, .ok found, le, fun _ _ => rfl⟩
  · rw [missing]
    exact ⟨.error _, cursor, .missing _ _, Nat.le_refl _, fun _ _ => rfl⟩

/-- A move goes on, or bytes are missing. -/
theorem advance_cases (cursor : Cursor) (count : Nat) :
    (∃ next, cursor.advance count = .ok next ∧ next.remaining ≤ cursor.remaining) ∨
      cursor.advance count = .error (.insufficientData count cursor.remaining) := by
  rcases Nat.lt_or_ge cursor.remaining count with short | enough
  · exact .inr (Cursor.advance_of_lt short)
  · obtain ⟨next, moved, _, _, remaining, _⟩ := Cursor.exists_advance enough
    exact .inl ⟨next, moved, remaining ▸ Nat.sub_le _ _⟩

theorem skipByte : Flat skipByte := by
  apply take
  intro cursor
  refine .inl ⟨(), cursor.skipByte, rfl, ?_⟩
  by_cases ended : cursor.unread = []
  · rw [Cursor.skipByte_of_ended ended]
    exact Nat.le_of_eq (Cursor.remaining_noteOverrun cursor)
  · obtain ⟨_, _, _, remaining, _⟩ := Cursor.of_advance_eq_ok (Cursor.advance_one ended)
    exact remaining ▸ Nat.sub_le _ _

theorem advance (count : Nat) : Flat (advance count) := by
  apply take
  intro cursor
  rcases advance_cases cursor count with ⟨next, moved, le⟩ | missing
  · exact .inl ⟨(), next, by rw [moved]; rfl, le⟩
  · exact .inr ⟨_, _, by rw [missing]; rfl⟩

theorem fixed (count : Nat) : Flat (fixed count) := by
  apply take
  intro cursor
  rw [Cursor.readArray_eq, Cursor.peekInto_eq]
  split
  · rcases advance_cases cursor count with ⟨next, moved, le⟩ | missing
    · exact .inl ⟨_, next, by rw [moved]; rfl, le⟩
    · exact .inr ⟨_, _, by rw [missing]; rfl⟩
  · exact .inr ⟨_, _, rfl⟩

/-- A look ahead ends as what it looks at does, at the place where it is taken. -/
theorem lookAhead {read : Read α} (ahead : Flat read) : Flat (lookAhead read) := by
  intro cursor
  obtain ⟨outcome, last, shallow, _, ends⟩ := ahead cursor
  refine ⟨outcome, cursor, shallow, Nat.le_refl _, fun depth maxDepth => ?_⟩
  rw [Read.lookAhead, ends depth maxDepth]
  cases outcome <;> rfl

end Flat

/-- Composed reads that open nothing end in one way at each place. -/
theorem Composed.flat {deep ready : Bool} {read : Read α} (composed : Composed deep ready read)
    (shallow : deep = false) : Flat read := by
  induction composed with
  | pure result => exact .still (fun _ => .ok result) (fun _ => .ok result) fun _ => rfl
  | @throw _ _ _ failure placeless =>
      exact .still (fun _ => .error failure) (fun _ => .error placeless) fun _ => rfl
  | bind _ _ head tail => exact (head shallow).bind fun found => tail found shallow
  | @peekThen _ _ _ next _ taken =>
      have look : Flat Read.peekCode := by
        apply Flat.peek
        intro cursor
        rw [Cursor.peekByte_eq]
        split
        · exact .ok _
        · exact .missing _ _
      refine look.bind fun code => ?_
      by_cases refused : Refuses code (next code)
      · obtain ⟨expected, refuses⟩ := refused
        rw [refuses]
        exact .still (fun _ => .error _) (fun _ => .refused code expected) fun _ => rfl
      · exact taken code refused shallow
  | skipByte => exact .skipByte
  | advance count => exact .advance count
  | fixed count => exact .fixed count
  | ensure needed =>
      apply Flat.peek
      intro cursor
      unfold Cursor.ensure
      split
      · exact .ok _
      · exact .missing _ _
  | position => exact .still (fun cursor => .ok cursor.consumed) (fun _ => .ok _) fun _ => rfl
  | lookAhead _ _ ahead => exact (ahead shallow).lookAhead
  | tooDeep | nested | withBudget | span => cases shallow

/-! ## Headers -/

/-- A read takes at least one byte, if it succeeds. -/
def Advances (read : Read α) : Prop :=
  ∀ ⦃reader after : Reader⦄ ⦃result : α⦄, read reader = .ok result after →
    after.remaining < reader.remaining

/-- A check takes nothing more. -/
theorem Advances.checked {first : Read α} {next : α → Read β} (head : Advances first)
    (still : ∀ found ⦃reader after : Reader⦄ ⦃result : β⦄,
      next found reader = .ok result after → after.remaining = reader.remaining) :
    Advances (first >>= next) := by
  intro reader after result ok
  rcases bind_eq_ok.1 ok with ⟨found, middle, taken, rest⟩
  rw [still found rest]
  exact head taken

/-- A read that relies on the next code takes that code. -/
theorem advances_peekThen {next : UInt8 → Read α}
    (each : ∀ code, ∃ grammar, AcceptsAfter code (next code) grammar) :
    Advances (peekCode >>= next) := by
  intro reader after result ok
  rcases bind_eq_ok.1 ok with ⟨code, middle, peeked, rest⟩
  obtain ⟨following, unread, rfl⟩ := unread_of_peekCode peeked
  obtain ⟨grammar, accepts⟩ := each code
  obtain ⟨bytes, _, passed⟩ := accepts.sound unread rest
  rw [passed.remaining, List.length_cons]
  omega

theorem advances_lengthAs (form? : Format → Option LengthForm) (expected : Expected) :
    Advances (lengthAs form? expected) := by
  apply advances_peekThen
  intro code
  cases form? (Format.ofCode code) with
  | some form => exact ⟨_, .lengthOf form⟩
  | none => exact ⟨_, .throw _⟩

theorem advances_countAs (form? : Format → Option LengthForm) (expected : Expected)
    (needed : Nat → Nat) :
    Advances (do
      let count ← lengthAs form? expected
      ensure (needed count)
      return count) := by
  apply (advances_lengthAs form? expected).checked
  intro count reader after result ok
  rcases bind_eq_ok.1 ok with ⟨_, middle, enough, same⟩
  obtain ⟨_, ⟨rfl, _⟩, passed⟩ := (accepts_ensure (needed count)).sound enough
  cases same
  rw [passed.remaining, List.length_nil, Nat.zero_add]

theorem advances_arrayHeader : Advances arrayHeader :=
  advances_countAs Format.array? .array id

theorem advances_mapHeader : Advances mapHeader :=
  advances_countAs Format.map? .map (· * 2)

theorem advances_extensionHeader : Advances extensionHeader := by
  apply advances_peekThen
  intro code
  cases (Format.ofCode code).extension? with
  | some form => exact ⟨_, .extensionHeaderOf form⟩
  | none => exact ⟨_, .throw _⟩

theorem advances_arrayOf (length : Nat) (typeName : String) :
    Advances (arrayOf length typeName) := by
  apply advances_arrayHeader.checked
  intro count reader after result checked
  split at checked
  · cases checked
    rfl
  · cases checked

theorem advances_token : Advances token := by
  intro reader after announced ok
  obtain ⟨bytes, given, passed⟩ := accepts_token.sound ok
  have taken : 0 < bytes.length := by
    cases announced with
    | none => cases given <;> exact Nat.succ_pos _
    | some count => exact given.1.length_pos
  rw [passed.remaining]
  exact Nat.lt_add_of_pos_left taken

end Read

end MsgPack
