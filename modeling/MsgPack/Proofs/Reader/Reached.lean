import MsgPack.Proofs.Reader.Coordinates
import MsgPack.Proofs.Reader.Segments

/-!
# Readers that operations reach

However long a reader is used, and whatever fails on the way, its cursor denotes the position up
to which bytes were read, and stands before an unread byte as long as there is one.  All that a
composed read does to a cursor is to move it, so what every move keeps is kept throughout.  A look
ahead moves a copy of the cursor as the same operation would move the cursor itself.

A move within the span must not be asked for unless the span holds the bytes.  The elementary
reads that take a byte for granted only follow a look at it, so no cursor ever notes a mistake.
-/

namespace MsgPack

/-! ## What moves keep -/

namespace Read

variable {α β : Type} {kept : Cursor → Prop} {reader : Reader}

theorem keeps_take {step : Cursor → Except Error (α × Cursor)} (before : kept reader.cursor)
    (moves : ∀ taken next, step reader.cursor = .ok (taken, next) → kept next) :
    kept (readerAfter (take step reader)).cursor := by
  unfold take
  cases taken : step reader.cursor with
  | ok found => exact moves _ _ taken
  | error failure => exact before

theorem keeps_peek (look : Cursor → Except Error α) (before : kept reader.cursor) :
    kept (readerAfter (peek look reader)).cursor := by
  unfold peek
  cases look reader.cursor <;> exact before

theorem keeps_advance (moves : ∀ ⦃cursor next : Cursor⦄ ⦃count : Nat⦄, kept cursor →
      cursor.advance count = .ok next → kept next) (before : kept reader.cursor) (count : Nat) :
    kept (readerAfter (advance count reader)).cursor := by
  apply keeps_take before
  intro _ after taken
  cases moved : reader.cursor.advance count with
  | ok last =>
      rw [moved] at taken
      cases taken
      exact moves before moved
  | error failure =>
      rw [moved] at taken
      cases taken

theorem keeps_bind {first : Read α} {next : α → Read β}
    (head : kept (readerAfter (first reader)).cursor)
    (tail : ∀ result after, first reader = .ok result after → kept after.cursor →
      kept (readerAfter (next result after)).cursor) :
    kept (readerAfter ((first >>= next) reader)).cursor := by
  simp only [bind, EStateM.bind]
  cases ended : first reader with
  | ok result after =>
      rw [ended] at head
      exact tail result after ended head
  | error failure after =>
      rw [ended] at head
      exact head

theorem keeps_nested {inner : Read α} (before : kept reader.cursor)
    (inside : kept (readerAfter (inner reader.entered)).cursor) :
    kept (readerAfter (nested inner reader)).cursor := by
  rcases Nat.eq_zero_or_pos reader.budget with full | room
  · rw [nested_of_budget_zero inner full]
    exact before
  · have opens : ¬ reader.maxDepth ≤ reader.depth := by
      rw [Reader.budget] at room
      omega
    rw [Reader.entered] at inside
    simp only [nested, enterNested, if_neg opens]
    cases ended : inner { reader with depth := reader.depth + 1 } with
    | ok result after =>
        rw [ended] at inside
        exact inside
    | error failure after =>
        rw [ended] at inside
        exact inside

theorem keeps_span {skipping : Read Unit} (inside : kept (readerAfter (skipping reader)).cursor) :
    kept (readerAfter (span skipping reader)).cursor := by
  unfold span
  cases ended : skipping reader with
  | ok result after =>
      rw [ended] at inside
      simp only
      split <;> exact inside
  | error failure after =>
      rw [ended] at inside
      exact inside

/-- What every move of a cursor keeps is kept by composed reads, whether they fail or not. -/
theorem Composed.keeps {deep ready : Bool} {read : Read α} (composed : Composed deep ready read)
    (moves : ∀ ⦃cursor next : Cursor⦄ ⦃count : Nat⦄, kept cursor →
      cursor.advance count = .ok next → kept next)
    (before : kept reader.cursor) (next : ready = true → reader.cursor.unread ≠ []) :
    kept (readerAfter (read reader)).cursor := by
  induction composed generalizing reader with
  | pure result => exact before
  | throw _ => exact before
  | bind _ _ head tail =>
      exact keeps_bind (head before next) fun result after _ still => tail result still nofun
  | @peekThen _ _ _ following _ taken =>
      refine keeps_bind (keeps_peek _ before) fun code after looked still => ?_
      obtain ⟨rest, first, rfl⟩ := unread_of_peekCode looked
      have unread : after.cursor.unread ≠ [] := first ▸ List.cons_ne_nil code rest
      by_cases refused : Refuses code (following code)
      · obtain ⟨expected, throws⟩ := refused
        rw [throws]
        exact still
      · exact taken code refused still fun _ => unread
  | skipByte => exact moves before (Cursor.advance_one (next rfl))
  | advance count => exact keeps_advance moves before count
  | fixed count =>
      exact keeps_take before fun bytes after taken =>
        moves before (Cursor.of_readArray_eq_ok taken).1
  | ensure needed => exact keeps_peek _ before
  | position => exact before
  | lookAhead =>
      simp only [Read.lookAhead]
      split <;> exact before
  | tooDeep => exact before
  | nested _ inside => exact keeps_nested before (inside before next)
  | withBudget _ within => exact within _ before next
  | span _ inside => exact keeps_bind (keeps_span (inside before next)) fun _ _ _ still => still

end Read

/-- What every move of a cursor keeps is kept by every operation. -/
theorem Operation.keeps {kept : Cursor → Prop} (operation : Operation)
    (moves : ∀ ⦃cursor next : Cursor⦄ ⦃count : Nat⦄, kept cursor →
      cursor.advance count = .ok next → kept next)
    {reader : Reader} (before : kept reader.cursor) :
    kept (readerAfter (operation.perform reader)).cursor := by
  by_cases reads : operation.ActsOnReader
  · cases operation with
    | enterNested =>
        refine Read.keeps_bind ?_ fun _ _ _ still => still
        unfold Read.enterNested
        split <;> exact before
    | leaveNested => exact before
    | isEnd => exact before
    | _ => exact absurd reads id
  · have same := (operation.composed_perform reads).keeps moves before nofun
    rwa [readerAfter_mapped] at same

/-! ## Reached readers -/

/-- The readers that are reached from the start of a source by operations on the reader and on
its cursor, which may fail, in any order.  Whoever moves the cursor within its span must know
that the span holds the bytes. -/
inductive Reader.Reached (source : Cursor) : Reader → Prop where
  | start (maxDepth : Nat) : Reached source (.ofCursor source maxDepth)
  | perform {reader : Reader} (operation : Operation) (reached : Reached source reader) :
      Reached source (readerAfter (operation.perform reader))
  | leveled {reader : Reader} (depth : Nat) (reached : Reached source reader) :
      Reached source { reader with depth := depth }
  | readByte {reader : Reader} (reached : Reached source reader) :
      Reached source (readerAfter (Read.take Cursor.readByte reader))
  | advance {reader : Reader} (count : Nat) (reached : Reached source reader) :
      Reached source (readerAfter (Read.advance count reader))
  | within {reader : Reader} (count : Nat) (held : reader.cursor.Holds count)
      (reached : Reached source reader) :
      Reached source { reader with cursor := reader.cursor.advanceWithinSpan count held }

/-- The starts of a source: as segments whatever their number, and as parts, of which fewer than
two are one run of bytes. -/
inductive Cursor.Opens (segments : List Bytes) : Cursor → Prop where
  | segmented : Opens segments (.ofSegments segments)
  | parts : Opens segments (.ofParts segments)

/-! ## Where cursors stand -/

/-- A cursor stands at the position up to which it has read, and every move within the span that
was asked for was one. -/
def Cursor.Stands (segments : List Bytes) : Cursor → Prop
  | .run cursor =>
      (segments.length ≤ 1 ∧ cursor.buffer.toList = segments.flatten) ∧ cursor.overran = false
  | .segmented cursor =>
      cursor.toPlace.Denotes segments cursor.consumed ∧ cursor.overran = false

namespace Cursor.Stands

variable {segments : List Bytes} {cursor next : Cursor} {count : Nat}

theorem ofSegments (segments : List Bytes) : (Cursor.ofSegments segments).Stands segments :=
  ⟨(Place.denotes_start (Nat.zero_le _)).settle, rfl⟩

/-- A cursor stands at the start of a source. -/
theorem of_opens (opens : cursor.Opens segments) : cursor.Stands segments := by
  cases opens with
  | segmented => exact ofSegments segments
  | parts =>
      match segments with
      | [] => exact ⟨⟨Nat.zero_le _, rfl⟩, rfl⟩
      | [bytes] => exact ⟨⟨Nat.le_refl _, (List.append_nil bytes).symm⟩, rfl⟩
      | first :: second :: later => exact ofSegments (first :: second :: later)

/-- A move takes a cursor to where it stands again. -/
theorem advance (stands : cursor.Stands segments) (moved : cursor.advance count = .ok next) :
    next.Stands segments := by
  have enough := (of_advance_eq_ok moved).1
  cases cursor with
  | run cursor =>
      have within : cursor.advance count =
          .ok (cursor.advanceWithin count (cursor.length_ahead ▸ enough)) := dif_pos enough
      rw [Cursor.advance, within] at moved
      cases moved
      exact stands
  | segmented cursor =>
      have passed : cursor.advance count = .ok _ := if_pos enough
      rw [Cursor.advance, passed] at moved
      cases moved
      have inside : count ≤ cursor.ahead.flatten.length := cursor.remaining_eq ▸ enough
      exact ⟨stands.1.pass inside, stands.2⟩

theorem advanceWithinSpan (stands : cursor.Stands segments) (held : cursor.Holds count) :
    (cursor.advanceWithinSpan count held).Stands segments :=
  stands.advance (advance_eq_of_holds held)

end Cursor.Stands

/-- Every reached reader stands at the position up to which it has read, in the source that was
opened. -/
theorem Reader.Reached.stands {segments : List Bytes} {source : Cursor} {reader : Reader}
    (opens : source.Opens segments) (reached : Reader.Reached source reader) :
    reader.cursor.Stands segments := by
  induction reached with
  | start => exact .of_opens opens
  | perform operation _ stands => exact operation.keeps (fun _ _ _ => .advance) stands
  | leveled _ _ stands => exact stands
  | readByte _ stands =>
      exact Read.keeps_take stands fun _ _ read => stands.advance (Cursor.of_readByte_eq_ok read)
  | advance count _ stands => exact Read.keeps_advance (fun _ _ _ => .advance) stands count
  | within count held _ stands => exact stands.advanceWithinSpan held

/-- A cursor is of the kind that another one is of. -/
def Cursor.SameKind (source cursor : Cursor) : Prop :=
  cursor.isSegmented = source.isSegmented

theorem Cursor.SameKind.advance {source : Cursor} ⦃cursor next : Cursor⦄ ⦃count : Nat⦄
    (same : source.SameKind cursor) (moved : cursor.advance count = .ok next) :
    source.SameKind next :=
  (of_advance_eq_ok moved).2.2.2.2.trans same

/-- The kind of a cursor never changes. -/
theorem Reader.Reached.sameKind {source : Cursor} {reader : Reader}
    (reached : Reader.Reached source reader) : source.SameKind reader.cursor := by
  induction reached with
  | start => rfl
  | perform operation _ same => exact operation.keeps Cursor.SameKind.advance same
  | leveled _ _ same => exact same
  | readByte _ same =>
      exact Read.keeps_take same fun _ _ read => same.advance (Cursor.of_readByte_eq_ok read)
  | advance count _ same => exact Read.keeps_advance Cursor.SameKind.advance same count
  | within count held _ same => exact same.advance (Cursor.advance_eq_of_holds held)

/-! ## What holds at any time -/

/-- What holds of a cursor over segments at any time.  The loops by which it moves and looks ahead
are told by their runs over the coordinates. -/
structure SegmentedCursor.Sound (segments : List Bytes) (cursor : SegmentedCursor) : Prop where
  /-- Every byte is either read or unread. -/
  total : cursor.consumed + cursor.remaining = segments.flatten.length
  /-- The coordinates denote the position. -/
  consumed_eq : cursor.consumed = startOf segments cursor.index + cursor.offset
  /-- The position lies strictly inside the current segment, unless it is the end. -/
  inside : cursor.remaining ≠ 0 → ∃ segment, segments[cursor.index]? = some segment ∧
    cursor.offset < segment.length ∧ cursor.span = segment.drop cursor.offset
  span_eq_nil_iff : cursor.span = [] ↔ cursor.remaining = 0
  /-- No move within the span was asked for that the span did not hold. -/
  held : cursor.overran = false
  within : ∀ count, ∀ held : count ≤ cursor.span.length, count ≤ cursor.remaining ∧
    Place.Settles segments cursor.index (cursor.offset + count)
      (cursor.advanceWithin count held).index (cursor.advanceWithin count held).offset
  moves : ∀ count, count ≤ cursor.remaining → ∃ next, cursor.advance count = .ok next ∧
    Place.Advances segments count cursor.index cursor.offset next.index next.offset
  looks : ∀ count, count ≤ cursor.remaining → ∃ bytes, cursor.peekInto count = .ok bytes ∧
    Place.Gathers segments count cursor.index cursor.offset bytes
  /-- More bytes than are unread are refused before any loop. -/
  refuses : ∀ count, cursor.remaining < count →
    cursor.advance count = .error (.insufficientData count cursor.remaining) ∧
      cursor.peekInto count = .error (.insufficientData count cursor.remaining)

/-- What holds of a cursor over one run of bytes at any time. -/
structure RunCursor.Sound (bytes : Bytes) (cursor : RunCursor) : Prop where
  /-- Every byte is either read or unread. -/
  total : cursor.position + cursor.remaining = bytes.length
  ahead_eq : cursor.ahead = bytes.drop cursor.position
  ahead_eq_nil_iff : cursor.ahead = [] ↔ cursor.remaining = 0
  /-- No move within the span was asked for that the span did not hold. -/
  held : cursor.overran = false
  within : ∀ count, ∀ held : count ≤ cursor.ahead.length, count ≤ cursor.remaining ∧
    (cursor.advanceWithin count held).position = cursor.position + count
  moves : ∀ count, count ≤ cursor.remaining → ∃ next, cursor.advance count = .ok next ∧
    next.position = cursor.position + count
  looks : ∀ count, count ≤ cursor.remaining →
    cursor.peekInto count = .ok ((bytes.drop cursor.position).take count)
  refuses : ∀ count, cursor.remaining < count →
    cursor.advance count = .error (.insufficientData count cursor.remaining) ∧
      cursor.peekInto count = .error (.insufficientData count cursor.remaining)

/-- What holds of a cursor over a source at any time. -/
def Cursor.Sound (segments : List Bytes) : Cursor → Prop
  | .run cursor => cursor.Sound segments.flatten
  | .segmented cursor => cursor.Sound segments

theorem SegmentedCursor.sound_of_denotes {segments : List Bytes} {cursor : SegmentedCursor}
    (denotes : cursor.toPlace.Denotes segments cursor.consumed) (held : cursor.overran = false) :
    cursor.Sound segments where
  total := by
    have behind := congrArg List.length denotes.flatten_ahead
    have bound := denotes.position_le
    rw [List.length_drop, ← cursor.remaining_eq] at behind
    omega
  consumed_eq := denotes.position_eq
  inside := by
    intro more
    apply denotes.strictly_inside cursor.settled
    rwa [← List.length_pos_iff, ← cursor.remaining_eq, Nat.pos_iff_ne_zero]
  span_eq_nil_iff := by
    rw [span_eq_nil_iff, ← List.length_eq_zero_iff, cursor.remaining_eq]
  held := held
  within := by
    intro count held
    have holds : (Cursor.segmented cursor).Holds count := Cursor.holds_iff.2 held
    exact ⟨Cursor.le_remaining_of_holds holds, Place.settles_moveWithin denotes held⟩
  moves := by
    intro count enough
    refine ⟨_, if_pos enough, ?_⟩
    exact Place.advances denotes cursor.settled (cursor.remaining_eq ▸ enough)
  looks := by
    intro count enough
    refine ⟨_, if_pos enough, ?_⟩
    exact Place.gathers denotes (cursor.remaining_eq ▸ enough)
  refuses := by
    intro count short
    exact ⟨if_neg (Nat.not_le_of_lt short), if_neg (Nat.not_le_of_lt short)⟩

theorem RunCursor.sound {bytes : Bytes} {cursor : RunCursor} (source : cursor.buffer.toList = bytes)
    (held : cursor.overran = false) : cursor.Sound bytes where
  total := by
    rw [cursor.position_add_remaining, ← source, Array.length_toList]
  ahead_eq := source ▸ cursor.ahead_eq
  ahead_eq_nil_iff := by rw [← cursor.length_ahead, List.length_eq_zero_iff]
  held := held
  within := fun _ held => ⟨cursor.length_ahead ▸ held, rfl⟩
  moves := fun _ enough => ⟨_, dif_pos enough, rfl⟩
  looks := by
    intro count enough
    rw [peekInto_eq, if_pos enough, ← source, ← cursor.ahead_eq]
  refuses := by
    intro count short
    exact ⟨dif_neg (Nat.not_le_of_lt short), if_neg (Nat.not_le_of_lt short)⟩

theorem Cursor.Stands.sound {segments : List Bytes} {cursor : Cursor}
    (stands : cursor.Stands segments) : cursor.Sound segments := by
  cases cursor with
  | run cursor => exact RunCursor.sound stands.1.2 stands.2
  | segmented cursor => exact SegmentedCursor.sound_of_denotes stands.1 stands.2

/-- Whatever is done with a reader of segments, and whatever fails of it: no byte is lost, the
coordinates of the cursor denote the position, strictly inside a segment unless it is the end, no
move within the span goes beyond it, and the loops of the moves and of the look ahead end, without
a segment that does not exist and without a count below zero. -/
theorem reached_sound (segments : List Bytes) :
    Place.Settles segments 0 0 (SegmentedCursor.start segments).index
      (SegmentedCursor.start segments).offset ∧
    ∀ source, Cursor.Opens segments source → ∀ reader, Reader.Reached source reader →
      reader.cursor.isSegmented = source.isSegmented ∧ reader.cursor.Sound segments :=
  ⟨Place.settles (Place.denotes_start (Nat.zero_le _)),
    fun _ opens _ reached => ⟨reached.sameKind, (reached.stands opens).sound⟩⟩

/-- An integer that is cut twice, read over an empty segment, and a read that fails after it. -/
theorem reached_sound_cut :
    ∃ reader cursor, Reader.Reached (.ofSegments [[0xcd, 0x01], [], [0x2c, 0x91, 0xc0]]) reader ∧
      reader.cursor = .segmented cursor ∧ cursor.index = 2 ∧ cursor.offset = 1 ∧
      cursor.Sound [[0xcd, 0x01], [], [0x2c, 0x91, 0xc0]] := by
  have reached : Reader.Reached (.ofSegments [[0xcd, 0x01], [], [0x2c, 0x91, 0xc0]]) _ :=
    .perform .bool (.perform (.int .u16) (.start 4))
  exact ⟨_, _, reached, rfl, by decide, by decide,
    ((reached_sound _).2 _ .segmented _ reached).2⟩

end MsgPack
