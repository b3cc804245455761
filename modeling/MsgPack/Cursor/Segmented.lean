import MsgPack.Error

/-!
# Positions in segments

A position in a list of segments, some of them possibly empty, keeps the unread bytes of the
current segment, its *span*, apart from the segments that follow.  It is always settled: an
exhausted segment is left at once, so the span is empty only at the end of the source.

Segments are disjoint parts of one memory.  So the number of all their bytes, which is taken
once at the start, has at most 64 bits, like every count that is smaller.
-/

namespace MsgPack

/-! ## Places among segments -/

/-- A place in a list of segments. -/
structure Place where
  /-- How many segments have been left behind. -/
  index : Nat
  /-- How many bytes of the current segment have been read. -/
  offset : Nat
  /-- The unread bytes of the current segment, and the segments after it. -/
  ahead : List Bytes

namespace Place

/-- The unread bytes of the current segment. -/
def span (place : Place) : Bytes :=
  place.ahead.headD []

/-- Leaves exhausted segments behind. -/
def settle : (index offset : Nat) → (ahead : List Bytes) → Place
  | index, _, [] :: later => settle (index + 1) 0 later
  | index, offset, ahead => ⟨index, offset, ahead⟩

/-- Moves over `count` bytes of the span. -/
def moveWithin (place : Place) (count : Nat) : Place :=
  match place.ahead with
  | [] => place
  | span :: later => settle place.index (place.offset + count) (span.drop count :: later)

/-- Moves over `left` bytes, from segment to segment. -/
def pass : (left index offset : Nat) → (ahead : List Bytes) → Place
  | _, index, offset, [] => ⟨index, offset, []⟩
  | left, index, offset, span :: later =>
      match span.drop left with
      | [] => pass (left - span.length) (index + 1) 0 later
      | rest => ⟨index, offset + left, rest :: later⟩

/-- The next `count` bytes, gathered from segment to segment. -/
def gather : (count : Nat) → (ahead : List Bytes) → Bytes
  | _, [] => []
  | count, span :: later => span.take count ++ gather (count - span.length) later

theorem settle_cons {span : Bytes} (unread : span ≠ []) (index offset : Nat)
    (later : List Bytes) :
    settle index offset (span :: later) = ⟨index, offset, span :: later⟩ := by
  cases span with
  | nil => exact absurd rfl unread
  | cons byte span => rfl

theorem pass_of_exhausted {left : Nat} {span : Bytes} (exhausted : span.length ≤ left)
    (index offset : Nat) (later : List Bytes) :
    pass left index offset (span :: later) = pass (left - span.length) (index + 1) 0 later := by
  simp only [pass, List.drop_of_length_le exhausted]

theorem pass_of_lt {left : Nat} {span : Bytes} (short : left < span.length)
    (index offset : Nat) (later : List Bytes) :
    pass left index offset (span :: later) = ⟨index, offset + left, span.drop left :: later⟩ := by
  cases rest : span.drop left with
  | nil =>
      rw [List.drop_eq_nil_iff] at rest
      omega
  | cons byte others => simp only [pass, rest]

theorem flatten_settle (index offset : Nat) (ahead : List Bytes) :
    (settle index offset ahead).ahead.flatten = ahead.flatten := by
  induction ahead generalizing index offset with
  | nil => rfl
  | cons span later ih =>
      cases span with
      | nil => exact ih (index + 1) 0
      | cons byte span => rfl

theorem settled_settle (index offset : Nat) (ahead : List Bytes) :
    (settle index offset ahead).ahead.head? ≠ some [] := by
  induction ahead generalizing index offset with
  | nil => simp [settle]
  | cons span later ih =>
      cases span with
      | nil => exact ih (index + 1) 0
      | cons byte span => simp [settle]

theorem flatten_pass (left index offset : Nat) (ahead : List Bytes) :
    (pass left index offset ahead).ahead.flatten = ahead.flatten.drop left := by
  induction ahead generalizing left index offset with
  | nil => simp [pass]
  | cons span later ih =>
      rw [List.flatten_cons]
      by_cases exhausted : span.length ≤ left
      · rw [pass_of_exhausted exhausted, ih, List.drop_append,
          List.drop_of_length_le exhausted, List.nil_append]
      · have short := Nat.lt_of_not_le exhausted
        rw [pass_of_lt short, List.flatten_cons, List.drop_append_of_le_length (Nat.le_of_lt short)]

theorem settled_pass (left index offset : Nat) (ahead : List Bytes) :
    (pass left index offset ahead).ahead.head? ≠ some [] := by
  induction ahead generalizing left index offset with
  | nil => simp [pass]
  | cons span later ih =>
      by_cases exhausted : span.length ≤ left
      · rw [pass_of_exhausted exhausted]
        exact ih _ _ _
      · have short := Nat.lt_of_not_le exhausted
        rw [pass_of_lt short]
        intro empty
        rw [List.head?_cons, Option.some.injEq, List.drop_eq_nil_iff] at empty
        exact exhausted empty

/-- To settle is to move over nothing. -/
theorem settle_eq_pass (index offset : Nat) (ahead : List Bytes) :
    settle index offset ahead = pass 0 index offset ahead := by
  induction ahead generalizing index offset with
  | nil => rfl
  | cons span later ih =>
      cases span with
      | nil => exact ih (index + 1) 0
      | cons byte span => rfl

/-- Moving within the span is moving over segments. -/
theorem moveWithin_eq_pass {place : Place} {count : Nat} (held : count ≤ place.span.length) :
    place.moveWithin count = pass count place.index place.offset place.ahead := by
  rcases place with ⟨index, offset, ahead⟩
  cases ahead with
  | nil => rfl
  | cons span later =>
      change settle index (offset + count) (span.drop count :: later) =
        pass count index offset (span :: later)
      rcases Nat.eq_or_lt_of_le (show count ≤ span.length from held) with rfl | short
      · rw [pass_of_exhausted (Nat.le_refl _), List.drop_length, Nat.sub_self, ← settle_eq_pass]
        rfl
      · have unread : span.drop count ≠ [] := by
          rw [ne_eq, List.drop_eq_nil_iff]
          omega
        rw [settle_cons unread, pass_of_lt short]

theorem gather_eq (count : Nat) (ahead : List Bytes) :
    gather count ahead = ahead.flatten.take count := by
  induction ahead generalizing count with
  | nil => simp [gather]
  | cons span later ih => rw [gather, ih, List.flatten_cons, List.take_append]

end Place

/-! ## Positions -/

/-- A position in a list of segments. -/
structure SegmentedCursor extends Place where
  /-- How many bytes have been read. -/
  consumed : Nat
  /-- How many bytes are unread. -/
  remaining : Nat
  /-- Whether a move within the span was asked for that the span did not hold. -/
  overran : Bool
  /-- The count of the unread bytes is right. -/
  remaining_eq : remaining = ahead.flatten.length
  /-- The cursor is settled. -/
  settled : ahead.head? ≠ some []

namespace SegmentedCursor

/-- The start of a list of segments. -/
def start (segments : List Bytes) : SegmentedCursor :=
  { Place.settle 0 0 segments with
    consumed := 0
    remaining := segments.flatten.length
    overran := false
    remaining_eq := congrArg List.length (Place.flatten_settle 0 0 segments).symm
    settled := Place.settled_settle 0 0 segments }

/-- Moves over `count` bytes of the span. -/
def advanceWithin (cursor : SegmentedCursor) (count : Nat) (held : count ≤ cursor.span.length) :
    SegmentedCursor :=
  { cursor.moveWithin count with
    consumed := cursor.consumed + count
    remaining := cursor.remaining - count
    overran := cursor.overran
    remaining_eq := by
      rw [Place.moveWithin_eq_pass held, Place.flatten_pass, List.length_drop,
        ← cursor.remaining_eq]
    settled := by
      rw [Place.moveWithin_eq_pass held]
      exact Place.settled_pass _ _ _ _ }

/-- Moves over `count` bytes, across the ends of segments. -/
def advance (cursor : SegmentedCursor) (count : Nat) : Except Error SegmentedCursor :=
  if count ≤ cursor.remaining then
    .ok
      { Place.pass count cursor.index cursor.offset cursor.ahead with
        consumed := cursor.consumed + count
        remaining := cursor.remaining - count
        overran := cursor.overran
        remaining_eq := by rw [Place.flatten_pass, List.length_drop, ← cursor.remaining_eq]
        settled := Place.settled_pass _ _ _ _ }
  else .error (.insufficientData count cursor.remaining)

/-- The next `count` bytes, which stay unread. -/
def peekInto (cursor : SegmentedCursor) (count : Nat) : Except Error Bytes :=
  if count ≤ cursor.remaining then .ok (Place.gather count cursor.ahead)
  else .error (.insufficientData count cursor.remaining)

/-- The span is the beginning of the unread bytes. -/
theorem span_append_flatten (place : Place) :
    place.span ++ place.ahead.tail.flatten = place.ahead.flatten := by
  rcases place with ⟨_, _, _ | ⟨span, later⟩⟩ <;> rfl

/-- The span is empty only at the end of the source. -/
theorem span_eq_nil_iff {cursor : SegmentedCursor} :
    cursor.span = [] ↔ cursor.ahead.flatten = [] := by
  rcases cursor with ⟨⟨_, _, _ | ⟨span, later⟩⟩, _, _, _, _, settled⟩
  · exact iff_of_true rfl rfl
  · have unread : span ≠ [] := fun empty => settled (congrArg some empty)
    exact iff_of_false unread fun empty => unread (List.append_eq_nil_iff.1 empty).1

/-- A move drops bytes from the unread ones and counts them as read. -/
theorem exists_advance {cursor : SegmentedCursor} {count : Nat}
    (enough : count ≤ cursor.remaining) :
    ∃ next, cursor.advance count = .ok next ∧
      next.ahead.flatten = cursor.ahead.flatten.drop count ∧
      next.consumed = cursor.consumed + count ∧ next.remaining = cursor.remaining - count :=
  ⟨_, if_pos enough, Place.flatten_pass .., rfl, rfl⟩

/-- Moving within the span is moving. -/
theorem advance_eq_of_held {cursor : SegmentedCursor} {count : Nat}
    (held : count ≤ cursor.span.length) (enough : count ≤ cursor.remaining) :
    cursor.advance count = .ok (cursor.advanceWithin count held) := by
  have paths := Place.moveWithin_eq_pass held
  simp only [advance, enough, if_pos, advanceWithin, paths]

/-- What is peeked at lies ahead. -/
theorem peekInto_eq (cursor : SegmentedCursor) (count : Nat) :
    cursor.peekInto count =
      if count ≤ cursor.remaining then .ok (cursor.ahead.flatten.take count)
      else .error (.insufficientData count cursor.remaining) := by
  rw [peekInto, Place.gather_eq]

end SegmentedCursor

end MsgPack
