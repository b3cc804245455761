import MsgPack.Proofs.Formatter.Composed
import MsgPack.Proofs.Reader.Operation

/-!
# Sources in segments

How a source is cut into segments decides nothing but whether a slice is borrowed, and a
cursor over one run of bytes answers like a cursor over segments, though it moves in its own
way.  Two readers are at the same place when they have the same bytes before them and the same
history behind them, whichever cursors they have.  Every elementary read keeps readers at the
same place and answers alike on both, so every composed read does, and so does every series of
operations.
-/

namespace MsgPack

/-! ## Cursors at the same place -/

namespace Cursor

/-- Two cursors with the same unread bytes and the same number of bytes read. -/
structure SamePlace (left right : Cursor) : Prop where
  unread : left.unread = right.unread
  consumed : left.consumed = right.consumed

namespace SamePlace

variable {left right : Cursor}

theorem remaining (same : left.SamePlace right) : left.remaining = right.remaining := by
  rw [← left.length_unread, ← right.length_unread, same.unread]

theorem peekByte (same : left.SamePlace right) : left.peekByte = right.peekByte := by
  rw [peekByte_eq, peekByte_eq, same.unread]

theorem peekInto (same : left.SamePlace right) (count : Nat) :
    left.peekInto count = right.peekInto count := by
  rw [peekInto_eq, peekInto_eq, same.unread, same.remaining]

theorem ensure (same : left.SamePlace right) (needed : Nat) :
    left.ensure needed = right.ensure needed := by
  simp only [Cursor.ensure, same.remaining]

/-- Moves of the same length end at the same place. -/
theorem of_advance {leftNext rightNext : Cursor} {count : Nat} (same : left.SamePlace right)
    (first : left.advance count = .ok leftNext) (second : right.advance count = .ok rightNext) :
    leftNext.SamePlace rightNext := by
  obtain ⟨_, leftUnread, leftConsumed, _, _⟩ := of_advance_eq_ok first
  obtain ⟨_, rightUnread, rightConsumed, _, _⟩ := of_advance_eq_ok second
  constructor
  · rw [leftUnread, rightUnread, same.unread]
  · rw [leftConsumed, rightConsumed, same.consumed]

/-- A move succeeds from both places or fails alike from both. -/
theorem advance (same : left.SamePlace right) (count : Nat) :
    (∃ leftNext rightNext, left.advance count = .ok leftNext ∧
      right.advance count = .ok rightNext ∧ leftNext.SamePlace rightNext) ∨
    ∃ failure, left.advance count = .error failure ∧ right.advance count = .error failure := by
  rcases Nat.lt_or_ge left.remaining count with short | enough
  · refine .inr ⟨.insufficientData count left.remaining, advance_of_lt short, ?_⟩
    rw [same.remaining] at short ⊢
    exact advance_of_lt short
  · obtain ⟨leftNext, first, _⟩ := exists_advance enough
    obtain ⟨rightNext, second, _⟩ := exists_advance (same.remaining ▸ enough)
    exact .inl ⟨leftNext, rightNext, first, second, same.of_advance first second⟩

theorem skipByte (same : left.SamePlace right) : left.skipByte.SamePlace right.skipByte := by
  by_cases ended : left.unread = []
  · rw [skipByte_of_ended ended, skipByte_of_ended (same.unread ▸ ended)]
    constructor
    · rw [unread_noteOverrun, unread_noteOverrun, same.unread]
    · rw [consumed_noteOverrun, consumed_noteOverrun, same.consumed]
  · exact same.of_advance (advance_one ended) (advance_one (same.unread ▸ ended))

end SamePlace

end Cursor

/-! ## Readers at the same place -/

/-- Two readers at the same place of a source, as deep in its structure. -/
structure Reader.SamePlace (left right : Reader) : Prop where
  cursor : left.cursor.SamePlace right.cursor
  depth : left.depth = right.depth
  maxDepth : left.maxDepth = right.maxDepth

theorem Reader.SamePlace.budget {left right : Reader} (same : left.SamePlace right) :
    left.budget = right.budget := by
  rw [Reader.budget, Reader.budget, same.depth, same.maxDepth]

/-- Two outcomes with the same result or the same failure, and readers at the same place. -/
inductive Alike {α : Type} :
    EStateM.Result Error Reader α → EStateM.Result Error Reader α → Prop where
  | ok (result : α) {left right : Reader} (same : left.SamePlace right) :
      Alike (.ok result left) (.ok result right)
  | error (failure : Error) {left right : Reader} (same : left.SamePlace right) :
      Alike (.error failure left) (.error failure right)

/-- Outcomes that are alike both have a result or both fail. -/
theorem Alike.cases {α : Type} {left right : EStateM.Result Error Reader α}
    (alike : Alike left right) :
    (∃ result leftAfter rightAfter, left = .ok result leftAfter ∧ right = .ok result rightAfter ∧
      leftAfter.SamePlace rightAfter) ∨
    ∃ failure leftAfter rightAfter, left = .error failure leftAfter ∧
      right = .error failure rightAfter ∧ leftAfter.SamePlace rightAfter := by
  cases alike with
  | ok result same => exact .inl ⟨result, _, _, rfl, rfl, same⟩
  | error failure same => exact .inr ⟨failure, _, _, rfl, rfl, same⟩

namespace Read

variable {α β : Type} {left right : Reader}

/-! ## Elementary reads -/

/-- Something seen from the source without moving is seen from both places. -/
theorem alike_peek {look : Cursor → Except Error α}
    (seen : look left.cursor = look right.cursor) (same : left.SamePlace right) :
    Alike (peek look left) (peek look right) := by
  simp only [peek, seen]
  cases look right.cursor with
  | ok found => exact .ok found same
  | error failure => exact .error failure same

/-- A move answers with what was found before it. -/
theorem alike_move (found : α) (same : left.SamePlace right) (count : Nat) :
    Alike (take (fun cursor => (cursor.advance count).map fun next => (found, next)) left)
      (take (fun cursor => (cursor.advance count).map fun next => (found, next)) right) := by
  rcases same.cursor.advance count with
    ⟨leftNext, rightNext, first, second, samePlace⟩ | ⟨failure, first, second⟩
  · simp only [take, first, second]
    exact .ok found ⟨samePlace, same.depth, same.maxDepth⟩
  · simp only [take, first, second]
    exact .error failure same

theorem alike_advance (same : left.SamePlace right) (count : Nat) :
    Alike (advance count left) (advance count right) :=
  alike_move () same count

theorem alike_skipByte (same : left.SamePlace right) :
    Alike (skipByte left) (skipByte right) :=
  .ok () ⟨same.cursor.skipByte, same.depth, same.maxDepth⟩

theorem alike_fixed (same : left.SamePlace right) (count : Nat) :
    Alike (fixed count left) (fixed count right) := by
  simp only [fixed, take, Cursor.readArray_eq, same.cursor.peekInto]
  cases right.cursor.peekInto count with
  | error failure => exact .error failure same
  | ok bytes => exact alike_move bytes same count

theorem alike_enterNested (same : left.SamePlace right) :
    Alike (enterNested left) (enterNested right) := by
  simp only [enterNested, same.depth, same.maxDepth]
  split
  · exact .error _ same
  · exact .ok () ⟨same.cursor, rfl, rfl⟩

theorem alike_leaveNested (same : left.SamePlace right) :
    Alike (leaveNested left) (leaveNested right) :=
  .ok () ⟨same.cursor, congrArg (· - 1) same.depth, same.maxDepth⟩

/-! ## Compositions -/

theorem alike_bind {first : Read α} {next : α → Read β}
    (head : Alike (first left) (first right))
    (tail : ∀ result {left right : Reader}, left.SamePlace right →
      Alike (next result left) (next result right)) :
    Alike ((first >>= next) left) ((first >>= next) right) := by
  simp only [bind, EStateM.bind]
  rcases head.cases with
    ⟨result, _, _, onLeft, onRight, same⟩ | ⟨failure, _, _, onLeft, onRight, same⟩
  · rw [onLeft, onRight]
    exact tail result same
  · rw [onLeft, onRight]
    exact .error failure same

theorem alike_nested {inner : Read α}
    (inside : ∀ {left right : Reader}, left.SamePlace right → Alike (inner left) (inner right))
    (same : left.SamePlace right) : Alike (nested inner left) (nested inner right) := by
  simp only [nested]
  rcases (alike_enterNested same).cases with
    ⟨_, _, _, onLeft, onRight, entered⟩ | ⟨failure, _, _, onLeft, onRight, after⟩
  · rw [onLeft, onRight]
    rcases (inside entered).cases with
      ⟨result, _, _, onLeft, onRight, after⟩ | ⟨failure, _, _, onLeft, onRight, after⟩
    · simp only [onLeft, onRight]
      exact .ok result ⟨after.cursor, same.depth, after.maxDepth⟩
    · simp only [onLeft, onRight]
      exact .error failure ⟨after.cursor, same.depth, after.maxDepth⟩
  · rw [onLeft, onRight]
    exact .error failure after

theorem alike_lookAhead {read : Read α} (ahead : Alike (read left) (read right))
    (same : left.SamePlace right) : Alike (lookAhead read left) (lookAhead read right) := by
  simp only [lookAhead]
  rcases ahead.cases with
    ⟨result, _, _, onLeft, onRight, _⟩ | ⟨failure, _, _, onLeft, onRight, _⟩
  · rw [onLeft, onRight]
    exact .ok result same
  · rw [onLeft, onRight]
    exact .error failure same

/-- Alike outcomes stay alike when their results are converted. -/
theorem alike_mapped {first second : Read α} (convert : α → β)
    (related : (∃ leftResult rightResult leftAfter rightAfter,
        first left = .ok leftResult leftAfter ∧ second right = .ok rightResult rightAfter ∧
        convert leftResult = convert rightResult ∧ leftAfter.SamePlace rightAfter) ∨
      ∃ failure leftAfter rightAfter, first left = .error failure leftAfter ∧
        second right = .error failure rightAfter ∧ leftAfter.SamePlace rightAfter) :
    Alike ((do return convert (← first)) left) ((do return convert (← second)) right) := by
  simp only [bind, EStateM.bind]
  rcases related with
    ⟨leftResult, rightResult, _, _, onLeft, onRight, converted, after⟩ |
    ⟨failure, _, _, onLeft, onRight, after⟩
  · rw [onLeft, onRight]
    change Alike (.ok (convert leftResult) _) (.ok (convert rightResult) _)
    rw [converted]
    exact .ok _ after
  · rw [onLeft, onRight]
    exact .error failure after

/-- The bytes passed over are the same, though one reader may borrow what the other copies. -/
theorem alike_span {skipping : Read Unit} (inside : Alike (skipping left) (skipping right))
    (same : left.SamePlace right) :
    Alike ((do return (← span skipping).content) left)
      ((do return (← span skipping).content) right) := by
  apply alike_mapped
  simp only [span]
  rcases inside.cases with
    ⟨_, leftAfter, rightAfter, onLeft, onRight, after⟩ | ⟨failure, _, _, onLeft, onRight, after⟩
  · simp only [onLeft, onRight, after.cursor.consumed, same.cursor.consumed,
      Cursor.readSlice_eq, same.cursor.peekInto]
    cases right.cursor.peekInto (rightAfter.cursor.consumed - right.cursor.consumed) with
    | error failure => exact .inr ⟨failure, _, _, rfl, rfl, after⟩
    | ok bytes =>
        rcases same.cursor.advance (rightAfter.cursor.consumed - right.cursor.consumed) with
          ⟨_, _, first, second, _⟩ | ⟨failure, first, second⟩
        · simp only [bind, Except.bind, first, second]
          exact .inl ⟨_, _, _, _, rfl, rfl, rfl, after⟩
        · simp only [bind, Except.bind, first, second]
          exact .inr ⟨failure, _, _, rfl, rfl, after⟩
  · simp only [onLeft, onRight]
    exact .inr ⟨failure, _, _, rfl, rfl, after⟩

/-- Composed reads answer alike at the same place, and end at the same place. -/
theorem Composed.alike {deep ready : Bool} {read : Read α} (composed : Composed deep ready read)
    (same : left.SamePlace right) :
    Alike (read left) (read right) := by
  induction composed generalizing left right with
  | pure result => exact .ok result same
  | throw _ => exact .error _ same
  | bind head tail first rest => exact alike_bind (first same) fun result => rest result
  | @peekThen _ _ _ next _ taken =>
      refine alike_bind (alike_peek same.cursor.peekByte same) fun code _ _ place => ?_
      by_cases refused : Refuses code (next code)
      · obtain ⟨expected, throws⟩ := refused
        rw [throws]
        exact .error _ place
      · exact taken code refused place
  | skipByte => exact alike_skipByte same
  | advance count => exact alike_advance same count
  | fixed count => exact alike_fixed same count
  | ensure needed => exact alike_peek (same.cursor.ensure needed) same
  | position =>
      change Alike (.ok left.cursor.consumed left) (.ok right.cursor.consumed right)
      rw [same.cursor.consumed]
      exact .ok _ same
  | tooDeep =>
      change Alike (.error (.depthExceeded left.maxDepth) left)
        (.error (.depthExceeded right.maxDepth) right)
      rw [same.maxDepth]
      exact .error _ same
  | nested _ inside => exact alike_nested (fun place => inside place) same
  | lookAhead _ _ ahead => exact alike_lookAhead (ahead same) same
  | @withBudget _ _ read _ within =>
      change Alike (read left.budget left) (read right.budget right)
      rw [same.budget]
      exact within _ same
  | span _ inside => exact alike_span (inside same) same

end Read

/-! ## Series of operations -/

namespace Operation

open Read

/-- Whether an operation opens or closes a structure for those after it, or asks for the end. -/
def ActsOnReader : Operation → Prop
  | enterNested | leaveNested | isEnd => True
  | _ => False

/-- An operation that reads is composed, once it does not tell what is borrowed. -/
theorem composed_perform (operation : Operation) (reads : ¬operation.ActsOnReader) :
    Composed true false (return (← operation.perform).owned) := by
  cases operation with
  | enterNested => exact absurd trivial reads
  | leaveNested => exact absurd trivial reads
  | isEnd => exact absurd trivial reads
  | peekCode => exact (Composed.peekCode.mapped Answer.code).mapped Answer.owned
  | peekKind => exact (composed_peekKind.mapped Answer.kind).mapped Answer.owned
  | peekName => exact (composed_peekFormat.mapped _).mapped Answer.owned
  | peekIsNil => exact (composed_peekIsNil.mapped Answer.truth).mapped Answer.owned
  | nil => exact (composed_nil.mapped _).mapped Answer.owned
  | tryNil => exact (composed_tryNil.mapped Answer.truth).mapped Answer.owned
  | bool => exact (composed_bool.mapped Answer.truth).mapped Answer.owned
  | integer => exact (composed_integer.mapped Answer.integer).mapped Answer.owned
  | int range => exact ((composed_int range).mapped Answer.number).mapped Answer.owned
  | size range => exact ((composed_size range).mapped Answer.number).mapped Answer.owned
  | float32 => exact (composed_float32.mapped Answer.float32).mapped Answer.owned
  | float64 => exact (composed_float64.mapped Answer.float64).mapped Answer.owned
  | char => exact (composed_char.mapped Answer.char).mapped Answer.owned
  | strHeader => exact (composed_strHeader.mapped Answer.length).mapped Answer.owned
  | string => exact (composed_string.mapped _).mapped Answer.owned
  | binHeader => exact (composed_binHeader.mapped Answer.length).mapped Answer.owned
  | arrayHeader => exact (composed_arrayHeader.mapped Answer.length).mapped Answer.owned
  | mapHeader => exact (composed_mapHeader.mapped Answer.length).mapped Answer.owned
  | extensionHeader => exact (composed_extensionHeader.mapped Answer.header).mapped Answer.owned
  | peekExtensionHeader =>
      exact (composed_peekExtensionHeader.mapped Answer.header).mapped Answer.owned
  | extensionHeaderWith typeCode =>
      exact ((composed_extensionHeaderWith typeCode).mapped Answer.header).mapped Answer.owned
  | timestamp => exact (composed_timestamp.mapped Answer.timestamp).mapped Answer.owned
  | dateTimeOffset => exact (composed_dateTimeOffset.mapped _).mapped Answer.owned
  | fixed count => exact ((Composed.fixed count).mapped _).mapped Answer.owned
  | skipToken => exact (composed_token.mapped _).mapped Answer.owned
  | skip => exact (composed_skip.mapped _).mapped Answer.owned
  | value => exact (Value.composed_read.mapped Answer.value).mapped Answer.owned
  | datum catalog type =>
      exact ((composed_datum catalog type).mapped Answer.datum).mapped Answer.owned
  -- The operations that borrow.
  | str =>
      have reading : (do return (← perform .str).owned) =
          (do return .text ⟨← Read.string, false⟩) := by
        simp [perform, Read.string, Answer.owned, Fetched.owned]
      rw [reading]
      exact composed_string.mapped _
  | bin =>
      simp only [perform, bind_assoc, pure_bind]
      exact composed_binThen (fun _ => rfl) fun _ => .pure _
  | rawBytes count =>
      simp only [perform, bind_assoc, pure_bind]
      exact composed_rawBytesThen count (fun _ => rfl) fun _ => .pure _
  | extension =>
      simp only [perform, bind_assoc, pure_bind]
      exact composed_extensionThen (fun _ _ => rfl) fun _ _ => .pure _
  | raw =>
      have reading : (do return (← perform .raw).owned) =
          (do
            let bytes ← (do return (← Read.raw).content)
            return .bytes ⟨bytes, false⟩) := by
        simp [perform, Answer.owned, Fetched.owned]
      rw [reading]
      exact composed_raw.mapped _

/-- Every operation answers alike at the same place, but for what is borrowed. -/
theorem alike_perform (operation : Operation) {left right : Reader}
    (same : left.SamePlace right) :
    Alike ((do return (← operation.perform).owned) left)
      ((do return (← operation.perform).owned) right) := by
  by_cases reads : operation.ActsOnReader
  · have conversion {left right : Reader} (same : left.SamePlace right) (answer : Answer) :
        Alike ((pure answer.owned : Read Answer) left) ((pure answer.owned : Read Answer) right) :=
      .ok _ same
    refine alike_bind ?_ fun answer _ _ same => conversion same answer
    cases operation with
    | enterNested =>
        exact alike_bind (alike_enterNested same) fun _ _ _ same => .ok Answer.done same
    | leaveNested =>
        exact alike_bind (alike_leaveNested same) fun _ _ _ same => .ok Answer.done same
    | isEnd =>
        have ends : left.isEnd = right.isEnd :=
          congrArg (fun remaining : Nat => decide (remaining = 0)) same.cursor.remaining
        change Alike (.ok (Answer.truth left.isEnd) left) (.ok (Answer.truth right.isEnd) right)
        rw [ends]
        exact .ok _ same
    | _ => exact absurd reads id
  · exact (composed_perform operation reads).alike same

end Operation

/-- What is seen of alike outcomes is the same, but for what is borrowed. -/
theorem Step.owned_eq_of_alike {read : Read Answer} {left right : Reader}
    (alike : Alike ((do return (← read).owned) left) ((do return (← read).owned) right)) :
    (Step.ofOutcome (read left)).owned = (Step.ofOutcome (read right)).owned ∧
      (readerAfter (read left)).SamePlace (readerAfter (read right)) := by
  have seen (reader : Reader) : Step.ofOutcome ((do return (← read).owned) reader) =
      (Step.ofOutcome (read reader)).owned := by
    simp only [bind, EStateM.bind]
    cases read reader <;> rfl
  rw [← seen left, ← seen right, ← readerAfter_mapped read Answer.owned left,
    ← readerAfter_mapped read Answer.owned right]
  rcases alike.cases with
    ⟨answer, _, _, onLeft, onRight, same⟩ | ⟨failure, _, _, onLeft, onRight, same⟩
  · rw [onLeft, onRight]
    simp only [Step.ofOutcome, readerAfter, Reader.position, Reader.remaining,
      same.cursor.consumed, same.cursor.remaining, same.depth, same, and_self]
  · rw [onLeft, onRight]
    simp only [Step.ofOutcome, readerAfter, Reader.position, Reader.remaining,
      same.cursor.consumed, same.cursor.remaining, same.depth, same, and_self]

/-- A series of operations is seen alike from the same place, but for what is borrowed. -/
theorem trace_owned_eq (operations : List Operation) {left right : Reader}
    (same : left.SamePlace right) :
    (trace operations left).map Step.owned = (trace operations right).map Step.owned := by
  induction operations generalizing left right with
  | nil => rfl
  | cons operation operations ih =>
      obtain ⟨step, after⟩ := Step.owned_eq_of_alike (operation.alike_perform same)
      simp only [trace, List.map_cons, step, ih after]

/-- Readers at the start of sources with the same bytes are at the same place. -/
theorem Reader.samePlace_ofCursor {left right : Cursor} (same : left.SamePlace right)
    (maxDepth : Nat) : (Reader.ofCursor left maxDepth).SamePlace (.ofCursor right maxDepth) :=
  ⟨same, rfl, rfl⟩

/-- However a source is cut into segments, a series of operations on it is seen as on one run
of its bytes, but for what is borrowed: the same answers and the same failures, the same
positions, the same numbers of unread bytes and the same depths. -/
theorem trace_segments (segments : List Bytes) (maxDepth : Nat) (operations : List Operation) :
    (trace operations (.ofCursor (.ofParts segments) maxDepth)).map Step.owned =
        (trace operations (.ofCursor (.ofBytes segments.flatten) maxDepth)).map Step.owned ∧
      (trace operations (.ofCursor (.ofSegments segments) maxDepth)).map Step.owned =
        (trace operations (.ofCursor (.ofBytes segments.flatten) maxDepth)).map Step.owned := by
  have parts : (Cursor.ofParts segments).SamePlace (.ofBytes segments.flatten) := by
    constructor
    · rw [Cursor.unread_ofParts, Cursor.unread_ofBytes]
    · unfold Cursor.ofParts
      split <;> rfl
  have whole : (Cursor.ofSegments segments).SamePlace (.ofBytes segments.flatten) := by
    constructor
    · rw [Cursor.unread_ofSegments, Cursor.unread_ofBytes]
    · rfl
  exact ⟨trace_owned_eq operations (Reader.samePlace_ofCursor parts maxDepth),
    trace_owned_eq operations (Reader.samePlace_ofCursor whole maxDepth)⟩

end MsgPack
