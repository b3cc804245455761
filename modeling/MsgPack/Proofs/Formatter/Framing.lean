import MsgPack.Proofs.Formatter.Reads
import MsgPack.Proofs.Reader.Skip
import MsgPack.Proofs.Reader.Takes

/-!
# Where typed reads end

A typed read that succeeds ends where skipping ends, in whatever form its value was written.
It depends on the bytes of that value alone: on nothing that follows them, and on all of
them, for as long as one is missing it asks for more bytes and finds nothing else wrong.
-/

namespace MsgPack

/-! ## Skipping contents -/

/-- A well-formed value can be skipped with as many levels as it is nested. -/
theorem Read.takes_skip {levels : Nat} {bytes : Bytes} (given : WellFormed levels 1 bytes) :
    Takes levels skip bytes () := by
  intro reader rest next room
  have row := Skips.of_wellFormed (given.mono room) next
  have once : Loop.discard (skipWithin reader.budget) 1 = skipWithin reader.budget := bind_pure _
  rw [once] at row
  rcases row with ⟨_, after, ok, passed⟩ | ⟨deeper, _⟩
  · exact ⟨after, ok, passed⟩
  · exact absurd deeper (Nat.lt_irrefl _)

/-- With as many levels left as it has bytes, the spelling of a content can be skipped. -/
theorem Read.skip_of_spells {content : Content} {bytes rest : Bytes}
    (spelled : Spells [content] bytes) (reader : Reader)
    (next : reader.cursor.unread = bytes ++ rest) (room : bytes.length ≤ reader.budget) :
    ∃ after, skip reader = .ok () after ∧ reader.Passed bytes after :=
  takes_skip spelled.wellFormed reader rest next room

namespace Decode

open Session

variable {σ : Type} {lookup : Lookup σ}

/-! ## Typed reads and skipping -/

/-- Where a value of a type was read, skipping passes over the same bytes, if it may open as
many levels as these are. -/
theorem skip_of_value_eq_ok (described : lookup.Described) (catalog : Catalog) (type : Schema)
    {reader after : Reader} {memory kept : σ} {content : Datum} {limit : Nat}
    (ok : value lookup catalog type ⟨reader, memory⟩ = .ok content ⟨after, kept⟩)
    (unbounded : reader.depth + (after.position - reader.position) ≤ limit) :
    ∃ skipped, Read.skip { reader with maxDepth := limit } = .ok () skipped ∧
      skipped.position = after.position ∧ skipped.cursor.unread = after.cursor.unread := by
  obtain ⟨contents, bytes, counted, spelled, passed, _⟩ :=
    reads_typed described catalog type ok
  rcases List.length_eq_one_iff.1 counted with ⟨content, rfl⟩
  rw [passed.position, Nat.add_sub_cancel_left] at unbounded
  obtain ⟨skipped, skips, passed'⟩ := Read.skip_of_spells spelled
    { reader with maxDepth := limit } passed.unread (Nat.le_sub_of_add_le' unbounded)
  exact ⟨skipped, skips, passed'.position.trans passed.position.symm,
    passed'.unread_eq passed.unread⟩

/-- A list of one integer in wide forms, with one more byte after it. -/
theorem value_of_wide_list :
    ∃ after, value (.standard .empty) .empty (.sequence .list (.scalar (.int .u8)))
      ⟨.ofCursor (.ofBytes [0xdc, 0x00, 0x01, 0xcd, 0x00, 0x07, 0xc1]) 1, ()⟩ =
        .ok (.list [.atom (.int 7)]) ⟨after, ()⟩ ∧
      after.position = 6 ∧ after.cursor.unread = [0xc1] :=
  ⟨_, rfl, rfl, rfl⟩

/-- The list is skipped to where it was read to. -/
theorem skip_of_wide_list :
    ∃ skipped, Read.skip (.ofCursor (.ofBytes [0xdc, 0x00, 0x01, 0xcd, 0x00, 0x07, 0xc1]) 9) =
      .ok () skipped ∧ skipped.position = 6 := by
  obtain ⟨after, ok, position, _⟩ := value_of_wide_list
  obtain ⟨skipped, skips, ends, _⟩ :=
    skip_of_value_eq_ok (Lookup.described_standard .empty) .empty _ ok
      (show 0 + (after.position - 0) ≤ 9 by rw [position]; decide)
  exact ⟨skipped, skips, ends.trans position⟩

/-! ## Typed reads and what follows -/

/-- A value of a type is read from its own bytes.  With any others after them it is read just
so, and where the source ends within them more bytes are asked for. -/
theorem value_of_own_bytes (described : lookup.Described) (catalog : Catalog) (type : Schema)
    {reader after : Reader} {memory kept : σ} {content : Datum}
    (ok : value lookup catalog type ⟨reader, memory⟩ = .ok content ⟨after, kept⟩) :
    ∃ bytes, reader.Passed bytes after ∧ ∀ other : Reader, other.budget = reader.budget →
      (∀ rest, other.cursor.unread = bytes ++ rest →
        ∃ last, value lookup catalog type ⟨other, memory⟩ = .ok content ⟨last, kept⟩ ∧
          other.Passed bytes last) ∧
      (∀ missing, missing ≠ [] → other.cursor.unread ++ missing = bytes →
        ∃ needed remaining last, value lookup catalog type ⟨other, memory⟩ =
          .error (.insufficientData needed remaining) last) := by
  obtain ⟨contents, bytes, _, spelled, passed, answers, _⟩ :=
    reads_typed described catalog type ok
  refine ⟨bytes, passed, fun other room => ⟨fun rest unread => ?_, ?_⟩⟩
  · exact answers.whole spelled room unread
  · rintro missing present rfl
    exact answers.cut spelled room ⟨missing, rfl, present⟩

/-- Of the list without its last byte more is wanted. -/
theorem value_of_wide_list_cut :
    ∃ needed remaining last, value (.standard .empty) .empty (.sequence .list (.scalar (.int .u8)))
      ⟨.ofCursor (.ofBytes [0xdc, 0x00, 0x01, 0xcd, 0x00]) 1, ()⟩ =
        .error (.insufficientData needed remaining) last := by
  obtain ⟨after, ok, _, left⟩ := value_of_wide_list
  obtain ⟨bytes, passed, others⟩ :=
    value_of_own_bytes (Lookup.described_standard .empty) .empty _ ok
  have joined := passed.unread
  rw [left] at joined
  have whole : [0xdc, 0x00, 0x01, 0xcd, 0x00, 0x07] = bytes := List.append_cancel_right joined
  exact (others (.ofCursor (.ofBytes [0xdc, 0x00, 0x01, 0xcd, 0x00]) 1) rfl).2 [0x07]
    (List.cons_ne_nil _ _) whole

end Decode

end MsgPack
