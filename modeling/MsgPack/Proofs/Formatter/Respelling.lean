import MsgPack.Proofs.Formatter.Framing
import MsgPack.Proofs.Value.Retold

/-!
# Typed reads of other spellings

Whatever a type reads from a content it reads from every spelling of that content.  So it
makes no difference to typed reads how wide a sender writes its integers and headers: what can
be read as a value of any shape may as well be written anew in its shortest form.
-/

namespace MsgPack

namespace Decode

open Session

variable {σ : Type} {lookup : Lookup σ}

/-- A value of a type is read from other spellings of the same content. -/
theorem value_of_respelled (described : lookup.Described) (catalog : Catalog) (type : Schema)
    {said : Content} {bytes other : Bytes} (spelled : Spells [said] bytes)
    (respelled : Spells [said] other) {reader after second : Reader} {memory kept : σ}
    {content : Datum} {rest following : Bytes} (unread : reader.cursor.unread = bytes ++ rest)
    (unread' : second.cursor.unread = other ++ following) (room : second.budget = reader.budget)
    (ok : value lookup catalog type ⟨reader, memory⟩ = .ok content ⟨after, kept⟩) :
    ∃ last, value lookup catalog type ⟨second, memory⟩ = .ok content ⟨last, kept⟩ ∧
      second.Passed other last := by
  obtain ⟨contents, bytes', counted, spelled', passed, answers, _⟩ :=
    reads_typed described catalog type ok
  obtain ⟨rfl, _⟩ := spelled'.unique spelled counted (passed.unread.symm.trans unread)
  exact answers.whole respelled room unread'

/-- Any bytes that are read as a value of any shape can be written in their shortest form, and
every type reads from both the same, with as many levels left. -/
theorem value_iff_of_compact (described : lookup.Described) (catalog : Catalog) (type : Schema)
    {reader after : Reader} {whole : Value} (accepted : Value.read reader = .ok whole after) :
    ∃ bytes compact, reader.Passed bytes after ∧ Write.run whole.write = .ok compact ∧
      ∀ (first second : Reader) (rest following : Bytes), first.cursor.unread = bytes ++ rest →
        second.cursor.unread = compact ++ following → first.budget = second.budget →
          ∀ (memory kept : σ) (content : Datum),
            (∃ last, value lookup catalog type ⟨first, memory⟩ = .ok content ⟨last, kept⟩) ↔
              ∃ last, value lookup catalog type ⟨second, memory⟩ = .ok content ⟨last, kept⟩ := by
  obtain ⟨bytes, spelled, passed, fits⟩ := Value.retells_read accepted
  have compact := Value.spells_encoding fits
  refine ⟨bytes, whole.encoding, passed, Value.run_of_fits fits, ?_⟩
  intro first second rest following unread unread' room memory kept content
  constructor
  · rintro ⟨last, ok⟩
    obtain ⟨last', ok', _⟩ :=
      value_of_respelled described catalog type spelled compact unread unread' room.symm ok
    exact ⟨last', ok'⟩
  · rintro ⟨last, ok⟩
    obtain ⟨last', ok', _⟩ :=
      value_of_respelled described catalog type compact spelled unread' unread room ok
    exact ⟨last', ok'⟩

/-- A list of one integer in wide forms, and in the shortest ones. -/
theorem value_of_compact_list :
    ∃ last, value (.standard .empty) .empty (.sequence .list (.scalar (.int .u8)))
      ⟨.ofCursor (.ofBytes [0x91, 0x07]) 1, ()⟩ = .ok (.list [.atom (.int 7)]) ⟨last, ()⟩ := by
  let wide : Reader := .ofCursor (.ofBytes [0xdc, 0x00, 0x01, 0xcd, 0x00, 0x07]) 1
  obtain ⟨after, accepted, done⟩ : ∃ after, Value.read wide = .ok (.array [.uint 7]) after ∧
      after.cursor.unread = [] := ⟨_, rfl, rfl⟩
  have typed : ∃ last, value (.standard .empty) .empty (.sequence .list (.scalar (.int .u8)))
      ⟨wide, ()⟩ = .ok (.list [.atom (.int 7)]) ⟨last, ()⟩ := ⟨_, rfl⟩
  obtain ⟨bytes, compact, passed, written, alike⟩ :=
    value_iff_of_compact (Lookup.described_standard .empty) .empty _ accepted
  have shortest : Write.run (Value.array [.uint 7]).write = .ok [0x91, 0x07] := rfl
  cases shortest.symm.trans written
  have unread := passed.unread
  rw [done] at unread
  have present : (Cursor.ofBytes [0x91, 0x07]).unread = [0x91, 0x07] ++ [] := rfl
  exact (alike wide (.ofCursor (.ofBytes [0x91, 0x07]) 1) [] [] unread present rfl () () _).1 typed

end Decode

end MsgPack
