import MsgPack.Proofs.Formatter.Respelling
import MsgPack.Proofs.Value.Skipped

/-!
# Raw values

The raw bytes of a value are those that skipping it passes over.  They say by themselves where
they end and what they hold, so a reader that has nothing else reads from them what could be read
in their place, and they can be put in the place of any other value.
-/

namespace MsgPack

namespace Read

variable {reader after : Reader}

/-- Where a value cannot be skipped, it cannot be read raw, for the same reason. -/
theorem raw_of_skip_error {failure : Error} (error : skip reader = .error failure after) :
    raw reader = .error failure after := by
  simp only [raw, span, error]

/-- The raw bytes of a value are those that are passed over. -/
theorem raw_of_skip {bytes : Bytes} (skipped : skip reader = .ok () after)
    (passed : reader.Passed bytes after) :
    ∃ borrowed, raw reader = .ok ⟨bytes, borrowed⟩ after := by
  have moved : after.cursor.consumed - reader.cursor.consumed = bytes.length := by
    have position := passed.position
    simp only [Reader.position] at position
    omega
  have enough : bytes.length ≤ reader.cursor.remaining := by
    have counted := passed.remaining
    simp only [Reader.remaining] at counted
    omega
  obtain ⟨next, _, read⟩ := reader.cursor.exists_readSlice enough
  rw [passed.unread, List.take_left] at read
  simp only [raw, span, skipped, moved, read]
  exact ⟨_, rfl⟩

end Read

namespace Decode

variable {σ : Type}

/-- Two readers give the same values of any shape, and the same values of every type. -/
structure ReadsAlike (lookup : Lookup σ) (catalog : Catalog) (first second : Reader) : Prop where
  shape : ∀ whole : Value,
    (∃ last, Value.read first = .ok whole last) ↔ ∃ last, Value.read second = .ok whole last
  typed : ∀ (type : Schema) (memory kept : σ) (content : Datum),
    (∃ last, value lookup catalog type ⟨first, memory⟩ = .ok content ⟨last, kept⟩) ↔
      ∃ last, value lookup catalog type ⟨second, memory⟩ = .ok content ⟨last, kept⟩

variable {lookup : Lookup σ}

/-- Readers that have the same content before them read alike, whatever follows it. -/
theorem readsAlike_of_spells (described : lookup.Described) (catalog : Catalog) {said : Content}
    {bytes rest following : Bytes} (spelled : Spells [said] bytes) {first second : Reader}
    (unread : first.cursor.unread = bytes ++ rest)
    (unread' : second.cursor.unread = bytes ++ following) (room : first.budget = second.budget) :
    ReadsAlike lookup catalog first second where
  shape := by
    intro whole
    constructor
    · rintro ⟨last, ok⟩
      obtain ⟨last', ok', _⟩ :=
        Value.respelled reads_value spelled spelled unread unread' room.symm ok
      exact ⟨last', ok'⟩
    · rintro ⟨last, ok⟩
      obtain ⟨last', ok', _⟩ :=
        Value.respelled reads_value spelled spelled unread' unread room ok
      exact ⟨last', ok'⟩
  typed := by
    intro type memory kept content
    constructor
    · rintro ⟨last, ok⟩
      obtain ⟨last', ok', _⟩ :=
        value_of_respelled described catalog type spelled spelled unread unread' room.symm ok
      exact ⟨last', ok'⟩
    · rintro ⟨last, ok⟩
      obtain ⟨last', ok', _⟩ :=
        value_of_respelled described catalog type spelled spelled unread' unread room ok
      exact ⟨last', ok'⟩

/-- The raw bytes of a value can be read exactly where it can be skipped, and the reader ends
where skipping ends, also where it fails.  They are the bytes in between.  A reader of nothing but
these bytes, with as many levels left, skips them to their end, and reads from them what is read
in their place.  Written into the gap of any row of values, they leave it well-formed, deeper
only by the levels that they need and the gap does not have. -/
theorem raw_exact (described : lookup.Described) (catalog : Catalog) (reader : Reader) :
    (∀ failure after, Read.skip reader = .error failure after →
      Read.raw reader = .error failure after) ∧
    ∀ after, Read.skip reader = .ok () after →
      ∃ slice, Read.raw reader = .ok slice after ∧ reader.Passed slice.content after ∧
        (∀ fresh : Reader, fresh.cursor.unread = slice.content → fresh.budget = reader.budget →
          (∃ last, Read.skip fresh = .ok () last ∧ last.remaining = 0 ∧
            last.position = fresh.position + slice.content.length) ∧
          ReadsAlike lookup catalog fresh reader) ∧
        ∀ levels count inner before following, Gap levels count inner before following →
          (∀ writer, (do Write.emit before; Write.emit slice.content; Write.emit following) writer =
            .ok () (writer.append (before ++ slice.content ++ following))) ∧
          WellFormed (levels + (reader.budget - inner)) count
            (before ++ slice.content ++ following) := by
  refine ⟨fun failure after => Read.raw_of_skip_error, fun after skipped => ?_⟩
  have reads : Reads 1 1 (Session.lift Read.skip : Decode Unit Unit) := reads_skip
  obtain ⟨contents, bytes, counted, spelled, passed, _, deep, less, row⟩ :=
    reads (Session.lift_eq_ok.2 ⟨skipped, (rfl : () = ())⟩)
  obtain ⟨said, rfl⟩ := List.length_eq_one_iff.1 counted
  obtain ⟨borrowed, raw⟩ := Read.raw_of_skip skipped passed
  refine ⟨⟨bytes, borrowed⟩, raw, passed, fun fresh alone room => ?_,
    fun levels count inner before following gap => ⟨fun writer => ?_, ?_⟩⟩
  · rw [← List.append_nil bytes] at alone
    constructor
    · obtain ⟨last, ok, through⟩ :=
        Value.respelled reads spelled spelled passed.unread alone room skipped
      refine ⟨last, ok, ?_, through.position⟩
      rw [Reader.remaining, ← last.cursor.length_unread, through.unread_eq alone,
        List.length_nil]
    · exact readsAlike_of_spells described catalog spelled alone passed.unread room
  · rw [Write.emit_then, Write.emit_then, List.append_assoc]
    rfl
  · exact gap.fill (row.mono (by omega))

/-- A list of one integer that is cut in two and has nil behind it, and its bytes alone. -/
theorem raw_exact_list :
    let reader : Reader := .ofCursor (.ofSegments [[0x91], [], [0x07, 0xc0]]) 1
    let fresh : Reader := .ofCursor (.ofBytes [0x91, 0x07]) 1
    ∃ after last, Read.raw reader = .ok ⟨[0x91, 0x07], false⟩ after ∧
      value (.standard .empty) .empty (.sequence .list (.scalar (.int .u8))) ⟨fresh, ()⟩ =
        .ok (.list [.atom (.int 7)]) ⟨last, ()⟩ := by
  intro reader fresh
  obtain ⟨after, skipped⟩ : ∃ after, Read.skip reader = .ok () after := ⟨_, rfl⟩
  obtain ⟨slice, read, _, alone, _⟩ :=
    (raw_exact (Lookup.described_standard .empty) .empty reader).2 after skipped
  have here : Read.raw reader = .ok ⟨[0x91, 0x07], false⟩ after := by
    cases skipped
    rfl
  cases here.symm.trans read
  have typed : ∃ last, value (.standard .empty) .empty (.sequence .list (.scalar (.int .u8)))
      ⟨reader, ()⟩ = .ok (.list [.atom (.int 7)]) ⟨last, ()⟩ := ⟨_, rfl⟩
  obtain ⟨last, ok⟩ :=
    ((alone fresh (Cursor.unread_ofBytes _) rfl).2.typed _ () () _).2 typed
  exact ⟨after, last, here, ok⟩

end Decode

end MsgPack
