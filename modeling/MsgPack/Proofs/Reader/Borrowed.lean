import MsgPack.Proofs.Reader.Reached
import MsgPack.Proofs.Reader.Skip
import MsgPack.Proofs.Text.Utf8

/-!
# Borrowed slices

A slice is borrowed just if its bytes lie in one segment, and an empty one always is.  Whether it
is borrowed is decided by the span alone.  That is right wherever operations take a reader: the
segments that have been read are left behind there, so that the next byte lies in no segment but
the current one.
-/

namespace MsgPack

/-- Some bytes from a position on lie in one segment. -/
def InOneSegment (segments : List Bytes) (position count : Nat) : Prop :=
  ∃ index segment, segments[index]? = some segment ∧ startOf segments index ≤ position ∧
    position + count ≤ startOf segments index + segment.length

/-- Bytes of a segment lie inside the source. -/
theorem InOneSegment.le {segments : List Bytes} {position count : Nat}
    (inside : InOneSegment segments position count) :
    position + count ≤ segments.flatten.length := by
  obtain ⟨index, segment, found, _, ends⟩ := inside
  have bound := startOf_le segments (index + 1)
  rw [startOf_succ found] at bound
  exact Nat.le_trans ends bound

/-- A slice has the bytes of the source from a position on, and is borrowed just if it is empty
or they lie in one segment. -/
structure Fetched.TakenFrom (segments : List Bytes) (position : Nat) (slice : Fetched Bytes) :
    Prop where
  content_eq : slice.content = (segments.flatten.drop position).take slice.content.length
  borrowed_iff : slice.borrowed = true ↔
    slice.content.length = 0 ∨ InOneSegment segments position slice.content.length

/-- A slice was taken from the bytes that end where a reader stands. -/
def Fetched.EndsAt (segments : List Bytes) (after : Reader) (slice : Fetched Bytes) : Prop :=
  ∃ position, after.position = position + slice.content.length ∧
    slice.TakenFrom segments position

namespace Cursor.Stands

variable {segments : List Bytes} {cursor next : Cursor} {slice : Fetched Bytes} {count : Nat}

/-- What is unread lies behind the position. -/
theorem unread_eq (stands : cursor.Stands segments) :
    cursor.unread = segments.flatten.drop cursor.consumed := by
  cases cursor with
  | run cursor =>
      obtain ⟨⟨_, source⟩, _⟩ := stands
      rw [← source]
      exact cursor.ahead_eq
  | segmented cursor => exact stands.1.flatten_ahead

/-- The span holds the next bytes just if they lie in one segment. -/
theorem holds_iff (stands : cursor.Stands segments) :
    cursor.Holds count ↔ count = 0 ∨ InOneSegment segments cursor.consumed count := by
  rcases Nat.eq_zero_or_pos count with rfl | some
  · exact iff_of_true (Cursor.holds_iff.2 (Nat.zero_le _)) (.inl rfl)
  cases cursor with
  | run cursor =>
      have sound : cursor.Sound segments.flatten := stands.sound
      have total := sound.total
      rw [Cursor.holds_iff, show (Cursor.run cursor).span = cursor.ahead from rfl,
        cursor.length_ahead]
      constructor
      · intro enough
        match segments, stands.1.1 with
        | [], _ =>
            rw [List.flatten_nil, List.length_nil] at total
            omega
        | [segment], _ =>
            rw [List.flatten_cons, List.flatten_nil, List.append_nil] at total
            have start : startOf [segment] 0 = 0 := rfl
            refine .inr ⟨0, segment, rfl, Nat.zero_le _, ?_⟩
            rw [start, Nat.zero_add, ← total]
            exact Nat.add_le_add_left enough _
      · rintro (none | inside)
        · omega
        · have bound : cursor.position + count ≤ segments.flatten.length := inside.le
          omega
  | segmented cursor =>
      have sound : cursor.Sound segments := stands.sound
      have position := sound.consumed_eq
      have total := sound.total
      constructor
      · intro held
        have enough : count ≤ cursor.remaining := le_remaining_of_holds held
        obtain ⟨segment, found, short, span⟩ := sound.inside (by omega)
        rw [Cursor.holds_iff, show (Cursor.segmented cursor).span = cursor.span from rfl, span,
          List.length_drop] at held
        refine .inr ⟨cursor.index, segment, found, ?_⟩
        change startOf segments cursor.index ≤ cursor.consumed ∧ cursor.consumed + count ≤ _
        omega
      · rintro (none | inside)
        · omega
        have bound : cursor.consumed + count ≤ segments.flatten.length := inside.le
        obtain ⟨index, segment, found, start, ends⟩ := inside
        change startOf segments index ≤ cursor.consumed at start
        change cursor.consumed + count ≤ _ at ends
        obtain ⟨current, here, short, span⟩ := sound.inside (by omega)
        rw [Cursor.holds_iff, show (Cursor.segmented cursor).span = cursor.span from rfl, span,
          List.length_drop]
        -- An earlier segment ends before the position, a later one starts behind it.
        rcases Nat.lt_trichotomy index cursor.index with earlier | same | later
        · have apart := startOf_add_length_le found earlier
          omega
        · subst same
          cases found.symm.trans here
          omega
        · have apart := startOf_add_length_le here later
          omega

/-- A slice that is read has the next bytes, borrowed just if they lie in one segment. -/
theorem readSlice (stands : cursor.Stands segments)
    (read : cursor.readSlice count = .ok (slice, next)) :
    slice.content.length = count ∧ next.consumed = cursor.consumed + count ∧
      slice.TakenFrom segments cursor.consumed := by
  obtain ⟨moved, rfl⟩ := of_readSlice_eq_ok read
  obtain ⟨enough, _, consumed, _⟩ := of_advance_eq_ok moved
  have length : (cursor.unread.take count).length = count := by
    rw [List.length_take, length_unread]
    exact Nat.min_eq_left enough
  refine ⟨length, consumed, ?_, ?_⟩
  · rw [length, ← stands.unread_eq]
  · rw [length, decide_eq_true_iff]
    exact stands.holds_iff

end Cursor.Stands

namespace Read

variable {segments : List Bytes} {reader after : Reader}

/-- A cursor still stands after a composed read. -/
theorem Composed.stands {α : Type} {read : Read α} {result : α}
    (composed : Composed true false read) (stands : reader.cursor.Stands segments)
    (ok : read reader = .ok result after) : after.cursor.Stands segments := by
  have kept := composed.keeps (fun _ _ _ => Cursor.Stands.advance) stands nofun
  rwa [ok] at kept

theorem rawBytes_endsAt {count : Nat} {slice : Fetched Bytes}
    (stands : reader.cursor.Stands segments) (ok : rawBytes count reader = .ok slice after) :
    slice.EndsAt segments after := by
  simp only [rawBytes, take] at ok
  cases read : reader.cursor.readSlice count with
  | ok found =>
      rw [read] at ok
      cases ok
      obtain ⟨length, consumed, taken⟩ := stands.readSlice read
      exact ⟨reader.position, length.symm ▸ consumed, taken⟩
  | error failure =>
      rw [read] at ok
      cases ok

theorem str_endsAt {text : Fetched String} (stands : reader.cursor.Stands segments)
    (ok : str reader = .ok text after) :
    (Fetched.mk (Utf8.encode text.content) text.borrowed).EndsAt segments after := by
  obtain ⟨length, middle, header, rest⟩ := bind_eq_ok.1 ok
  obtain ⟨slice, last, payload, rest⟩ := bind_eq_ok.1 rest
  have ends := rawBytes_endsAt (composed_strHeader.stands stands header) payload
  cases decoded : Utf8.decode slice.content with
  | ok content =>
      simp only [decoded] at rest
      cases rest
      rw [Utf8.encode_of_decode decoded]
      exact ends
  | error failure =>
      simp only [decoded] at rest
      cases rest

theorem bin_endsAt {slice : Fetched Bytes} (stands : reader.cursor.Stands segments)
    (ok : bin reader = .ok slice after) : slice.EndsAt segments after := by
  obtain ⟨length, middle, header, payload⟩ := bind_eq_ok.1 ok
  exact rawBytes_endsAt (composed_binHeader.stands stands header) payload

theorem extension_endsAt {found : Extension} (stands : reader.cursor.Stands segments)
    (ok : extension reader = .ok found after) : found.payload.EndsAt segments after := by
  obtain ⟨header, middle, headed, rest⟩ := bind_eq_ok.1 ok
  obtain ⟨slice, last, payload, rest⟩ := bind_eq_ok.1 rest
  cases rest
  exact rawBytes_endsAt (composed_extensionHeader.stands stands headed) payload

/-- The bytes of a value are taken from where the value starts. -/
theorem raw_endsAt {slice : Fetched Bytes} (stands : reader.cursor.Stands segments)
    (ok : raw reader = .ok slice after) : slice.EndsAt segments after := by
  unfold raw span at ok
  cases skipped : skip reader with
  | ok _ last =>
      obtain ⟨bytes, _, passed⟩ := skipsSoundly_skipWithin _ _ _ rfl skipped
      simp only [skipped] at ok
      cases read : reader.cursor.readSlice (last.cursor.consumed - reader.cursor.consumed) with
      | ok found =>
          rw [read] at ok
          cases ok
          obtain ⟨length, _, taken⟩ := stands.readSlice read
          refine ⟨reader.position, ?_, taken⟩
          have position := passed.position
          rw [length]
          simp only [Reader.position] at position ⊢
          omega
      | error failure =>
          rw [read] at ok
          cases ok
  | error failure last =>
      simp only [skipped] at ok
      cases ok

end Read

/-- Whatever was read before, and wherever the source is cut: a slice has the bytes that were
asked for, if they are there, and it is borrowed just if it is empty or its bytes lie in one
segment.  The same holds of strings, binary data, extensions, raw bytes and raw values, whose
bytes end where the reader is taken to. -/
theorem borrowed_exact {segments : List Bytes} {source : Cursor} {reader : Reader}
    (opens : source.Opens segments) (reached : Reader.Reached source reader) :
    (∀ count, count ≤ reader.remaining → ∃ slice next,
      reader.cursor.readSlice count = .ok (slice, next) ∧ slice.content.length = count ∧
        next.consumed = reader.position + count ∧ slice.TakenFrom segments reader.position) ∧
    (∀ text after, Read.str reader = .ok text after →
      (Fetched.mk (Utf8.encode text.content) text.borrowed).EndsAt segments after) ∧
    (∀ slice after, Read.bin reader = .ok slice after → slice.EndsAt segments after) ∧
    (∀ found after, Read.extension reader = .ok found after →
      found.payload.EndsAt segments after) ∧
    (∀ count slice after, Read.rawBytes count reader = .ok slice after →
      slice.EndsAt segments after) ∧
    ∀ slice after, Read.raw reader = .ok slice after → slice.EndsAt segments after := by
  have stands := reached.stands opens
  refine ⟨fun count enough => ?_, fun _ _ => Read.str_endsAt stands,
    fun _ _ => Read.bin_endsAt stands, fun _ _ => Read.extension_endsAt stands,
    fun _ _ _ => Read.rawBytes_endsAt stands, fun _ _ => Read.raw_endsAt stands⟩
  obtain ⟨next, _, read⟩ := reader.cursor.exists_readSlice enough
  exact ⟨_, next, read, stands.readSlice read⟩

/-- Binary data whose header and bytes are cut, and then some that lies in one segment. -/
theorem borrowed_exact_cut :
    ∃ middle after,
      Read.bin (.ofCursor (.ofSegments [[0xc4], [0x02, 0x01], [0x02, 0xc4, 0x01, 0x09]]) 4) =
        .ok ⟨[0x01, 0x02], false⟩ middle ∧
      Read.bin middle = .ok ⟨[0x09], true⟩ after ∧
      (Fetched.mk [0x09] true).EndsAt [[0xc4], [0x02, 0x01], [0x02, 0xc4, 0x01, 0x09]] after := by
  have reached :
      Reader.Reached (.ofSegments [[0xc4], [0x02, 0x01], [0x02, 0xc4, 0x01, 0x09]]) _ :=
    .perform .bin (.start 4)
  exact ⟨_, _, rfl, rfl, (borrowed_exact .segmented reached).2.2.1 _ _ rfl⟩

end MsgPack
