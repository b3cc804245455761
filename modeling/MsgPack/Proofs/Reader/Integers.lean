import MsgPack.Formatter.Codec
import MsgPack.Proofs.Datum.Reads
import MsgPack.Proofs.Datum.Scalar
import MsgPack.Proofs.Wire.Numeral

/-!
# Integers of all forms in all ranges

Whatever form an integer is written in, a read into a range of integers gives the integer
itself if it lies in the range, and otherwise the overflow that tells the integer and the
range; the bytes of the integer are passed over in both cases.  What is written for an integer
of a range, in the shortest form or in the form of the range's width, are bytes that are this
integer.
-/

namespace MsgPack

namespace IntRange

/-- The form with the width of a range holds the integers of the range. -/
theorem form_holds {range : IntRange} {number : Int} (contained : range.Contains number) :
    range.form.Holds number := by
  have one : BigEndian.capacity Width.one.bytes = 0x100 := rfl
  have two : BigEndian.capacity Width.two.bytes = 0x10000 := rfl
  have four : BigEndian.capacity Width.four.bytes = 0x100000000 := rfl
  have eight : BigEndian.capacity Width.eight.bytes = 0x10000000000000000 := rfl
  rcases contained with ⟨low, high⟩
  cases range
  all_goals
    simp only [min] at low
    simp only [max] at high
    simp only [form, IntegerForm.Holds, one, two, four, eight]
    omega

end IntRange

namespace Read

variable {reader after : Reader} {bytes rest : Bytes} {number : Int} {range : IntRange}

/-- Bytes that are an integer are read as it, whatever the read says that it expects. -/
theorem integerAs_of_numeral (numeral : Numeral bytes number)
    (unread : reader.cursor.unread = bytes ++ rest) :
    ∃ integer after, (∀ expected, integerAs expected reader = .ok integer after) ∧
      integer.toInt = number ∧ reader.Passed bytes after := by
  obtain ⟨code, word, form, rfl, known, whole, same⟩ := numeral.exists_form
  obtain ⟨after, ok, passed⟩ := (AcceptsAfter.integerOf form).complete ⟨whole, rfl⟩ unread
  refine ⟨form.value code word, after, fun expected => ?_, same, passed⟩
  rw [integerAs, bind_of_ok (peekCode_eq unread)]
  simp only [known]
  exact ok

/-- An integer that was read is fitted into the range without reading more. -/
theorem fitted_of_integerAs {integer : Integer} {expected : Expected}
    (ok : integerAs expected reader = .ok integer after) (range : IntRange) :
    (integerAs expected >>= fun found => fit found range) reader =
      if range.Contains integer.toInt then .ok integer.toInt after
      else .error (.overflow integer.toInt range) after := by
  rw [bind_of_ok ok, fit_eq]
  split <;> rfl

/-- The number of a range that is read is the value of its type. -/
theorem atom_of_fitted {read : Read Int}
    (fitted : read reader = if range.Contains number then .ok number after
      else .error (.overflow number range) after) :
    (return Atom.int (← read)) reader = if range.Contains number then .ok (.int number) after
      else .error (.overflow number range) after := by
  by_cases contained : range.Contains number
  · rw [if_pos contained] at fitted ⊢
    exact bind_of_ok fitted _
  · rw [if_neg contained] at fitted ⊢
    exact bind_of_error fitted _

end Read

/-- Bytes are an integer just if they are a code and a word that some form of integers has.
Reading them into a range passes over them and gives the integer, if it lies in the range, and
otherwise the overflow that tells the integer and the range.  What is written for an integer of
a range, in the shortest form or in the form of the range, are bytes that are the integer. -/
theorem Read.int_exact :
    (∀ (code : UInt8) (word : Bytes), (∃ number, Numeral (code :: word) number) ↔
      ∃ form, (Format.ofCode code).integer? = some form ∧ word.length = form.payloadLength) ∧
    (∀ (bytes : Bytes) (number : Int), Numeral bytes number →
      ∀ (reader : Reader) (rest : Bytes), reader.cursor.unread = bytes ++ rest →
        ∃ after, reader.Passed bytes after ∧ ∀ range : IntRange,
          (Read.int range reader = if range.Contains number then .ok number after
            else .error (.overflow number range) after) ∧
          ((Scalar.int range).read reader =
            if range.Contains number then .ok (.int number) after
            else .error (.overflow number range) after)) ∧
    ∀ (range : IntRange) (number : Int), range.Contains number →
      (∃ bytes, Numeral bytes number ∧ ∀ writer,
        Write.int number writer = .ok () (writer.append bytes) ∧
        (Scalar.int range).write (.int number) writer = .ok () (writer.append bytes)) ∧
      ∃ bytes, Numeral bytes number ∧
        ∀ writer, Write.intAs range.form number writer = .ok () (writer.append bytes) := by
  refine ⟨fun _ _ => Numeral.exists_iff, ?reads, ?writes⟩
  case reads =>
    intro bytes number numeral reader rest unread
    obtain ⟨integer, after, ok, rfl, passed⟩ := Read.integerAs_of_numeral numeral unread
    refine ⟨after, passed, fun range => ?_⟩
    have int := Read.fitted_of_integerAs (ok (.range range)) range
    have size := Read.fitted_of_integerAs (ok .integer) range
    refine ⟨int, ?_⟩
    cases range with
    | usize => exact Read.atom_of_fitted size
    | isize => exact Read.atom_of_fitted size
    | _ => exact Read.atom_of_fitted int
  case writes =>
    intro range number contained
    obtain ⟨low, high⟩ := Scalar.bounds_of_contains contained
    have shortest := IntegerForm.shortest_holds low high
    exact ⟨⟨_, .encode shortest, fun _ => ⟨rfl, rfl⟩⟩, _,
      .encode (IntRange.form_holds contained), fun _ => rfl⟩

/-- A negative number in two bytes of its own does not fit into one, whose range is told with
it, and is read as itself where there is room; what is written for it in that form is it. -/
theorem Read.int_exact_of_negative :
    ∃ after, after.cursor.unread = [0xc0] ∧
      (Scalar.int .i8).read (.ofBytes [0xd1, 0xff, 0x38, 0xc0]) =
        .error (.overflow (-200) .i8) after ∧
      (Scalar.int .isize).read (.ofBytes [0xd1, 0xff, 0x38, 0xc0]) = .ok (.int (-200)) after ∧
      ∃ bytes, Numeral bytes (-200) ∧ Write.intAs IntRange.i16.form (-200) .empty =
        .ok () (Writer.empty.append bytes) := by
  have number : BigEndian.decodeSigned [0xff, 0x38] = -200 := by decide
  have numeral : Numeral [0xd1, 0xff, 0x38] (-200) := number ▸ .int16 rfl
  obtain ⟨_, reads, writes⟩ := Read.int_exact
  obtain ⟨after, passed, fits⟩ :=
    reads _ _ numeral (.ofBytes [0xd1, 0xff, 0x38, 0xc0]) [0xc0] rfl
  obtain ⟨_, bytes, written, appends⟩ := writes .i16 (-200) ⟨by decide, by decide⟩
  exact ⟨after, passed.unread_eq rfl, (fits .i8).2, (fits .isize).2, bytes, written,
    appends .empty⟩

end MsgPack
