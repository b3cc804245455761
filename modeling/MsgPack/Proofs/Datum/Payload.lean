import MsgPack.Formatter.Typing
import MsgPack.Proofs.Wire.Forms

/-!
# Payloads and what they stand for

Timestamps, identifiers and decimal numbers are written as payloads of extensions, and each
of these payloads is read as what it was written for.
-/

namespace MsgPack

/-! ## Timestamps -/

namespace Timestamp

theorem ofParts_of_lt {seconds : Int64} {nanoseconds : Nat}
    (valid : nanoseconds < nanosecondsPerSecond) :
    ofParts seconds nanoseconds = .ok ⟨seconds, nanoseconds, valid⟩ := by
  rw [ofParts, dif_pos valid]

/-- Seconds that are a natural number are given by that number. -/
theorem ofInt_toNat {seconds : Int64} (natural : 0 ≤ seconds.toInt) :
    Int64.ofInt (seconds.toInt.toNat : Nat) = seconds := by
  rw [Int.toNat_of_nonneg natural, Int64.ofInt_toInt]

/-- Reading a payload undoes writing it. -/
theorem ofPayload_payload (timestamp : Timestamp) :
    ofPayload timestamp.payload = .ok timestamp := by
  rcases timestamp with ⟨seconds, nanoseconds, valid⟩
  have fraction : nanoseconds < 1000000000 := valid
  have four : BigEndian.capacity 4 = 0x100000000 := rfl
  have eight : BigEndian.capacity 8 = 0x10000000000000000 := rfl
  have low := seconds.le_toInt
  have high := seconds.toInt_lt
  rw [payload]
  by_cases wide : SecondsBelow ⟨seconds, nanoseconds, valid⟩ 0x400000000
  · have natural : 0 ≤ seconds.toInt := wide.1
    have below : seconds.toInt < 0x400000000 := wide.2
    rw [if_pos wide]
    by_cases short : nanoseconds = 0 ∧ SecondsBelow ⟨seconds, nanoseconds, valid⟩ 0x100000000
    · have small : seconds.toInt < 0x100000000 := short.2.2
      rcases short with ⟨rfl, _⟩
      have held : seconds.toInt.toNat < BigEndian.capacity 4 := by omega
      rw [if_pos ⟨rfl, natural, small⟩]
      simp only [ofPayload, BigEndian.length_encode, BigEndian.decode_encode_of_lt held,
        ofInt_toNat natural]
      rfl
    · rw [if_neg short]
      generalize whole : seconds.toInt.toNat = number
      have held : nanoseconds * 0x400000000 + number < BigEndian.capacity 8 := by omega
      have rest : (nanoseconds * 0x400000000 + number) % 0x400000000 = number := by omega
      have part : (nanoseconds * 0x400000000 + number) / 0x400000000 = nanoseconds := by omega
      simp only [ofPayload, BigEndian.length_encode, BigEndian.decode_encode_of_lt held, rest,
        part]
      rw [← whole, ofInt_toNat natural, ofParts_of_lt valid]
  · have held : nanoseconds < BigEndian.capacity 4 := by omega
    have signed : BigEndian.decodeSigned (BigEndian.encodeSigned 8 seconds.toInt) =
        seconds.toInt := BigEndian.decodeSigned_encodeSigned (by omega) (by omega)
    have length := BigEndian.length_encode 4 nanoseconds
    rw [if_neg wide]
    simp only [ofPayload, List.length_append, length, BigEndian.length_encodeSigned]
    rw [List.drop_left' length, List.take_left' length, signed,
      BigEndian.decode_encode_of_lt held, Int64.ofInt_toInt, ofParts_of_lt valid]

end Timestamp

/-! ## Identifiers -/

namespace GuidFields

/-- Bytes cut where the fields of an identifier end. -/
theorem cut {bytes : Bytes} (whole : bytes.length = 16) :
    ∃ first second third rest, bytes = first ++ (second ++ (third ++ rest)) ∧
      first.length = 4 ∧ second.length = 2 ∧ third.length = 2 := by
  refine ⟨bytes.take 4, (bytes.drop 4).take 2, ((bytes.drop 4).drop 2).take 2,
    ((bytes.drop 4).drop 2).drop 2, ?_, ?_, ?_, ?_⟩
  · rw [List.take_append_drop, List.take_append_drop, List.take_append_drop]
  all_goals
    simp only [List.length_take, List.length_drop]
    omega

/-- Where the fields of an identifier are found. -/
theorem pieces {first second third : Bytes} (rest : Bytes) (four : first.length = 4)
    (two : second.length = 2) (two' : third.length = 2) :
    (first ++ (second ++ (third ++ rest))).take 4 = first ∧
      ((first ++ (second ++ (third ++ rest))).drop 4).take 2 = second ∧
      ((first ++ (second ++ (third ++ rest))).drop 6).take 2 = third ∧
      (first ++ (second ++ (third ++ rest))).drop 8 = rest := by
  have six : (first ++ (second ++ (third ++ rest))).drop 6 = third ++ rest := by
    rw [show 6 = 4 + 2 from rfl, ← List.drop_drop, List.drop_left' four, List.drop_left' two]
  refine ⟨List.take_left' four, ?_, ?_, ?_⟩
  · rw [List.drop_left' four, List.take_left' two]
  · rw [six, List.take_left' two']
  · rw [show 8 = 6 + 2 from rfl, ← List.drop_drop, six, List.drop_left' two']

theorem length_payload {bytes : Bytes} (whole : bytes.length = 16) :
    (ofBytes bytes).payload.length = 16 := by
  simp only [payload, ofBytes, List.length_append, List.length_reverse, BigEndian.length_encode,
    List.length_drop, whole]

/-- Reading a payload undoes writing it. -/
theorem toBytes_ofPayload_payload {bytes : Bytes} (whole : bytes.length = 16) :
    (ofPayload (ofBytes bytes).payload).toBytes = bytes := by
  obtain ⟨first, second, third, rest, rfl, four, two, two'⟩ := cut whole
  have word {count : Nat} {part : Bytes} (length : part.length = count) :
      BigEndian.encode count (BigEndian.decode part) = part := by
    rw [← length, BigEndian.encode_decode]
  obtain ⟨one, next, other, last⟩ := pieces rest four two two'
  have payload : (ofBytes (first ++ (second ++ (third ++ rest)))).payload =
      first.reverse ++ (second.reverse ++ (third.reverse ++ rest)) := by
    simp only [GuidFields.payload, ofBytes, one, next, other, last, word four, word two, word two',
      List.append_assoc]
  have back : ofPayload (first.reverse ++ (second.reverse ++ (third.reverse ++ rest))) =
      ⟨BigEndian.decode first, BigEndian.decode second, BigEndian.decode third, rest⟩ := by
    obtain ⟨one, next, other, last⟩ := pieces rest
      (List.length_reverse.trans four) (List.length_reverse.trans two)
      (List.length_reverse.trans two')
    simp only [ofPayload, one, next, other, last, List.reverse_reverse]
  simp only [payload, back, toBytes, word four, word two, word two', List.append_assoc]

end GuidFields

/-! ## Decimal numbers -/

namespace Decimal

/-- The words of four groups of bytes. -/
theorem ofPayload_append {flags low middle high : Bytes} (four : flags.length = 4)
    (four' : low.length = 4) (four'' : middle.length = 4) (last : high.length = 4) :
    ofPayload (flags ++ low ++ middle ++ high) =
      ofWords ⟨BigEndian.decode flags.reverse, BigEndian.decode low.reverse,
        BigEndian.decode middle.reverse, BigEndian.decode high.reverse⟩ := by
  have two : (flags ++ low).length = 8 := by
    rw [List.length_append, four, four']
  have three : (flags ++ low ++ middle).length = 12 := by
    rw [List.length_append, two, four'']
  have first : ((flags ++ low ++ middle ++ high).drop 0).take 4 = flags := by
    rw [List.drop_zero, List.append_assoc, List.append_assoc, List.take_left' four]
  have second : ((flags ++ low ++ middle ++ high).drop 4).take 4 = low := by
    rw [List.append_assoc, List.append_assoc, List.drop_left' four, List.take_left' four']
  have third : ((flags ++ low ++ middle ++ high).drop 8).take 4 = middle := by
    rw [List.append_assoc, List.drop_left' two, List.take_left' four'']
  have fourth : ((flags ++ low ++ middle ++ high).drop 12).take 4 = high := by
    rw [List.drop_left' three, List.take_of_length_le (Nat.le_of_eq last)]
  simp only [ofPayload, first, second, third, fourth]

/-- Reading the words of a number gives the number. -/
theorem ofWords_words {decimal : Decimal} (valid : decimal.Valid) :
    ofWords decimal.words = .ok decimal := by
  rcases decimal with ⟨negative, scale, mantissa⟩
  rcases valid with ⟨short, bounded, unsigned⟩
  have small : scale ≤ 28 := short
  dsimp only at bounded unsigned
  have whole : mantissa % 0x100000000 + mantissa / 0x100000000 % 0x100000000 * 0x100000000
      + mantissa / 0x10000000000000000 * 0x10000000000000000 = mantissa := by omega
  have sign : (negative && mantissa != 0) = negative := by
    cases negative with
    | false => rfl
    | true =>
        have nonzero : mantissa ≠ 0 := by
          intro zero
          cases unsigned zero
        simp only [bne_iff_ne.2 nonzero, Bool.and_self]
  cases negative with
  | false =>
      have scaled : scale * 0x10000 / 0x10000 % 0x100 = scale := by omega
      have unused : scale * 0x10000 % 0x10000 + scale * 0x10000 / 0x1000000 % 0x80 = 0 := by omega
      have plus : ¬ scale * 0x10000 / 0x80000000 = 1 := by omega
      simp only [ofWords, words, Bool.false_eq_true, if_false, Nat.add_zero, scaled, unused, short,
        plus, and_self, if_true, whole, ofParts, decide_false, Bool.false_and]
  | true =>
      have scaled : (scale * 0x10000 + 0x80000000) / 0x10000 % 0x100 = scale := by omega
      have unused : (scale * 0x10000 + 0x80000000) % 0x10000
          + (scale * 0x10000 + 0x80000000) / 0x1000000 % 0x80 = 0 := by omega
      have minus : (scale * 0x10000 + 0x80000000) / 0x80000000 = 1 := by omega
      simp only [ofWords, words, if_true, scaled, unused, short, minus, and_self, whole, ofParts,
        decide_true, sign]

/-- Reading a payload undoes writing it. -/
theorem ofPayload_payload {decimal : Decimal} (valid : decimal.Valid) :
    ofPayload decimal.payload = .ok decimal := by
  have length (word : Nat) : (wordBytes word).length = 4 := by
    rw [wordBytes, List.length_reverse, BigEndian.length_encode]
  have back {word : Nat} (held : word < 0x100000000) :
      BigEndian.decode (wordBytes word).reverse = word := by
    rw [wordBytes, List.reverse_reverse, BigEndian.decode_encode_of_lt held]
  have small : decimal.scale ≤ 28 := valid.1
  have bounded := valid.2.1
  have flags : decimal.words.flags < 0x100000000 := by
    simp only [words]
    split <;> omega
  have low : decimal.words.low < 0x100000000 := Nat.mod_lt _ (by decide)
  have middle : decimal.words.middle < 0x100000000 := Nat.mod_lt _ (by decide)
  have high : decimal.words.high < 0x100000000 := by
    simp only [words]
    omega
  simp only [payload]
  rw [ofPayload_append (length _) (length _) (length _) (length _), back flags, back low,
    back middle, back high]
  exact ofWords_words valid

theorem length_payload (decimal : Decimal) : decimal.payload.length = 16 := by
  simp only [payload, wordBytes, List.length_append, List.length_reverse, BigEndian.length_encode]

end Decimal

end MsgPack
