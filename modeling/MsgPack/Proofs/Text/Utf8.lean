import MsgPack.Text.Utf8

/-!
# Text and back

The bytes of a text are decoded to that text, and no other bytes are.  Every character is
one step of the decoder: its first byte announces the length of its sequence, the second byte
lies in the narrower range that the first one allows, and the payloads of the bytes are the
digits of its scalar value in base 64.
-/

namespace MsgPack.Utf8

variable {start : Nat} {read : List Char} {first second third fourth : UInt8}

/-! ## Steps of the decoder -/

theorem decodeFrom_one (ascii : first < 0x80) (rest : Bytes) :
    decodeFrom start read (first :: rest) =
      decodeFrom (start + 1) (Char.ofNat first.toNat :: read) rest := by
  rw [decodeFrom.eq_def]
  simp only [if_pos ascii]

theorem decodeFrom_two (low : 0xc2 ≤ first) (high : first ≤ 0xdf)
    (continues : isContinuation second) (rest : Bytes) :
    decodeFrom start read (first :: second :: rest) =
      decodeFrom (start + 2) (Char.ofNat (first.toNat % 32 * 64 + payload second) :: read)
        rest := by
  have ascii : ¬ first < 0x80 := by
    simp only [UInt8.le_iff_toNat_le, UInt8.lt_iff_toNat_lt, UInt8.reduceToNat] at *
    omega
  rw [decodeFrom.eq_def]
  simp only [if_neg ascii, low, high, decide_true, Bool.and_self, if_true, continues]

theorem decodeFrom_three (low : 0xe0 ≤ first) (high : first ≤ 0xef)
    (allowed : isSecondOfThree first second) (continues : isContinuation third) (rest : Bytes) :
    decodeFrom start read (first :: second :: third :: rest) =
      decodeFrom (start + 3)
        (Char.ofNat ((first.toNat % 16 * 64 + payload second) * 64 + payload third) :: read)
        rest := by
  have ascii : ¬ first < 0x80 := by
    simp only [UInt8.le_iff_toNat_le, UInt8.lt_iff_toNat_lt, UInt8.reduceToNat] at *
    omega
  have two : ¬ first ≤ 0xdf := by
    simp only [UInt8.le_iff_toNat_le, UInt8.reduceToNat] at *
    omega
  rw [decodeFrom.eq_def]
  simp only [if_neg ascii, low, high, two, decide_true, decide_false, Bool.and_self,
    Bool.and_false, if_true, allowed, continues, Bool.not_true, Bool.false_eq_true, if_false]

theorem decodeFrom_four (low : 0xf0 ≤ first) (high : first ≤ 0xf4)
    (allowed : isSecondOfFour first second) (continues : isContinuation third)
    (continues' : isContinuation fourth) (rest : Bytes) :
    decodeFrom start read (first :: second :: third :: fourth :: rest) =
      decodeFrom (start + 4)
        (Char.ofNat (((first.toNat % 8 * 64 + payload second) * 64 + payload third) * 64
          + payload fourth) :: read) rest := by
  have ascii : ¬ first < 0x80 := by
    simp only [UInt8.le_iff_toNat_le, UInt8.lt_iff_toNat_lt, UInt8.reduceToNat] at *
    omega
  have two : ¬ first ≤ 0xdf := by
    simp only [UInt8.le_iff_toNat_le, UInt8.reduceToNat] at *
    omega
  have three : ¬ first ≤ 0xef := by
    simp only [UInt8.le_iff_toNat_le, UInt8.reduceToNat] at *
    omega
  rw [decodeFrom.eq_def]
  simp only [if_neg ascii, low, high, two, three, decide_true, decide_false, Bool.and_self,
    Bool.and_false, if_true, allowed, continues, continues', Bool.not_true, Bool.false_eq_true,
    if_false]

/-! ## Bytes of a character -/

/-- A byte after the first holds six bits. -/
theorem isContinuation_ofNat (number : Nat) :
    isContinuation (UInt8.ofNat (number % 64 + 0x80)) = true := by
  have byte : (UInt8.ofNat (number % 64 + 0x80)).toNat = number % 64 + 0x80 := by
    rw [UInt8.toNat_ofNat']
    omega
  simp only [isContinuation, UInt8.le_iff_toNat_le, byte, UInt8.reduceToNat, Bool.and_eq_true,
    decide_eq_true_eq]
  omega

theorem payload_ofNat (number : Nat) :
    payload (UInt8.ofNat (number % 64 + 0x80)) = number % 64 := by
  rw [payload, UInt8.toNat_ofNat']
  omega

/-- The second byte of a sequence of three is allowed, unless the sequence is overlong or
the scalar value is a surrogate. -/
theorem isSecondOfThree_ofNat {number : Nat} (long : 0x7ff < number) (short : number ≤ 0xffff)
    (valid : number < 0xd800 ∨ 0xdfff < number) :
    isSecondOfThree (UInt8.ofNat (number / 4096 % 0x10 + 0xe0))
      (UInt8.ofNat (number / 64 % 0x40 + 0x80)) = true := by
  have head : (UInt8.ofNat (number / 4096 % 0x10 + 0xe0)).toNat = number / 4096 + 0xe0 := by
    rw [UInt8.toNat_ofNat']
    omega
  have byte : (UInt8.ofNat (number / 64 % 0x40 + 0x80)).toNat = number / 64 % 0x40 + 0x80 := by
    rw [UInt8.toNat_ofNat']
    omega
  unfold isSecondOfThree
  split
  · rename_i first
    rw [← UInt8.toNat_inj, head] at first
    simp only [UInt8.le_iff_toNat_le, byte, UInt8.reduceToNat, Bool.and_eq_true,
      decide_eq_true_eq] at first ⊢
    omega
  · split
    · rename_i first
      rw [← UInt8.toNat_inj, head] at first
      simp only [UInt8.le_iff_toNat_le, byte, UInt8.reduceToNat, Bool.and_eq_true,
        decide_eq_true_eq] at first ⊢
      omega
    · exact isContinuation_ofNat (number / 64)

/-- The second byte of a sequence of four is allowed, unless the sequence is overlong or
the number is no scalar value. -/
theorem isSecondOfFour_ofNat {number : Nat} (long : 0xffff < number)
    (valid : number < 0x110000) :
    isSecondOfFour (UInt8.ofNat (number / 262144 % 0x08 + 0xf0))
      (UInt8.ofNat (number / 4096 % 0x40 + 0x80)) = true := by
  have head : (UInt8.ofNat (number / 262144 % 0x08 + 0xf0)).toNat = number / 262144 + 0xf0 := by
    rw [UInt8.toNat_ofNat']
    omega
  have byte : (UInt8.ofNat (number / 4096 % 0x40 + 0x80)).toNat =
      number / 4096 % 0x40 + 0x80 := by
    rw [UInt8.toNat_ofNat']
    omega
  unfold isSecondOfFour
  split
  · rename_i first
    rw [← UInt8.toNat_inj, head] at first
    simp only [UInt8.le_iff_toNat_le, byte, UInt8.reduceToNat, Bool.and_eq_true,
      decide_eq_true_eq] at first ⊢
    omega
  · split
    · rename_i first
      rw [← UInt8.toNat_inj, head] at first
      simp only [UInt8.le_iff_toNat_le, byte, UInt8.reduceToNat, Bool.and_eq_true,
        decide_eq_true_eq] at first ⊢
      omega
    · exact isContinuation_ofNat (number / 4096)

/-- A byte of the given mark and bits is as large as both together. -/
theorem toNat_mark {bits mark : Nat} (room : mark + bits < 256) :
    (UInt8.ofNat (bits + mark)).toNat = bits + mark := by
  rw [UInt8.toNat_ofNat']
  omega

/-- The bytes of a character are decoded in one step. -/
theorem decodeFrom_utf8EncodeChar (start : Nat) (read : List Char) (character : Char)
    (rest : Bytes) :
    ∃ after, decodeFrom start read (String.utf8EncodeChar character ++ rest) =
      decodeFrom after (character :: read) rest := by
  have same : Char.ofNat character.val.toNat = character := Char.ofNat_toNat character
  have valid : character.val.toNat < 0xd800 ∨
      0xdfff < character.val.toNat ∧ character.val.toNat < 0x110000 := character.valid
  rw [String.utf8EncodeChar]
  generalize character.val.toNat = number at same valid
  by_cases one : number ≤ 0x7f
  · have byte : (UInt8.ofNat number).toNat = number := toNat_mark (by omega : 0 + number < 256)
    refine ⟨start + 1, ?_⟩
    rw [if_pos one, List.cons_append, decodeFrom_one, byte, same, List.nil_append]
    rw [UInt8.lt_iff_toNat_lt, byte]
    exact Nat.lt_succ_of_le one
  by_cases two : number ≤ 0x7ff
  · have byte : (UInt8.ofNat (number / 64 % 0x20 + 0xc0)).toNat = number / 64 % 0x20 + 0xc0 :=
      toNat_mark (by omega)
    have joined : (number / 64 % 0x20 + 0xc0) % 32 * 64 + number % 64 = number := by omega
    refine ⟨start + 2, ?_⟩
    rw [if_neg one, if_pos two, List.cons_append, List.cons_append,
      decodeFrom_two _ _ (isContinuation_ofNat number), byte, payload_ofNat, joined, same,
      List.nil_append]
    all_goals
      simp only [UInt8.le_iff_toNat_le, byte, UInt8.reduceToNat]
      omega
  by_cases three : number ≤ 0xffff
  · have byte : (UInt8.ofNat (number / 4096 % 0x10 + 0xe0)).toNat =
        number / 4096 % 0x10 + 0xe0 := toNat_mark (by omega)
    have joined : ((number / 4096 % 0x10 + 0xe0) % 16 * 64 + number / 64 % 64) * 64
        + number % 64 = number := by omega
    have allowed := isSecondOfThree_ofNat (Nat.lt_of_not_le two) three (by omega)
    refine ⟨start + 3, ?_⟩
    rw [if_neg one, if_neg two, if_pos three, List.cons_append, List.cons_append,
      List.cons_append, decodeFrom_three _ _ allowed (isContinuation_ofNat number), byte,
      payload_ofNat, payload_ofNat, joined, same, List.nil_append]
    all_goals
      simp only [UInt8.le_iff_toNat_le, byte, UInt8.reduceToNat]
      omega
  · have byte : (UInt8.ofNat (number / 262144 % 0x08 + 0xf0)).toNat =
        number / 262144 % 0x08 + 0xf0 := toNat_mark (by omega)
    have joined : (((number / 262144 % 0x08 + 0xf0) % 8 * 64 + number / 4096 % 64) * 64
        + number / 64 % 64) * 64 + number % 64 = number := by omega
    have allowed := isSecondOfFour_ofNat (Nat.lt_of_not_le three) (by omega)
    refine ⟨start + 4, ?_⟩
    rw [if_neg one, if_neg two, if_neg three, List.cons_append, List.cons_append,
      List.cons_append, List.cons_append,
      decodeFrom_four _ _ allowed (isContinuation_ofNat (number / 64))
        (isContinuation_ofNat number),
      byte, payload_ofNat, payload_ofNat, payload_ofNat, joined, same, List.nil_append]
    all_goals
      simp only [UInt8.le_iff_toNat_le, byte, UInt8.reduceToNat]
      omega

/-! ## Texts -/

/-- The characters that were read stay in front. -/
theorem decodeFrom_flatMap (start : Nat) (read characters : List Char) :
    decodeFrom start read (characters.flatMap String.utf8EncodeChar) =
      .ok (read.reverse ++ characters) := by
  induction characters generalizing start read with
  | nil =>
      rw [decodeFrom.eq_def]
      simp only [List.flatMap_nil, List.append_nil]
  | cons character characters ih =>
      obtain ⟨after, step⟩ := decodeFrom_utf8EncodeChar start read character
        (characters.flatMap String.utf8EncodeChar)
      rw [List.flatMap_cons, step, ih, List.reverse_cons, List.append_assoc]
      rfl

/-- Decoding undoes encoding. -/
@[simp]
theorem decode_encode (text : String) : decode (encode text) = .ok text := by
  rw [decode, encode, decodeFrom_flatMap]
  simp only [List.reverse_nil, List.nil_append, Except.map, String.ofList_toList]

/-! ## Bytes that are text -/

/-- A byte is made of its mark and its bits. -/
theorem eq_mark {byte : UInt8} {number mark : Nat} (same : byte.toNat = number + mark) :
    UInt8.ofNat (number + mark) = byte := by
  rw [← same, UInt8.ofNat_toNat]

theorem toNat_of_isContinuation {byte : UInt8} (continues : isContinuation byte) :
    byte.toNat = payload byte + 0x80 := by
  simp only [isContinuation, UInt8.le_iff_toNat_le, UInt8.reduceToNat, Bool.and_eq_true,
    decide_eq_true_eq] at continues
  rw [payload]
  omega

/-- A second byte that is allowed continues the sequence.  It is narrowed down after the
lowest and the highest of the first bytes. -/
theorem second_bounds {lowest highest low high : UInt8} (apart : lowest ≠ highest)
    (above : 0x80 ≤ low) (below : high ≤ 0xbf)
    (allowed : (if first = lowest then low ≤ second && second ≤ 0xbf
      else if first = highest then 0x80 ≤ second && second ≤ high
      else isContinuation second) = true) :
    isContinuation second ∧ (first = lowest → low ≤ second) ∧
      (first = highest → second ≤ high) := by
  split at allowed
  next start =>
    rw [Bool.and_eq_true, decide_eq_true_eq, decide_eq_true_eq] at allowed
    rw [isContinuation, Bool.and_eq_true, decide_eq_true_eq, decide_eq_true_eq]
    exact ⟨⟨UInt8.le_trans above allowed.1, allowed.2⟩, fun _ => allowed.1,
      fun other => absurd (start.symm.trans other) apart⟩
  next after =>
    split at allowed
    next last =>
      rw [Bool.and_eq_true, decide_eq_true_eq, decide_eq_true_eq] at allowed
      rw [isContinuation, Bool.and_eq_true, decide_eq_true_eq, decide_eq_true_eq]
      exact ⟨⟨allowed.1, UInt8.le_trans allowed.2 below⟩, fun other => absurd other after,
        fun _ => allowed.2⟩
    next before =>
      exact ⟨allowed, fun other => absurd other after, fun other => absurd other before⟩

theorem val_ofNat {number : Nat} (valid : number.isValidChar) :
    (Char.ofNat number).val.toNat = number := by
  rw [Char.ofNat, dif_pos valid]
  rfl

theorem utf8EncodeChar_one (ascii : first < 0x80) :
    String.utf8EncodeChar (Char.ofNat first.toNat) = [first] := by
  simp only [UInt8.lt_iff_toNat_lt, UInt8.reduceToNat] at ascii
  rw [String.utf8EncodeChar, val_ofNat (.inl (by omega))]
  simp only [if_pos (Nat.le_of_lt_succ ascii), UInt8.ofNat_toNat]

theorem utf8EncodeChar_two (low : 0xc2 ≤ first) (high : first ≤ 0xdf)
    (continues : isContinuation second) :
    String.utf8EncodeChar (Char.ofNat (first.toNat % 32 * 64 + payload second)) =
      [first, second] := by
  have byte := toNat_of_isContinuation continues
  simp only [UInt8.le_iff_toNat_le, UInt8.reduceToNat] at low high
  have small : payload second < 64 := Nat.mod_lt _ (by omega)
  generalize payload second = bits at byte small
  obtain ⟨number, joined⟩ : ∃ number, number = first.toNat % 32 * 64 + bits := ⟨_, rfl⟩
  rw [← joined, String.utf8EncodeChar, val_ofNat (.inl (by omega))]
  simp only [if_neg (show ¬ number ≤ 0x7f by omega), if_pos (show number ≤ 0x7ff by omega)]
  rw [eq_mark (by omega : first.toNat = _), eq_mark (by omega : second.toNat = _)]

theorem utf8EncodeChar_three (low : 0xe0 ≤ first) (high : first ≤ 0xef)
    (allowed : isSecondOfThree first second) (continues : isContinuation third) :
    String.utf8EncodeChar
      (Char.ofNat ((first.toNat % 16 * 64 + payload second) * 64 + payload third)) =
        [first, second, third] := by
  obtain ⟨continued, long, plain⟩ := second_bounds (by decide) (by decide) (by decide) allowed
  have byte := toNat_of_isContinuation continued
  have byte' := toNat_of_isContinuation continues
  simp only [UInt8.le_iff_toNat_le, ← UInt8.toNat_inj, UInt8.reduceToNat] at low high long plain
  have small : payload second < 64 := Nat.mod_lt _ (by omega)
  have small' : payload third < 64 := Nat.mod_lt _ (by omega)
  generalize payload second = bits at byte small
  generalize payload third = bits' at byte' small'
  obtain ⟨number, joined⟩ :
    ∃ number, number = (first.toNat % 16 * 64 + bits) * 64 + bits' := ⟨_, rfl⟩
  have valid : number.isValidChar := by
    rw [Nat.isValidChar]
    omega
  rw [← joined, String.utf8EncodeChar, val_ofNat valid]
  simp only [if_neg (show ¬ number ≤ 0x7f by omega), if_neg (show ¬ number ≤ 0x7ff by omega),
    if_pos (show number ≤ 0xffff by omega)]
  rw [eq_mark (by omega : first.toNat = _), eq_mark (by omega : second.toNat = _),
    eq_mark (by omega : third.toNat = _)]

theorem utf8EncodeChar_four (low : 0xf0 ≤ first) (high : first ≤ 0xf4)
    (allowed : isSecondOfFour first second) (continues : isContinuation third)
    (continues' : isContinuation fourth) :
    String.utf8EncodeChar
      (Char.ofNat (((first.toNat % 8 * 64 + payload second) * 64 + payload third) * 64
        + payload fourth)) = [first, second, third, fourth] := by
  obtain ⟨continued, long, plain⟩ := second_bounds (by decide) (by decide) (by decide) allowed
  have byte := toNat_of_isContinuation continued
  have byte' := toNat_of_isContinuation continues
  have byte'' := toNat_of_isContinuation continues'
  simp only [UInt8.le_iff_toNat_le, ← UInt8.toNat_inj, UInt8.reduceToNat] at low high long plain
  have small : payload second < 64 := Nat.mod_lt _ (by omega)
  have small' : payload third < 64 := Nat.mod_lt _ (by omega)
  have small'' : payload fourth < 64 := Nat.mod_lt _ (by omega)
  generalize payload second = bits at byte small
  generalize payload third = bits' at byte' small'
  generalize payload fourth = bits'' at byte'' small''
  obtain ⟨number, joined⟩ :
    ∃ number, number = ((first.toNat % 8 * 64 + bits) * 64 + bits') * 64 + bits'' := ⟨_, rfl⟩
  have valid : number.isValidChar := by
    rw [Nat.isValidChar]
    omega
  rw [← joined, String.utf8EncodeChar, val_ofNat valid]
  simp only [if_neg (show ¬ number ≤ 0x7f by omega), if_neg (show ¬ number ≤ 0x7ff by omega),
    if_neg (show ¬ number ≤ 0xffff by omega)]
  rw [eq_mark (by omega : first.toNat = _), eq_mark (by omega : second.toNat = _),
    eq_mark (by omega : third.toNat = _), eq_mark (by omega : fourth.toNat = _)]

/-- One more character in front of those that are read from the rest. -/
theorem flatMap_step {characters : List Char} {character : Char} {sequence rest : Bytes}
    (encoded : String.utf8EncodeChar character = sequence)
    (others : ∃ further, characters = (character :: read).reverse ++ further ∧
      further.flatMap String.utf8EncodeChar = rest) :
    ∃ further, characters = read.reverse ++ further ∧
      further.flatMap String.utf8EncodeChar = sequence ++ rest := by
  obtain ⟨further, rfl, same⟩ := others
  refine ⟨character :: further, ?_, ?_⟩
  · rw [List.reverse_cons, List.append_assoc]
    rfl
  · rw [List.flatMap_cons, encoded, same]

/-- The characters that are read from bytes have these bytes. -/
theorem flatMap_of_decodeFrom (bytes : Bytes) {characters : List Char}
    (ok : decodeFrom start read bytes = .ok characters) :
    ∃ further, characters = read.reverse ++ further ∧
      further.flatMap String.utf8EncodeChar = bytes := by
  fun_induction decodeFrom start read bytes
  -- Only the four sequences and the end of the bytes do not fail.
  all_goals try cases ok
  case case1 => exact ⟨[], (List.append_nil _).symm, rfl⟩
  case case2 ascii ih => exact flatMap_step (utf8EncodeChar_one ascii) (ih ok)
  case case4 two second rest continues scalar ih =>
      simp only [Bool.and_eq_true, decide_eq_true_eq] at two
      exact flatMap_step (utf8EncodeChar_two two.1 two.2 continues) (ih ok)
  case case11 three second third rest allowed continues scalar ih =>
      simp only [Bool.and_eq_true, decide_eq_true_eq] at three
      simp only [Bool.not_eq_true', Bool.not_eq_false] at allowed continues
      exact flatMap_step (utf8EncodeChar_three three.1 three.2 allowed continues) (ih ok)
  case case21 four second third fourth rest allowed continues continues' scalar ih =>
      simp only [Bool.and_eq_true, decide_eq_true_eq] at four
      simp only [Bool.not_eq_true', Bool.not_eq_false] at allowed continues continues'
      exact flatMap_step (utf8EncodeChar_four four.1 four.2 allowed continues continues') (ih ok)

/-- Encoding undoes decoding. -/
theorem encode_of_decode {bytes : Bytes} {text : String} (ok : decode bytes = .ok text) :
    encode text = bytes := by
  rw [decode] at ok
  cases read : decodeFrom 0 [] bytes with
  | error failure =>
      rw [read] at ok
      cases ok
  | ok characters =>
      obtain ⟨further, rfl, same⟩ := flatMap_of_decodeFrom bytes read
      rw [read] at ok
      cases ok
      rw [encode, String.toList_ofList]
      exact same

end MsgPack.Utf8
