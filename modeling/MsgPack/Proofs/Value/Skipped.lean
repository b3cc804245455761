import MsgPack.Proofs.Reader.Skip
import MsgPack.Proofs.Value.Retold
import MsgPack.Proofs.Value.RoundTrip

/-!
# Reading and skipping values of any shape

Reading a value and skipping it are two walks over the same bytes.  They end at the same place,
and where one of them fails the other fails for the same reason; only a text that is none stops
the read alone.  The walks are compared part by part: two reads go abreast if they end alike on
every reader, and going abreast is kept by sequences, nested structures and loops.
-/

namespace MsgPack

/-! ## Reads that go abreast -/

namespace Read

variable {α β γ δ : Type}

/-- A second result is at the same place as the first, and a failure if the first is one, for
the same reason.  Where the first is a failure of text, the second may be anything. -/
def EndsAlike (first : EStateM.Result Error Reader α) (second : EStateM.Result Error Reader β) :
    Prop :=
  match first with
  | .ok _ after => ∃ result, second = .ok result after
  | .error failure after => (∃ cause, failure = .invalidUtf8 cause) ∨ second = .error failure after

/-- A skip ends as a read does, whatever the reader. -/
def Abreast (read : Read α) (skip : Read β) : Prop :=
  ∀ reader, EndsAlike (read reader) (skip reader)

/-- The same of reads that rely on the next code. -/
def AbreastAfter (code : UInt8) (read : Read α) (skip : Read β) : Prop :=
  ∀ ⦃reader : Reader⦄ ⦃following : Bytes⦄, reader.cursor.unread = code :: following →
    EndsAlike (read reader) (skip reader)

theorem EndsAlike.refl (result : EStateM.Result Error Reader α) : EndsAlike result result := by
  cases result with
  | ok found after => exact ⟨found, rfl⟩
  | error failure after => exact .inr rfl

namespace Abreast

theorem refl (read : Read α) : Abreast read read :=
  fun reader => .refl (read reader)

theorem after {read : Read α} {skip : Read β} (abreast : Abreast read skip) (code : UInt8) :
    AbreastAfter code read skip :=
  fun reader _ _ => abreast reader

theorem bind {read : Read α} {skip : Read β} {next : α → Read γ} {others : β → Read δ}
    (abreast : Abreast read skip) (rest : ∀ found passed, Abreast (next found) (others passed)) :
    Abreast (read >>= next) (skip >>= others) := by
  intro reader
  have first := abreast reader
  cases result : read reader with
  | ok found middle =>
      rw [result] at first
      obtain ⟨passed, skipped⟩ := first
      rw [bind_of_ok result, bind_of_ok skipped]
      exact rest found passed middle
  | error failure middle =>
      rw [result] at first
      rw [bind_of_error result]
      rcases first with text | skipped
      · exact .inl text
      · exact .inr (bind_of_error skipped others)

/-- What both begin with may decide what they go on with. -/
theorem sameThen (first : Read α) {next : α → Read γ} {others : α → Read δ}
    (rest : ∀ found, Abreast (next found) (others found)) :
    Abreast (first >>= next) (first >>= others) := by
  intro reader
  cases result : first reader with
  | ok found middle =>
      rw [bind_of_ok result, bind_of_ok result]
      exact rest found middle
  | error failure middle =>
      rw [bind_of_error result, bind_of_error result]
      exact .inr rfl

/-- After a look at the next code both may rely on it. -/
theorem peekThen {next : UInt8 → Read γ} {others : UInt8 → Read δ}
    (rest : ∀ code, AbreastAfter code (next code) (others code)) :
    Abreast (peekCode >>= next) (peekCode >>= others) := by
  intro reader
  cases result : peekCode reader with
  | ok code middle =>
      obtain ⟨following, unread, rfl⟩ := unread_of_peekCode result
      rw [bind_of_ok result, bind_of_ok result]
      exact rest code unread
  | error failure middle =>
      rw [bind_of_error result, bind_of_error result]
      exact .inr rfl

/-- The results of both may be converted. -/
theorem converted {read : Read α} {skip : Read β} (abreast : Abreast read skip)
    (convert : α → γ) (other : β → δ) :
    Abreast (return convert (← read)) (return other (← skip)) :=
  abreast.bind fun _ _ _ => ⟨_, rfl⟩

/-- The result of the read alone may be converted. -/
theorem mapped {read : Read α} {skip : Read β} (abreast : Abreast read skip) (convert : α → γ) :
    Abreast (return convert (← read)) skip := by
  have both := abreast.converted convert id
  rwa [show (do return id (← skip)) = skip from bind_pure skip] at both

theorem nested {read : Read α} {skip : Read β} (abreast : Abreast read skip) :
    Abreast (nested read) (nested skip) := by
  intro reader
  unfold Read.nested
  cases enterNested reader with
  | error failure after => exact .inr rfl
  | ok _ entered =>
      have inside := abreast entered
      dsimp only
      cases result : read entered with
      | ok found after =>
          rw [result] at inside
          obtain ⟨passed, skipped⟩ := inside
          rw [skipped]
          exact ⟨passed, rfl⟩
      | error failure after =>
          rw [result] at inside
          rcases inside with text | skipped
          · exact .inl text
          · rw [skipped]
            exact .inr rfl

theorem times {item : Read α} {skip : Read Unit} (abreast : Abreast item skip) (count : Nat) :
    Abreast (Loop.times count item) (Loop.discard skip count) := by
  induction count with
  | zero => exact fun reader => ⟨(), rfl⟩
  | succ count ih =>
      rw [Loop.times_succ]
      exact abreast.bind fun next _ => ih.mapped (next :: ·)

/-- The keys and the values of a map are skipped in turn. -/
theorem entries {item : Read α} {skip : Read Unit} (abreast : Abreast item skip) (count : Nat) :
    Abreast
      (Loop.times count do
        let key ← item
        return (key, ← item))
      (Loop.discard skip (count * 2)) := by
  induction count with
  | zero => exact fun reader => ⟨(), rfl⟩
  | succ count ih =>
      rw [Loop.times_succ, Nat.succ_mul, bind_assoc]
      apply abreast.bind
      intro key _
      rw [bind_assoc]
      apply abreast.bind
      intro value _
      rw [pure_bind]
      exact ih.mapped _

end Abreast

/-! ## Payloads and numbers -/

/-- Bytes are passed over just as they are read. -/
theorem abreast_advance (count : Nat) : Abreast (rawBytes count) (advance count) := by
  intro reader
  simp only [rawBytes, advance, take, Cursor.readSlice_eq, Cursor.peekInto_eq]
  by_cases enough : count ≤ reader.cursor.remaining
  · rw [if_pos enough]
    cases moved : reader.cursor.advance count with
    | ok next => exact ⟨(), rfl⟩
    | error failure => exact .inr rfl
  · rw [if_neg enough, Cursor.advance_of_lt (Nat.lt_of_not_le enough)]
    exact .inr rfl

/-- Text is passed over as its payload is. -/
theorem abreast_string : Abreast string (strHeader >>= advance) := by
  have text : Abreast str (strHeader >>= advance) := by
    apply Abreast.sameThen
    intro length
    rw [← bind_pure (advance length)]
    apply (abreast_advance length).bind
    intro bytes _
    cases Utf8.decode bytes.content with
    | ok text => exact fun reader => ⟨_, rfl⟩
    | error failure => exact fun reader => .inl ⟨failure, rfl⟩
  exact text.mapped _

theorem abreast_bin : Abreast bin (binHeader >>= advance) :=
  .sameThen binHeader abreast_advance

theorem abreast_extension :
    Abreast extension (extensionHeader >>= fun header => advance header.length) :=
  .sameThen extensionHeader fun header => (abreast_advance header.length).mapped _

/-- A single is passed over as if it were to be widened. -/
theorem abreast_float32 {code : UInt8} (format : Format.ofCode code = .float32)
    (convert : UInt32 → γ) (other : UInt64 → δ) :
    AbreastAfter code (return convert (← float32)) (return other (← float64)) := by
  intro reader following unread
  have peeked := peekCode_eq unread
  have single : (Format.ofCode code).float? = some .single := by rw [format]; rfl
  rw [float32, float64, bind_assoc, bind_assoc, bind_of_ok peeked, bind_of_ok peeked]
  simp only [single, bind_assoc, pure_bind]
  exact (Abreast.refl (suffix .four)).converted _ _ reader

end Read

/-! ## Texts -/

namespace Content

mutual

/-- The payloads of all strings in a content, at any depth. -/
def texts : Content → List Bytes
  | string bytes => [bytes]
  | array items => textsOf items
  | map members => textsOf members
  | _ => []

/-- The payloads of all strings in a row of contents. -/
def textsOf : List Content → List Bytes
  | [] => []
  | content :: contents => texts content ++ textsOf contents

end

end Content

/-- Whether bytes are text. -/
def Utf8.Valid (bytes : Bytes) : Prop :=
  ∃ text, decode bytes = .ok text

namespace Value

/-! ## Any value -/

/-- One value is skipped as it is read, if the values inside it are. -/
theorem abreast_step {item : Read Value} {skip : Read Unit} (abreast : Read.Abreast item skip) :
    Read.Abreast (readStep item) (Read.skipStep skip) := by
  rw [Read.skipStep, Read.token, bind_assoc]
  apply Read.Abreast.peekThen
  intro code
  cases (Format.ofCode code).kind with
  | nil =>
      simp only [bind_assoc, pure_bind]
      exact ((Read.Abreast.refl Read.nil).converted _ _).after code
  | boolean =>
      simp only [bind_assoc, pure_bind]
      exact ((Read.Abreast.refl Read.bool).converted bool _).after code
  | integer =>
      simp only [bind_assoc, pure_bind]
      exact ((Read.Abreast.refl Read.integer).converted ofInteger _).after code
  | float =>
      simp only [bind_assoc, pure_bind]
      by_cases format : Format.ofCode code = .float32
      · simp only [if_pos format]
        exact Read.abreast_float32 format float32 _
      · simp only [if_neg format]
        exact ((Read.Abreast.refl Read.float64).converted float64 _).after code
  | string =>
      have text := Read.abreast_string.converted string fun _ => ()
      simp only [bind_assoc, pure_bind] at text ⊢
      exact text.after code
  | binary =>
      have data := Read.abreast_bin.converted (fun found => binary found.content) fun _ => ()
      simp only [bind_assoc, pure_bind] at data ⊢
      exact data.after code
  | array =>
      simp only [bind_assoc, pure_bind]
      exact (Read.Abreast.sameThen Read.arrayHeader fun count =>
        (abreast.times count).nested.mapped array).after code
  | map =>
      simp only [bind_assoc, pure_bind]
      exact (Read.Abreast.sameThen Read.mapHeader fun count =>
        (abreast.entries count).nested.mapped map).after code
  | extension =>
      have payload := Read.abreast_extension.converted
        (fun found => extension found.typeCode found.payload.content) fun _ => ()
      simp only [bind_assoc, pure_bind] at payload ⊢
      exact payload.after code
  | unknown => exact fun reader _ _ => .inr rfl

theorem abreast_within (budget : Nat) :
    Read.Abreast (readWithin budget) (Read.skipWithin budget) := by
  induction budget with
  | zero => exact abreast_step fun reader => .inr rfl
  | succ budget ih => exact abreast_step ih

/-- Skipping goes abreast of reading. -/
theorem abreast_read : Read.Abreast read Read.skip :=
  fun reader => abreast_within reader.budget reader

/-! ## Values that say what was skipped -/

/-- A content that holds no others is what some value says, unless it is a string that is no
text. -/
theorem exists_content {content : Content} {code : UInt8} {bytes : Bytes}
    (after : content.After code bytes) (valid : ∀ text ∈ content.texts, Utf8.Valid text) :
    ∃ value : Value, value.content = content ∧ value.Fits := by
  cases content with
  | nil => exact ⟨nil, rfl, trivial⟩
  | bool truth => exact ⟨bool truth, rfl, trivial⟩
  | integer number =>
      rcases after with ⟨form, _, _, rfl⟩
      exact ⟨ofInteger (form.value code bytes), content_ofInteger _, fits_ofInteger _⟩
  | float32 bits => exact ⟨float32 bits, rfl, trivial⟩
  | float64 bits => exact ⟨float64 bits, rfl, trivial⟩
  | string payload =>
      obtain ⟨text, decoded⟩ := valid payload (List.mem_singleton_self _)
      obtain rfl := Utf8.encode_of_decode decoded
      rcases after with ⟨form, start, known, rfl, gives⟩
      exact ⟨string text, rfl, gives.fits fun wide => Format.narrow_string? _ (wide ▸ known)⟩
  | binary data =>
      rcases after with ⟨form, start, known, rfl, gives⟩
      exact ⟨binary data, rfl, gives.fits fun wide => Format.narrow_binary? _ (wide ▸ known)⟩
  | extension typeCode payload =>
      rcases after with ⟨form, start, known, rfl, gives⟩
      exact ⟨extension typeCode payload, rfl,
        ExtensionGives.fits ⟨code, start, form, rfl, known, gives⟩⟩
  | array items => exact after.elim
  | map members => exact after.elim

/-- What is spelled is what some values say, unless it has a string that is no text. -/
theorem exists_contentItems {contents : List Content} {bytes : Bytes}
    (spelled : Spells contents bytes) (valid : ∀ text ∈ Content.textsOf contents, Utf8.Valid text) :
    ∃ items, contentItems items = contents ∧ FitsItems items := by
  induction spelled with
  | done => exact ⟨[], rfl, trivial⟩
  | leaf first _ ih =>
      rw [Content.textsOf, List.forall_mem_append] at valid
      obtain ⟨value, rfl, fits⟩ := exists_content first valid.1
      obtain ⟨others, rfl, further⟩ := ih valid.2
      exact ⟨value :: others, rfl, fits, further⟩
  | array counted _ _ inside ih =>
      rw [Content.textsOf, List.forall_mem_append] at valid
      obtain ⟨items, rfl, fits⟩ := inside valid.1
      obtain ⟨others, rfl, further⟩ := ih valid.2
      have count := counted.fits Format.narrow_array?
      rw [length_contentItems] at count
      exact ⟨array items :: others, rfl, ⟨count, fits⟩, further⟩
  | map counted paired _ _ inside ih =>
      rw [Content.textsOf, List.forall_mem_append] at valid
      obtain ⟨items, rfl, fits⟩ := inside valid.1
      obtain ⟨others, rfl, further⟩ := ih valid.2
      rw [length_contentItems] at paired
      obtain ⟨entries, rfl, rfl⟩ := exists_turns paired
      refine ⟨map entries :: others, ?_, ⟨counted.fits Format.narrow_map?, fitsItems_turns.1 fits⟩,
        further⟩
      rw [contentItems, content, contentItems_turns]

mutual

/-- The strings of what a value says are text. -/
theorem valid_texts : ∀ {value : Value} {text : Bytes}, text ∈ value.content.texts →
    Utf8.Valid text
  | string text, _, member => by
      rw [List.mem_singleton.1 member]
      exact ⟨text, Utf8.decode_encode text⟩
  | array _, _, member => valid_textsOf_items member
  | map _, _, member => valid_textsOf_entries member

theorem valid_textsOf_items : ∀ {items : List Value} {text : Bytes},
    text ∈ Content.textsOf (contentItems items) → Utf8.Valid text
  | _ :: _, _, member => by
      rw [contentItems, Content.textsOf, List.mem_append] at member
      rcases member with first | others
      · exact valid_texts first
      · exact valid_textsOf_items others

theorem valid_textsOf_entries : ∀ {entries : List (Value × Value)} {text : Bytes},
    text ∈ Content.textsOf (contentEntries entries) → Utf8.Valid text
  | (_, _) :: _, _, member => by
      rw [contentEntries, Content.textsOf, Content.textsOf, List.mem_append,
        List.mem_append] at member
      rcases member with first | second | others
      · exact valid_texts first
      · exact valid_texts second
      · exact valid_textsOf_entries others

end

/-- A read of one content gives the same for every spelling of it. -/
theorem respelled {α : Type} {walk : Read α}
    (reads : Decode.Reads 1 1 (Session.lift walk : Decode Unit α)) {said : Content}
    {bytes other rest following : Bytes} (spelled : Spells [said] bytes)
    (spelled' : Spells [said] other) {reader second after : Reader} {result : α}
    (unread : reader.cursor.unread = bytes ++ rest)
    (unread' : second.cursor.unread = other ++ following) (room : second.budget = reader.budget)
    (ok : walk reader = .ok result after) :
    ∃ last, walk second = .ok result last ∧ second.Passed other last := by
  obtain ⟨contents, bytes', counted, spells, passed, answers, _⟩ :=
    reads (Session.lift_eq_ok.2 ⟨ok, (rfl : () = ())⟩)
  obtain ⟨rfl, _⟩ := spells.unique spelled counted (passed.unread.symm.trans unread)
  obtain ⟨last, given, passed'⟩ := answers.whole spelled' room unread'
  exact ⟨last, (Session.lift_eq_ok.1 given).1, passed'⟩

/-- What is spelled as one content is what some value says, unless it has a string that is no
text. -/
theorem exists_value {said : Content} {bytes : Bytes} (spelled : Spells [said] bytes)
    (valid : ∀ text ∈ said.texts, Utf8.Valid text) :
    ∃ value : Value, value.content = said ∧ value.Fits := by
  obtain ⟨items, same, fits⟩ := exists_contentItems spelled (by
    rw [Content.textsOf, Content.textsOf, List.append_nil]
    exact valid)
  cases items with
  | nil => cases same
  | cons value others =>
      rw [contentItems] at same
      exact ⟨value, (List.cons.inj same).1, fits.1⟩

/-- A value is nested no deeper than the levels within which its bytes can be skipped. -/
theorem nesting_le_of_skip {value : Value} (fits : value.Fits) {reader after : Reader}
    (skipped : Read.skip reader = .ok () after) (passed : reader.Passed value.encoding after) :
    value.nesting ≤ reader.budget := by
  obtain ⟨bytes, row, through⟩ := Read.skipsSoundly_skipWithin _ _ _ rfl skipped
  obtain rfl := List.append_cancel_right (through.unread.symm.trans passed.unread)
  exact (wellFormed_iff fits _).1 row

/-- What was skipped can be read just if all its strings are text. -/
theorem read_of_skip {reader after : Reader} (skipped : Read.skip reader = .ok () after) :
    ∃ content bytes, Spells [content] bytes ∧ reader.Passed bytes after ∧
      ((∃ value, read reader = .ok value after) ↔ ∀ text ∈ content.texts, Utf8.Valid text) := by
  have reads : Decode.Reads 1 1 (Session.lift Read.skip : Decode Unit Unit) := Decode.reads_skip
  obtain ⟨contents, bytes, counted, spelled, passed, _⟩ :=
    reads (Session.lift_eq_ok.2 ⟨skipped, (rfl : () = ())⟩)
  rcases List.length_eq_one_iff.1 counted with ⟨content, rfl⟩
  refine ⟨content, bytes, spelled, passed, ?_, ?_⟩
  · rintro ⟨value, ok⟩
    obtain ⟨bytes', spelled', passed', _⟩ := retells_read ok
    obtain ⟨same, _⟩ := spelled.unique spelled' rfl (passed.unread.symm.trans passed'.unread)
    rw [List.singleton_inj] at same
    rw [same]
    exact fun _ => valid_texts
  · intro valid
    obtain ⟨value, rfl, fits⟩ := exists_value spelled valid
    -- Some value says what was skipped; its own bytes can be read, and so can their other spelling.
    let own : Reader := .ofCursor (.ofBytes value.encoding) reader.budget
    have unread : own.cursor.unread = value.encoding ++ [] := by
      rw [List.append_nil]
      exact Cursor.unread_ofBytes _
    obtain ⟨ends, skips, done⟩ := respelled reads spelled (spells_encoding fits)
      passed.unread unread rfl skipped
    have room := nesting_le_of_skip fits skips done
    obtain ⟨last, ok, _⟩ := takes_read fits own [] unread room
    obtain ⟨after', ok', _⟩ := respelled Decode.reads_value (spells_encoding fits) spelled
      unread passed.unread rfl ok
    have ends := abreast_read reader
    rw [ok'] at ends
    obtain ⟨_, skipped'⟩ := ends
    cases skipped.symm.trans skipped'
    exact ⟨_, ok'⟩

/-! ## Reading and skipping -/

/-- Reading a value of any shape and skipping it agree on every reader.  Where the value is
read, it is skipped up to the same place; where reading fails, but for text, skipping fails for
the same reason and at the same place; and what is skipped can be read just if all the strings
in it are text. -/
theorem read_skip (reader : Reader) :
    (∀ value after, read reader = .ok value after → Read.skip reader = .ok () after) ∧
    (∀ failure after, read reader = .error failure after →
      (∀ cause, failure ≠ .invalidUtf8 cause) → Read.skip reader = .error failure after) ∧
    ∀ after, Read.skip reader = .ok () after →
      ∃ content bytes, Spells [content] bytes ∧ reader.Passed bytes after ∧
        ((∃ value, read reader = .ok value after) ↔
          ∀ text ∈ content.texts, Utf8.Valid text) := by
  have ends := abreast_read reader
  refine ⟨?_, ?_, fun after => read_of_skip⟩
  · intro value after ok
    rw [ok] at ends
    obtain ⟨_, skipped⟩ := ends
    exact skipped
  · intro failure after error other
    rw [error] at ends
    rcases ends with ⟨cause, text⟩ | skipped
    · exact absurd text (other cause)
    · exact skipped

/-- A text and an integer that is cut off: the first is read and skipped, the second neither. -/
theorem read_skip_of_cut :
    let reader : Reader := .ofCursor (.ofBytes [0xa1, 0x41, 0xcd, 0x00]) 1
    ∃ middle after, Read.skip reader = .ok () middle ∧
      Read.skip middle = .error (.insufficientData 3 2) after := by
  intro reader
  obtain ⟨middle, first, rest⟩ : ∃ middle, read reader = .ok (string "A") middle ∧
      ∃ after, read middle = .error (.insufficientData 3 2) after := ⟨_, rfl, _, rfl⟩
  obtain ⟨after, second⟩ := rest
  exact ⟨middle, after, (read_skip reader).1 _ _ first,
    (read_skip middle).2.1 _ _ second fun _ => Error.noConfusion⟩

end Value

end MsgPack
