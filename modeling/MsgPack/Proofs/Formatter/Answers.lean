import MsgPack.Formatter.Decode
import MsgPack.Proofs.Formatter.Session
import MsgPack.Proofs.Reader.Said

/-!
# Reads of contents

A computation that reads with the help of a lookup *answers* contents with a result if it
gives that result however the contents are spelled and whatever follows them, and starves
where their bytes are cut off.  It *reads* so many contents if, whenever it succeeds, its
bytes spell so many contents, its result is its answer to them, and they are nested no deeper
than it may go.

Both go through sequences, nested structures and loops; the computations of formatters are
put together from reads in this way.
-/

namespace MsgPack.Decode

open Session

variable {σ α β : Type}

/-- A computation gives a result for contents, however they are spelled and whatever follows
them, where so many levels may be opened and the memory of the lookup is as it was. -/
structure Answers (read : Decode σ α) (budget : Nat) (memory : σ) (contents : List Content)
    (result : α) (kept : σ) : Prop where
  whole : ∀ {reader : Reader} {bytes rest : Bytes}, Spells contents bytes →
    reader.budget = budget → reader.cursor.unread = bytes ++ rest →
      ∃ after, read ⟨reader, memory⟩ = .ok result ⟨after, kept⟩ ∧ reader.Passed bytes after
  /-- Nothing but the end of the bytes is found wrong before they are all there. -/
  cut : ∀ {reader : Reader} {bytes : Bytes}, Spells contents bytes → reader.budget = budget →
    reader.EndsWithin bytes → Starves read ⟨reader, memory⟩

/-- A computation reads so many contents, and answers them.  They are nested less than `margin`
levels deeper than the reader may go: with a margin of one, no deeper. -/
def Reads (margin count : Nat) (read : Decode σ α) : Prop :=
  ∀ ⦃reader after : Reader⦄ ⦃memory kept : σ⦄ ⦃result : α⦄,
    read ⟨reader, memory⟩ = .ok result ⟨after, kept⟩ →
      ∃ contents bytes, contents.length = count ∧ Spells contents bytes ∧
        reader.Passed bytes after ∧ Answers read reader.budget memory contents result kept ∧
        Shallow (reader.budget + margin) count bytes

/-! ## Sequences -/

/-- Contents one after the other are answered one after the other. -/
theorem Answers.bind {first : Decode σ α} {next : α → Decode σ β} {budget : Nat}
    {memory between kept : σ} {start others : List Content} {found : α} {result : β}
    (head : Answers first budget memory start found between)
    (tail : Answers (next found) budget between others result kept) :
    Answers (first >>= next) budget memory (start ++ others) result kept where
  whole := by
    intro reader bytes rest spelled room unread
    obtain ⟨before, following, rfl, within, beyond⟩ := spelled.of_append
    rw [List.append_assoc] at unread
    obtain ⟨middle, ok, passed⟩ := head.whole within room unread
    rw [← passed.budget] at room
    obtain ⟨after, done, through⟩ := tail.whole beyond room (passed.unread_eq unread)
    exact ⟨after, bind_eq_ok.2 ⟨found, _, ok, done⟩, passed.trans through⟩
  cut := by
    intro reader bytes spelled room ends
    obtain ⟨before, following, rfl, within, beyond⟩ := spelled.of_append
    rcases ends.split with early | ⟨rest, unread, late⟩
    · exact (head.cut within room early).head next
    · obtain ⟨middle, ok, passed⟩ := head.whole within room unread
      rw [← passed.budget] at room
      exact .tail ok (tail.cut beyond room (late middle passed))

namespace Reads

variable {margin : Nat}

theorem mono {read : Decode σ α} {count more : Nat} (reads : Reads margin count read)
    (le : margin ≤ more) : Reads more count read := by
  intro reader after memory kept result ok
  obtain ⟨contents, bytes, counted, spelled, passed, answers, shallow⟩ := reads ok
  exact ⟨contents, bytes, counted, spelled, passed, answers,
    shallow.mono (Nat.add_le_add_left le _)⟩

/-- A sequence reads the contents of its parts, and is nested as deep as these make it.  The
second part may rely on what the first can give. -/
theorem sequence {first : Decode σ α} {next : α → Decode σ β} {start others margin' more : Nat}
    (head : Reads margin start first)
    (tail : ∀ found, (∃ session after, first session = .ok found after) →
      Reads margin' others (next found))
    (joins : ∀ {budget front back}, Shallow (budget + margin) start front →
      Shallow (budget + margin') others back →
        Shallow (budget + more) (start + others) (front ++ back)) :
    Reads more (start + others) (first >>= next) := by
  intro reader after memory kept result ok
  rcases bind_eq_ok.1 ok with ⟨found, ⟨middle, between⟩, first, second⟩
  obtain ⟨front, bytes, counted, spelled, passed, answers, shallow⟩ := head first
  obtain ⟨back, following, counted', spelled', passed', answers', shallow'⟩ :=
    tail found ⟨_, _, first⟩ second
  rw [passed.budget] at answers' shallow'
  refine ⟨front ++ back, bytes ++ following, ?_, spelled.append spelled', passed.trans passed',
    answers.bind answers', joins shallow shallow'⟩
  rw [List.length_append, counted, counted']

theorem bind {first : Decode σ α} {next : α → Decode σ β} {start others : Nat}
    (head : Reads margin start first) (tail : ∀ found, Reads margin others (next found)) :
    Reads margin (start + others) (first >>= next) :=
  head.sequence (fun found _ => tail found) Shallow.append

/-- What reads nothing more may follow. -/
theorem andThen {first : Decode σ α} {next : α → Decode σ β} {count : Nat}
    (head : Reads margin count first) (tail : ∀ found, Reads 1 0 (next found)) :
    Reads margin count (first >>= next) := by
  apply head.sequence fun found _ => tail found
  intro budget front back shallow empty
  rw [empty.eq_nil, List.append_nil]
  exact shallow

/-- What reads nothing may come before, and what follows may rely on what it can give. -/
theorem afterOf {first : Decode σ α} {next : α → Decode σ β} {count : Nat}
    (head : Reads 1 0 first) (tail : ∀ found, (∃ session after, first session = .ok found after) →
      Reads margin count (next found)) : Reads margin count (first >>= next) := by
  rw [← Nat.zero_add count]
  apply head.sequence tail
  intro budget front back empty shallow
  rw [empty.eq_nil, Nat.zero_add]
  exact shallow

theorem after {first : Decode σ α} {next : α → Decode σ β} {count : Nat}
    (head : Reads 1 0 first) (tail : ∀ found, Reads margin count (next found)) :
    Reads margin count (first >>= next) :=
  head.afterOf fun found _ => tail found

/-- A computation that leaves the reader alone and does not ask it anything. -/
theorem still {read : Decode σ α} (alone : ∀ {reader : Reader} {memory : σ} {result : α}
    {after : Session Reader σ}, read ⟨reader, memory⟩ = .ok result after →
      ∃ kept, ∀ other : Reader, read ⟨other, memory⟩ = .ok result ⟨other, kept⟩) :
    Reads (margin + 1) 0 read := by
  intro reader after memory kept result ok
  obtain ⟨kept', same⟩ := alone ok
  cases (same reader).symm.trans ok
  refine ⟨[], [], rfl, .done, .refl reader, ⟨?_, ?_⟩, .nil (Nat.succ_pos _)⟩
  · intro other bytes rest spelled _ _
    cases spelled
    exact ⟨other, same other, .refl other⟩
  · intro other bytes spelled _ ends
    cases spelled
    exact absurd rfl ends.ne_nil

protected theorem pure (result : α) : Reads (margin + 1) 0 (pure result : Decode σ α) := by
  apply still
  intro reader memory found after ok
  cases ok
  exact ⟨memory, fun other => rfl⟩

/-- A computation that always fails reads whatever is wanted of it. -/
theorem of_fails {read : Decode σ α} {count : Nat}
    (fails : ∀ session result after, read session ≠ .ok result after) : Reads margin count read :=
  fun _ _ _ _ _ ok => absurd ok (fails _ _ _)

protected theorem throw (failure : Error) (count : Nat) :
    Reads margin count (throw failure : Decode σ α) :=
  of_fails fun _ _ _ ok => by cases ok

theorem mapped {read : Decode σ α} {count : Nat} (reads : Reads margin count read)
    (convert : α → β) : Reads margin count (return convert (← read)) :=
  reads.andThen fun found => .pure (convert found)

/-- A computation with as many levels as the reader has left. -/
theorem withBudget {read : Nat → Decode σ α} {count : Nat}
    (each : ∀ budget, Reads margin count (read budget)) :
    Reads margin count fun session => read session.state.budget session := by
  intro reader after memory kept result ok
  obtain ⟨contents, bytes, counted, spelled, passed, answers, shallow⟩ := each reader.budget ok
  refine ⟨contents, bytes, counted, spelled, passed, ⟨?_, ?_⟩, shallow⟩
  · intro other bytes rest spelled room unread
    obtain ⟨after, ok, passed⟩ := answers.whole spelled room unread
    refine ⟨after, ?_, passed⟩
    rw [← room] at ok
    exact ok
  · intro other bytes spelled room ends
    have starves := answers.cut spelled room ends
    rw [← room] at starves
    exact starves

end Reads

/-! ## Questions to the lookup -/

variable {margin : Nat}

theorem reads_find (lookup : Lookup σ) (type : Schema) :
    Reads (margin + 1) 0 (find lookup type : Decode σ Formatter) := by
  apply Reads.still
  intro reader memory formatter after ok
  exact ⟨_, fun other => find_eq_ok.2 ⟨(find_eq_ok.1 ok).1, rfl⟩⟩

theorem reads_names (lookup : Lookup σ) (registry : Option Nat) :
    Reads (margin + 1) 0 (names lookup registry : Decode σ TypeRegistry) := by
  apply Reads.still
  intro reader memory registry after ok
  cases ok
  exact ⟨memory, fun other => rfl⟩

theorem reads_note (lookup : Lookup σ) (registry : Option Nat) (type : Schema) :
    Reads (margin + 1) 0 (note lookup registry type : Decode σ Unit) := by
  apply Reads.still
  intro reader memory result after ok
  cases ok
  exact ⟨lookup.noted registry type memory, fun other => rfl⟩

/-! ## Reads without the lookup -/

theorem starves_lift {read : Read α} {reader : Reader} (memory : σ)
    (starves : Starves read reader) : Starves (lift read : Decode σ α) ⟨reader, memory⟩ := by
  obtain ⟨needed, remaining, after, error⟩ := starves
  refine ⟨needed, remaining, ⟨after, memory⟩, ?_⟩
  simp only [lift, error]

theorem reads_ofExcept (result : Except Error α) :
    Reads (margin + 1) 0 (lift (Read.ofExcept result) : Decode σ α) := by
  cases result with
  | error failure => exact .throw failure 0
  | ok result => exact .pure result

/-- No structure is read below the deepest allowed one. -/
theorem reads_tooDeep (count : Nat) : Reads margin count (lift Read.tooDeep : Decode σ α) :=
  .of_fails fun _ _ _ ok => by cases ok

/-! ## Nested structures and loops -/

theorem nested_eq_ok {inner : Decode σ α} {reader : Reader} {memory : σ} {result : α}
    {after : Session Reader σ} :
    nested inner ⟨reader, memory⟩ = .ok result after ↔ 0 < reader.budget ∧ ∃ inside kept,
      inner ⟨reader.entered, memory⟩ = .ok result ⟨inside, kept⟩ ∧
        after = ⟨{ inside with depth := reader.depth }, kept⟩ := by
  simp only [nested, Read.enterNested, Reader.budget, Reader.entered]
  by_cases closed : reader.maxDepth ≤ reader.depth
  · simp only [if_pos closed, reduceCtorEq, false_iff]
    omega
  · rw [if_neg closed]
    simp only
    have room : 0 < reader.maxDepth - reader.depth := by omega
    cases inner ⟨{ reader with depth := reader.depth + 1 }, memory⟩ with
    | ok found inside =>
        simp only [room, true_and]
        constructor
        · intro same
          cases same
          exact ⟨inside.state, inside.memory, rfl, rfl⟩
        · rintro ⟨_, _, same, rfl⟩
          cases same
          rfl
    | error failure inside => simp

theorem starves_nested {inner : Decode σ α} {reader : Reader} {memory : σ}
    (room : 0 < reader.budget) (starves : Starves inner ⟨reader.entered, memory⟩) :
    Starves (nested inner) ⟨reader, memory⟩ := by
  obtain ⟨needed, remaining, after, error⟩ := starves
  have opens : ¬ reader.maxDepth ≤ reader.depth := by
    rw [Reader.budget] at room
    omega
  rw [Reader.entered] at error
  simp only [Starves, nested, Read.enterNested, if_neg opens, error]
  exact ⟨_, _, _, rfl⟩

/-- A structure answers what its inside answers with one level less. -/
theorem Answers.nested {inner : Decode σ α} {budget : Nat} {memory kept : σ}
    {contents : List Content} {result : α} (room : 0 < budget)
    (answers : Answers inner (budget - 1) memory contents result kept) :
    Answers (nested inner) budget memory contents result kept where
  whole := by
    rintro reader bytes rest spelled rfl unread
    obtain ⟨inside, ok, passed⟩ := answers.whole spelled reader.budget_entered unread
    exact ⟨_, nested_eq_ok.2 ⟨room, inside, kept, ok, rfl⟩, passed.unread, passed.position, rfl,
      passed.maxDepth⟩
  cut := by
    rintro reader bytes spelled rfl ends
    exact starves_nested room (answers.cut spelled reader.budget_entered ends)

namespace Reads

/-- A structure reads what its inside reads with one level less. -/
theorem nested {inner : Decode σ α} {count : Nat} (reads : Reads (margin + 1) count inner) :
    Reads margin count (nested inner) := by
  intro reader after memory kept result ok
  rcases nested_eq_ok.1 ok with ⟨room, inside, _, inner, same⟩
  cases same
  obtain ⟨contents, bytes, counted, spelled, passed, answers, shallow⟩ := reads inner
  rw [reader.budget_entered] at answers shallow
  have same : reader.budget - 1 + (margin + 1) = reader.budget + margin := by omega
  rw [same] at shallow
  exact ⟨contents, bytes, counted, spelled,
    ⟨passed.unread, passed.position, rfl, passed.maxDepth⟩, answers.nested room, shallow⟩

theorem times {item : Decode σ α} {each : Nat} (reads : Reads (margin + 1) each item)
    (count : Nat) : Reads (margin + 1) (count * each) (Loop.times count item) := by
  induction count with
  | zero =>
      rw [Nat.zero_mul]
      exact .pure []
  | succ count ih =>
      rw [Nat.succ_mul, Nat.add_comm (count * each), Loop.times_succ]
      exact reads.bind fun first => ih.mapped (first :: ·)

theorem discard {item : Decode σ Unit} (reads : Reads (margin + 1) 1 item) (count : Nat) :
    Reads (margin + 1) count (Loop.discard item count) := by
  induction count with
  | zero => exact .pure ()
  | succ count ih =>
      have both := reads.bind fun _ => ih
      rwa [Nat.add_comm 1] at both

end Reads

/-! ## Single values -/

/-- What a content that holds no others says is said by all its spellings. -/
theorem answers_of_single {read : Read α} {tells : Content → α → Prop} {content : Content}
    {bytes : Bytes} {result : α} (single : Read.Single read tells) (stands : content.Stands bytes)
    (told : tells content result) (budget : Nat) (memory : σ) :
    Answers (lift read : Decode σ α) budget memory [content] result memory where
  whole := by
    intro reader other rest spelled _ unread
    have stands' := stands.of_spells spelled
    obtain ⟨after, ok, passed⟩ := single.accepts.complete ⟨content, stands', told⟩ unread
    exact ⟨after, lift_eq_ok.2 ⟨ok, rfl⟩, passed⟩
  cut := by
    intro reader other spelled _ ends
    exact starves_lift memory (single.starves (stands.of_spells spelled) told ends)

theorem reads_of_single {read : Read α} {tells : Content → α → Prop}
    (single : Read.Single read tells) : Reads (margin + 1) 1 (lift read : Decode σ α) := by
  intro reader after memory kept result ok
  rcases lift_eq_ok.1 ok with ⟨done, rfl⟩
  obtain ⟨bytes, ⟨content, stands, told⟩, passed⟩ := single.accepts.sound done
  exact ⟨[content], bytes, rfl, stands.spells, passed,
    answers_of_single single stands told reader.budget memory,
    stands.leaf.shallow (Nat.succ_pos _)⟩

/-! ## Arrays and maps -/

/-- A header that gives a count, and then as many contents as the count stands for, where the
header is refused if fewer bytes than these contents are left.  It makes them one level deeper,
whether or not the reader was told. -/
theorem reads_countThen {form? : Format → Option LengthForm} (wrap : List Content → Content)
    (needed : Nat → Nat) (injective : Function.Injective needed)
    (spelled_iff : ∀ items bytes, Spells [wrap items] bytes ↔ ∃ count header inside,
      bytes = header ++ inside ∧ HeaderGives form? header count ∧
        items.length = needed count ∧ Spells items inside)
    (opens : ∀ {header count}, HeaderGives form? header count → Opens header (needed count))
    (expected : Expected) {next : Nat → Decode σ α}
    (each : ∀ count, Reads margin (needed count) (next count)) :
    Reads (margin + 1) 1 (lift (do
      let count ← Read.lengthAs form? expected
      Read.ensure (needed count)
      return count) >>= next) := by
  intro reader after memory kept result ok
  rcases bind_eq_ok.1 ok with ⟨count, ⟨middle, between⟩, lifted, inner⟩
  rcases lift_eq_ok.1 lifted with ⟨counts, rfl⟩
  have accepted := Read.accepts_countAs form? expected needed
  obtain ⟨header, ⟨gives, _⟩, passed⟩ := accepted.sound counts
  obtain ⟨items, inside, counted, spelled, passed', answers, shallow⟩ := each count inner
  rw [passed.budget] at answers shallow
  have other_spelling {bytes : Bytes} (spelled : Spells [wrap items] bytes) :
      ∃ header inside, bytes = header ++ inside ∧ HeaderGives form? header count ∧
        needed count ≤ inside.length ∧ Spells items inside := by
    rcases (spelled_iff _ _).1 spelled with ⟨count', header, inside, rfl, gives, counted', nested⟩
    rw [← injective (counted.symm.trans counted')] at gives
    exact ⟨header, inside, rfl, gives, counted ▸ nested.length_le, nested⟩
  refine ⟨[wrap items], header ++ inside, rfl, (spelled_iff _ _).2
    ⟨count, header, inside, rfl, gives, counted, spelled⟩, passed.trans passed', ⟨?_, ?_⟩,
    shallow.opened (opens gives)⟩
  · intro other bytes rest spelled room unread
    obtain ⟨header, inside, rfl, gives, enough, nested⟩ := other_spelling spelled
    rw [List.append_assoc] at unread
    have left : needed count ≤ (inside ++ rest).length := by
      rw [List.length_append]
      exact Nat.le_add_right_of_le enough
    obtain ⟨middle, counts, passed⟩ := accepted.complete ⟨gives, left⟩ unread
    rw [← passed.budget] at room
    obtain ⟨after, done, through⟩ := answers.whole nested room (passed.unread_eq unread)
    exact ⟨after, bind_eq_ok.2 ⟨count, _, lift_eq_ok.2 ⟨counts, rfl⟩, done⟩,
      passed.trans through⟩
  · intro other bytes spelled room ends
    obtain ⟨header, inside, rfl, gives, _, nested⟩ := other_spelling spelled
    rcases Read.countAs_cut gives ends expected needed with starves | ⟨middle, counts, passed, late⟩
    · exact (starves_lift memory starves).head next
    · rw [← passed.budget] at room
      exact .tail (lift_eq_ok.2 ⟨counts, rfl⟩) (answers.cut nested room late)

/-- The header of an array, and then as many contents as it announces. -/
theorem reads_arrayThen {next : Nat → Decode σ α}
    (each : ∀ count, Reads margin count (next count)) :
    Reads (margin + 1) 1 (lift Read.arrayHeader >>= next) := by
  refine reads_countThen .array id Function.injective_id (fun items bytes => ?_) (fun gives => ?_)
    .array each
  · rw [Spells.array_iff]
    constructor
    · rintro ⟨header, inside, same, counted, nested⟩
      exact ⟨_, header, inside, same, counted, rfl, nested⟩
    · rintro ⟨_, header, inside, same, counted, rfl, nested⟩
      exact ⟨header, inside, same, counted, nested⟩
  · have opens := gives.opens fun _ _ code known => Format.announcement_of_array known code
    rwa [Nat.mul_one] at opens

/-- The header of a map, and then twice as many contents as it announces. -/
theorem reads_mapThen {next : Nat → Decode σ α}
    (each : ∀ count, Reads margin (count * 2) (next count)) :
    Reads (margin + 1) 1 (lift Read.mapHeader >>= next) := by
  have injective : Function.Injective fun count : Nat => count * 2 :=
    fun _ _ same => Nat.eq_of_mul_eq_mul_right Nat.two_pos same
  exact reads_countThen .map (· * 2) injective (fun _ _ => Spells.map_iff)
    (fun gives => gives.opens fun _ _ code known => Format.announcement_of_map known code) .map each

/-! ## Looking ahead -/

/-- A look at what comes next leaves the reader where it is.  It shows something of the
content that is next, already of the first of its bytes if it does not want more of them. -/
structure Looks (look : Read α) (shows : Content → α → Prop) : Prop where
  still : ∀ {reader after : Reader} {found : α}, look reader = .ok found after → after = reader
  whole : ∀ {content : Content} {bytes rest : Bytes} {reader : Reader}, Spells [content] bytes →
    reader.cursor.unread = bytes ++ rest → ∃ found, look reader = .ok found reader ∧
      shows content found
  cut : ∀ {content : Content} {bytes : Bytes} {reader : Reader}, Spells [content] bytes →
    reader.EndsWithin bytes → Starves look reader ∨ ∃ found, look reader = .ok found reader ∧
      shows content found

/-- Reading may depend on what a look shows, where all that it can show of a content leads to
the same reading. -/
theorem reads_lookThen {look : Read α} {shows : Content → α → Prop} (looks : Looks look shows)
    {next : α → Decode σ β} (each : ∀ found, Reads margin 1 (next found))
    (same : ∀ content found other, shows content found → shows content other →
      next found = next other) : Reads margin 1 (lift look >>= next) := by
  intro reader after memory kept result ok
  rcases bind_eq_ok.1 ok with ⟨found, ⟨middle, between⟩, lifted, read⟩
  rcases lift_eq_ok.1 lifted with ⟨looked, rfl⟩
  cases looks.still looked
  obtain ⟨contents, bytes, counted, spelled, passed, answers, shallow⟩ := each found read
  rcases List.length_eq_one_iff.1 counted with ⟨content, rfl⟩
  have shown : shows content found := by
    obtain ⟨found', looked', shown⟩ := looks.whole spelled passed.unread
    cases looked.symm.trans looked'
    exact shown
  refine ⟨[content], bytes, rfl, spelled, passed, ⟨?_, ?_⟩, shallow⟩
  · intro other bytes rest spelled room unread
    obtain ⟨found', looked, shown'⟩ := looks.whole spelled unread
    obtain ⟨after, ok, passed⟩ := answers.whole spelled room unread
    rw [same content found found' shown shown'] at ok
    exact ⟨after, bind_eq_ok.2 ⟨found', _, lift_eq_ok.2 ⟨looked, rfl⟩, ok⟩, passed⟩
  · intro other bytes spelled room ends
    rcases looks.cut spelled ends with starves | ⟨found', looked, shown'⟩
    · exact (starves_lift memory starves).head next
    · have starves := answers.cut spelled room ends
      rw [same content found found' shown shown'] at starves
      exact .tail (lift_eq_ok.2 ⟨looked, rfl⟩) starves

/-- The next code is one that spellings of the content start with. -/
theorem looks_peekCode :
    Looks Read.peekCode fun content code => ∃ following, Spells [content] (code :: following) where
  still := by
    intro reader after code ok
    obtain ⟨_, _, same⟩ := Read.unread_of_peekCode ok
    exact same
  whole := by
    intro content bytes rest reader spelled unread
    obtain ⟨code, following, rfl, _⟩ := spelled.starts
    exact ⟨code, Read.peekCode_eq unread, following, spelled⟩
  cut := by
    intro content bytes reader spelled ends
    obtain ⟨code, following, rfl, _⟩ := spelled.starts
    rcases ends.cons_cases with done | ⟨others, unread⟩
    · exact .inl (Read.starves_peekCode done)
    · exact .inr ⟨code, Read.peekCode_eq unread, following, spelled⟩

end MsgPack.Decode
