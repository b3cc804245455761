import MsgPack.Proofs.Formatter.Framing
import MsgPack.Proofs.Formatter.TakesAt

/-!
# Records in arrays of any length

A record with array layout is read from an array with fewer or more elements than it has fields
to be written.  Three counts run side by side: the fields as they are declared, those of them that
are written, and the elements of the array.  The elements that there are go to the written fields
in order; what is over is skipped, and a field without element takes the initial value of its type
if it may be missing.

So fields that may be missing or are never written can be added at the end: who knows them reads
what was written without them, and who does not know them reads what was written with them.
-/

namespace MsgPack.Decode

open Session

variable {σ α : Type} {lookup : Lookup σ} {catalog : Catalog} {budget : Nat}

/-! ## Single values -/

/-- A computation makes a result of just these bytes, whatever follows them, where exactly so many
structures may be opened and the memory of the lookup is as it was. -/
def Gets (read : Decode σ α) (budget : Nat) (memory : σ) (bytes : Bytes) (result : α) (kept : σ) :
    Prop :=
  ∀ (reader : Reader) (rest : Bytes), reader.budget = budget →
    reader.cursor.unread = bytes ++ rest →
      ∃ after, read ⟨reader, memory⟩ = .ok result ⟨after, kept⟩ ∧ reader.Passed bytes after

namespace Gets

variable {β : Type} {memory between kept : σ} {bytes others : Bytes}

theorem pure (result : α) : Gets (pure result : Decode σ α) budget memory [] result memory :=
  fun reader _ _ _ => ⟨reader, rfl, .refl reader⟩

theorem bind {first : Decode σ α} {next : α → Decode σ β} {found : α} {result : β}
    (head : Gets first budget memory bytes found between)
    (tail : Gets (next found) budget between others result kept) :
    Gets (first >>= next) budget memory (bytes ++ others) result kept := by
  intro reader rest room unread
  rw [List.append_assoc] at unread
  obtain ⟨middle, ok, passed⟩ := head reader _ room unread
  obtain ⟨after, done, through⟩ :=
    tail middle rest (passed.budget.trans room) (passed.unread_eq unread)
  exact ⟨after, bind_eq_ok.2 ⟨found, _, ok, done⟩, passed.trans through⟩

theorem mapped {read : Decode σ α} {result : α} (gets : Gets read budget memory bytes result kept)
    (convert : α → β) :
    Gets (return convert (← read)) budget memory bytes (convert result) kept := by
  rw [← List.append_nil bytes]
  exact gets.bind (pure (convert result))

/-- A read without the lookup leaves its memory alone. -/
theorem lift {read : Read α} {result : α}
    (each : ∀ (reader : Reader) (rest : Bytes), reader.budget = budget →
      reader.cursor.unread = bytes ++ rest →
        ∃ after, read reader = .ok result after ∧ reader.Passed bytes after) :
    Gets (lift read : Decode σ α) budget memory bytes result memory := by
  intro reader rest room unread
  obtain ⟨after, ok, passed⟩ := each reader rest room unread
  exact ⟨after, lift_eq_ok.2 ⟨ok, rfl⟩, passed⟩

theorem nested {inner : Decode σ α} {result : α}
    (gets : Gets inner budget memory bytes result kept) :
    Gets (nested inner) (budget + 1) memory bytes result kept := by
  intro reader rest room unread
  have below : reader.entered.budget = budget := by
    rw [Reader.budget_entered, room, Nat.add_sub_cancel]
  obtain ⟨inside, ok, passed⟩ := gets reader.entered rest below unread
  have opens : 0 < reader.budget := room ▸ Nat.succ_pos budget
  exact ⟨_, nested_eq_ok.2 ⟨opens, inside, kept, ok, rfl⟩, passed.unread, passed.position, rfl,
    passed.maxDepth⟩

end Gets

/-- Whether a computation, if it succeeds, has made its result of one well-formed value. -/
def Framed (read : Decode σ α) : Prop :=
  ∀ ⦃reader after memory kept result⦄, read ⟨reader, memory⟩ = .ok result ⟨after, kept⟩ →
    ∃ bytes, WellFormed bytes.length 1 bytes ∧ reader.Passed bytes after ∧
      Gets read reader.budget memory bytes result kept

/-- Whatever formatters types bring, they read single values. -/
theorem framed_value (described : lookup.Described) (catalog : Catalog) (type : Schema) :
    Framed (value lookup catalog type) := by
  intro reader after memory kept content ok
  obtain ⟨contents, bytes, counted, spelled, passed, answers, _⟩ :=
    reads_typed described catalog type ok
  have wellFormed := spelled.wellFormed
  rw [counted] at wellFormed
  exact ⟨bytes, wellFormed, passed, fun other rest room unread =>
    answers.whole spelled room unread⟩

/-- Whether what lies one level deeper is read as values are, where so many structures may be
opened. -/
def ReadsValues (lookup : Lookup σ) (catalog : Catalog) (budget : Nat)
    (inner : Formatter → Schema → Decode σ Datum) : Prop :=
  ∀ ⦃type : Schema⦄ ⦃session : Session Reader σ⦄, session.state.budget = budget →
    found lookup inner type session = value lookup catalog type session

variable {inner : Formatter → Schema → Decode σ Datum}

/-- Without a budget, values are read as such. -/
theorem readsValues_datum : ReadsValues lookup catalog budget (datum lookup catalog) :=
  fun _ _ _ => rfl

/-- Inside a structure, values are read with what is left of the budget. -/
theorem readsValues_within :
    ReadsValues lookup catalog budget (within lookup catalog budget) := by
  rintro type session rfl
  simp only [found, value, bind, EStateM.bind, find]
  rcases lookup.find type session.memory with ⟨known, after⟩
  cases known <;> rfl

theorem Gets.found {type : Schema} {memory kept : σ} {bytes : Bytes} {content : Datum}
    (gets : Gets (value lookup catalog type) budget memory bytes content kept)
    (reads : ReadsValues lookup catalog budget inner) :
    Gets (Decode.found lookup inner type) budget memory bytes content kept := by
  intro reader rest room unread
  rw [reads room]
  exact gets reader rest room unread

/-! ## Elements -/

/-- The elements of an array are read as values of these types, one after the other. -/
inductive Elements (lookup : Lookup σ) (catalog : Catalog) (budget : Nat) :
    List Schema → List Bytes → σ → List Datum → σ → Prop where
  | nil {memory : σ} : Elements lookup catalog budget [] [] memory [] memory
  | cons {type : Schema} {types : List Schema} {bytes : Bytes} {elements : List Bytes}
      {memory between kept : σ} {content : Datum} {contents : List Datum}
      (single : WellFormed bytes.length 1 bytes)
      (first : Gets (value lookup catalog type) budget memory bytes content between)
      (others : Elements lookup catalog budget types elements between contents kept) :
      Elements lookup catalog budget (type :: types) (bytes :: elements) memory
        (content :: contents) kept

namespace Elements

variable {types others : List Schema} {elements : List Bytes} {memory kept : σ}
variable {contents : List Datum}

theorem length_eq (read : Elements lookup catalog budget types elements memory contents kept) :
    elements.length = types.length ∧ contents.length = types.length := by
  induction read with
  | nil => exact ⟨rfl, rfl⟩
  | cons _ _ _ ih =>
      simp only [List.length_cons, ih, and_self]

theorem wellFormed (read : Elements lookup catalog budget types elements memory contents kept) :
    ∀ element ∈ elements, WellFormed element.length 1 element := by
  induction read with
  | nil => exact fun _ none => absurd none List.not_mem_nil
  | cons single _ _ ih => exact List.forall_mem_cons.2 ⟨single, ih⟩

/-- Elements of some types and then of others are read in two parts. -/
theorem split (read : Elements lookup catalog budget (types ++ others) elements memory contents
    kept) :
    ∃ between, Elements lookup catalog budget types (elements.take types.length) memory
        (contents.take types.length) between ∧
      Elements lookup catalog budget others (elements.drop types.length) between
        (contents.drop types.length) kept := by
  induction types generalizing elements memory contents with
  | nil => exact ⟨memory, .nil, read⟩
  | cons type types ih =>
      cases read with
      | cons single first rest =>
          obtain ⟨between, front, back⟩ := ih rest
          exact ⟨between, .cons single first front, back⟩

end Elements

/-! ## Fields -/

variable {fields : List (Field Schema)}

/-- What is found for fields of which the first ones have values. -/
def placed : List (Field Schema) → List Datum → List (Option Datum)
  | [], _ => []
  | field :: fields, contents =>
      if field.skip then none :: placed fields contents
      else contents.head? :: placed fields contents.tail

/-- The values of fields of which the first ones have values; the others take the initial values
of their types. -/
def filled (catalog : Catalog) : List (Field Schema) → List Datum → List Datum
  | [], _ => []
  | field :: fields, contents =>
      if field.skip then field.type.initial catalog.initial :: filled catalog fields contents
      else contents.head?.getD (field.type.initial catalog.initial) ::
        filled catalog fields contents.tail

section Cases

variable {field : Field Schema} {content : Datum} {contents : List Datum}

theorem written_skipped (skip : field.skip = true) :
    Field.written (field :: fields) = Field.written fields := by
  simp [Field.written, skip]

theorem written_cons (kept : field.skip = false) :
    Field.written (field :: fields) = field :: Field.written fields := by
  simp [Field.written, kept]

theorem placed_skipped (skip : field.skip = true) :
    placed (field :: fields) contents = none :: placed fields contents :=
  if_pos skip

theorem placed_cons (kept : field.skip = false) :
    placed (field :: fields) (content :: contents) = some content :: placed fields contents := by
  rw [placed, kept, if_neg Bool.false_ne_true]
  rfl

theorem placed_missing (kept : field.skip = false) :
    placed (field :: fields) [] = none :: placed fields [] := by
  rw [placed, kept, if_neg Bool.false_ne_true]
  rfl

theorem filled_skipped (skip : field.skip = true) :
    filled catalog (field :: fields) contents =
      field.type.initial catalog.initial :: filled catalog fields contents :=
  if_pos skip

theorem filled_cons (kept : field.skip = false) :
    filled catalog (field :: fields) (content :: contents) =
      content :: filled catalog fields contents := by
  rw [filled, kept, if_neg Bool.false_ne_true]
  rfl

theorem filled_missing (kept : field.skip = false) :
    filled catalog (field :: fields) [] =
      field.type.initial catalog.initial :: filled catalog fields [] := by
  rw [filled, kept, if_neg Bool.false_ne_true]
  rfl

end Cases

/-- A field whose value is known, or that need not have one, is followed by the others. -/
theorem construct_cons {typeName : String} {field : Field Schema} {slot : Option Datum}
    {slots : List (Option Datum)} {content : Datum}
    (known : slot = some content ∨ slot = none ∧ (field.skip = true ∨ field.lenient = true) ∧
      content = field.type.initial catalog.initial) :
    construct catalog typeName (field :: fields) (slot :: slots) =
      (construct catalog typeName fields slots).map (content :: ·) := by
  rcases known with rfl | ⟨rfl, free, rfl⟩
  · rfl
  · have need : (field.skip || field.lenient) = true := Bool.or_eq_true_iff.2 free
    simp only [construct, List.head?_cons, Option.join_some, need, if_true, List.tail_cons]
    rfl

/-- If every field without value may be missing, the record is complete. -/
theorem construct_placed (typeName : String) {contents : List Datum}
    (lenient : ∀ field ∈ (Field.written fields).drop contents.length, field.lenient = true) :
    construct catalog typeName fields (placed fields contents) =
      .ok (filled catalog fields contents) := by
  induction fields generalizing contents with
  | nil => rfl
  | cons field fields ih =>
      cases skip : field.skip with
      | true =>
          rw [written_skipped skip] at lenient
          rw [placed_skipped skip, filled_skipped skip, construct_cons (.inr ⟨rfl, .inl skip, rfl⟩),
            ih lenient]
          rfl
      | false =>
          rw [written_cons skip] at lenient
          cases contents with
          | nil =>
              obtain ⟨first, others⟩ := List.forall_mem_cons.1 lenient
              rw [placed_missing skip, filled_missing skip,
                construct_cons (.inr ⟨rfl, .inr first, rfl⟩), @ih [] others]
              rfl
          | cons content contents =>
              rw [placed_cons skip, filled_cons skip, construct_cons (.inl rfl), ih lenient]
              rfl

/-- Otherwise the first that may not be missing is reported. -/
theorem construct_missing (typeName : String) {contents : List Datum} {missing : Field Schema}
    (first : ((Field.written fields).drop contents.length).find? (fun field => !field.lenient) =
      some missing) :
    construct catalog typeName fields (placed fields contents) =
      .error (.missingField missing.key typeName) := by
  induction fields generalizing contents with
  | nil => simp [Field.written] at first
  | cons field fields ih =>
      cases skip : field.skip with
      | true =>
          rw [written_skipped skip] at first
          rw [placed_skipped skip, construct_cons (.inr ⟨rfl, .inl skip, rfl⟩), ih first]
          rfl
      | false =>
          rw [written_cons skip] at first
          cases contents with
          | nil =>
              rw [List.length_nil, List.drop_zero] at first
              rw [placed_missing skip]
              cases lenient : field.lenient with
              | true =>
                  rw [List.find?_cons_of_neg (by simp [lenient])] at first
                  rw [construct_cons (.inr ⟨rfl, .inr lenient, rfl⟩), @ih [] first]
                  rfl
              | false =>
                  rw [List.find?_cons_of_pos (by simp [lenient])] at first
                  cases first
                  simp only [construct, skip, lenient, List.head?_cons, Option.join_some,
                    Bool.or_self, Bool.false_eq_true, if_false]
                  rfl
          | cons content contents =>
              rw [placed_cons skip, construct_cons (.inl rfl), ih first]
              rfl

/-- A record is complete just if every field without value may be missing. -/
theorem construct_eq_ok_iff {typeName : String} {contents values : List Datum} :
    construct catalog typeName fields (placed fields contents) = .ok values ↔
      (∀ field ∈ (Field.written fields).drop contents.length, field.lenient = true) ∧
        values = filled catalog fields contents := by
  cases first : ((Field.written fields).drop contents.length).find? fun field => !field.lenient with
  | some missing =>
      rw [construct_missing typeName first]
      refine iff_of_false nofun fun both => ?_
      have strict := List.find?_some first
      rw [both.1 missing (List.mem_of_find?_eq_some first)] at strict
      cases strict
  | none =>
      have lenient : ∀ field ∈ (Field.written fields).drop contents.length,
          field.lenient = true := by
        intro field member
        simpa using List.find?_eq_none.1 first field member
      rw [construct_placed typeName lenient]
      constructor
      · rintro ⟨⟩
        exact ⟨lenient, rfl⟩
      · rintro ⟨_, rfl⟩
        rfl

/-! ## Reading fields -/

theorem slots_skipped {available : Nat}
    {field : Field Schema} (free : field.skip = true ∨ available = 0) :
    slots lookup inner available (field :: fields) = (do
      return none :: (← slots lookup inner available fields)) := by
  have holds : (field.skip || decide (available = 0)) = true := by
    simpa using free
  rw [slots, if_pos holds]

theorem slots_cons {available : Nat}
    {field : Field Schema} (kept : field.skip = false) :
    slots lookup inner (available + 1) (field :: fields) = (do
      let content ← found lookup inner field.type
      return some content :: (← slots lookup inner available fields)) := by
  rw [slots, kept, if_neg (by simp)]
  rfl

/-- Fields are read from as many elements as there are, in order. -/
theorem gets_slots {available : Nat} {elements : List Bytes} {memory kept : σ}
    {contents : List Datum} (reads : ReadsValues lookup catalog budget inner)
    (read : Elements lookup catalog budget (((Field.written fields).take available).map Field.type)
      elements memory contents kept) :
    Gets (slots lookup inner available fields) budget memory elements.flatten
      (placed fields contents) kept := by
  induction fields generalizing available elements memory contents with
  | nil =>
      rw [Field.written, List.filter_nil, List.take_nil] at read
      cases read
      exact .pure []
  | cons field fields ih =>
      cases skip : field.skip with
      | true =>
          rw [written_skipped skip] at read
          rw [slots_skipped (.inl skip), placed_skipped skip]
          exact (ih read).mapped _
      | false =>
          rw [written_cons skip] at read
          cases available with
          | zero =>
              have nothing : Elements lookup catalog budget
                  (((Field.written fields).take 0).map Field.type) elements memory contents
                  kept := by
                rw [List.take_zero] at read ⊢
                exact read
              have others := ih nothing
              cases read
              rw [slots_skipped (.inr rfl), placed_missing skip]
              exact others.mapped _
          | succ available =>
              cases read with
              | cons single first others =>
                  rw [slots_cons skip, placed_cons skip, List.flatten_cons]
                  exact (first.found reads).bind ((ih others).mapped _)

/-- Fields that were read were read from as many elements as there were. -/
theorem elements_of_slots {available : Nat} {found : List (Option Datum)} {reader after : Reader}
    {memory kept : σ} (reads : ReadsValues lookup catalog budget inner)
    (room : reader.budget = budget)
    (framed : ∀ field ∈ Field.written fields, Framed (value lookup catalog field.type))
    (ok : slots lookup inner available fields ⟨reader, memory⟩ = .ok found ⟨after, kept⟩) :
    ∃ elements contents,
      Elements lookup catalog budget (((Field.written fields).take available).map Field.type)
        elements memory contents kept ∧
      found = placed fields contents ∧ reader.Passed elements.flatten after := by
  induction fields generalizing available found reader memory with
  | nil =>
      cases ok
      refine ⟨[], [], ?_, rfl, .refl _⟩
      rw [Field.written, List.filter_nil, List.take_nil]
      exact .nil
  | cons field fields ih =>
      cases skip : field.skip with
      | true =>
          rw [written_skipped skip] at framed ⊢
          rw [slots_skipped (.inl skip)] at ok
          obtain ⟨others, _, ok, done⟩ := bind_eq_ok.1 ok
          cases done
          obtain ⟨elements, contents, read, rfl, passed⟩ := ih room framed ok
          exact ⟨elements, contents, read, (placed_skipped skip).symm, passed⟩
      | false =>
          rw [written_cons skip] at framed ⊢
          obtain ⟨first, others⟩ := List.forall_mem_cons.1 framed
          cases available with
          | zero =>
              rw [slots_skipped (.inr rfl)] at ok
              obtain ⟨rest, _, ok, done⟩ := bind_eq_ok.1 ok
              cases done
              obtain ⟨elements, contents, read, rfl, passed⟩ := ih room others ok
              rw [List.take_zero] at read
              cases read
              exact ⟨[], [], .nil, (placed_missing skip).symm, passed⟩
          | succ available =>
              rw [slots_cons skip] at ok
              obtain ⟨content, ⟨middle, between⟩, head, ok⟩ := bind_eq_ok.1 ok
              obtain ⟨rest, _, ok, done⟩ := bind_eq_ok.1 ok
              cases done
              rw [reads room] at head
              obtain ⟨bytes, single, passed, gets⟩ := first head
              rw [room] at gets
              obtain ⟨elements, contents, read, rfl, through⟩ :=
                ih (passed.budget.trans room) others ok
              exact ⟨bytes :: elements, content :: contents, .cons single gets read,
                (placed_cons skip).symm, passed.trans through⟩

/-! ## Elements that are over -/

/-- Well-formed values are skipped one after the other. -/
theorem gets_discard {extra : List Bytes} (memory : σ)
    (wellFormed : ∀ element ∈ extra, WellFormed budget 1 element) :
    Gets (lift (Loop.discard Read.skip extra.length) : Decode σ Unit) budget memory extra.flatten ()
      memory := by
  induction extra with
  | nil => exact .pure ()
  | cons element extra ih =>
      obtain ⟨first, others⟩ := List.forall_mem_cons.1 wellFormed
      have skips : Gets (lift Read.skip : Decode σ Unit) budget memory element () memory :=
        .lift fun reader rest room unread =>
          Read.takes_skip first reader rest unread (Nat.le_of_eq room.symm)
      rw [List.length_cons, Loop.discard, lift_bind, List.flatten_cons]
      exact skips.bind (ih others)

/-- What was skipped were well-formed values, one after the other. -/
theorem wellFormed_of_discard {count : Nat} {reader after : Reader}
    (ok : Loop.discard Read.skip count reader = .ok () after) :
    ∃ extra : List Bytes, extra.length = count ∧
      (∀ element ∈ extra, WellFormed reader.budget 1 element) ∧
      reader.Passed extra.flatten after := by
  induction count generalizing reader with
  | zero =>
      cases ok
      exact ⟨[], rfl, fun _ none => absurd none List.not_mem_nil, .refl _⟩
  | succ count ih =>
      obtain ⟨_, middle, skips, ok⟩ := bind_eq_ok.1 ok
      obtain ⟨bytes, first, passed⟩ := Read.skipsSoundly_skipWithin _ _ _ rfl skips
      obtain ⟨extra, counted, others, through⟩ := ih ok
      rw [passed.budget] at others
      exact ⟨bytes :: extra, congrArg (· + 1) counted, List.forall_mem_cons.2 ⟨first, others⟩,
        passed.trans through⟩

/-! ## Arrays -/

/-- The elements of an array are read as the values of the written fields, as many as there are
of both, and what is over is skipped. -/
structure Arrives (lookup : Lookup σ) (catalog : Catalog) (budget : Nat)
    (fields : List (Field Schema)) (elements : List Bytes) (memory : σ) (contents : List Datum)
    (kept : σ) : Prop where
  present : Elements lookup catalog budget
    (((Field.written fields).take elements.length).map Field.type)
    (elements.take (Field.written fields).length) memory contents kept
  extra : ∀ element ∈ elements.drop (Field.written fields).length, WellFormed budget 1 element

namespace Arrives

variable {elements : List Bytes} {memory kept : σ} {contents : List Datum}

/-- The fields that are missing are those after the last element. -/
theorem missing_eq (arrives : Arrives lookup catalog budget fields elements memory contents kept) :
    (Field.written fields).drop contents.length = (Field.written fields).drop elements.length := by
  have counted := arrives.present.length_eq.2
  rw [List.length_map, List.length_take] at counted
  rcases Nat.le_total elements.length (Field.written fields).length with few | many
  · rw [counted, Nat.min_eq_left few]
  · rw [counted, Nat.min_eq_right many, List.drop_length, List.drop_eq_nil_of_le many]

/-- Every element takes up some bytes. -/
theorem length_le (arrives : Arrives lookup catalog budget fields elements memory contents kept) :
    elements.length ≤ elements.flatten.length := by
  have filled : ∀ element ∈ elements, element ≠ [] := by
    intro element member
    rw [← List.take_append_drop (Field.written fields).length elements] at member
    rcases List.mem_append.1 member with front | back
    · exact List.length_pos_iff.1 (arrives.present.wellFormed element front).count_le_length
    · exact List.length_pos_iff.1 (arrives.extra element back).count_le_length
  have counted := length_le_flatMap filled
  rwa [List.flatMap_id'] at counted

theorem gets_slotsOfArray (reads : ReadsValues lookup catalog budget inner)
    (arrives : Arrives lookup catalog budget fields elements memory contents kept) :
    Gets (slotsOfArray lookup inner fields elements.length) (budget + 1) memory elements.flatten
      (placed fields contents) kept := by
  have skipped := gets_discard kept arrives.extra
  rw [List.length_drop] at skipped
  have split : elements.flatten = (elements.take (Field.written fields).length).flatten ++
      (elements.drop (Field.written fields).length).flatten := by
    rw [← List.flatten_append, List.take_append_drop]
  rw [slotsOfArray, split]
  apply Gets.nested
  apply (gets_slots reads arrives.present).bind
  rw [← List.append_nil (elements.drop _).flatten]
  exact skipped.bind (.pure _)

end Arrives

theorem arrives_of_slotsOfArray {count : Nat} {found : List (Option Datum)}
    {reader after : Reader} {memory kept : σ} (reads : ReadsValues lookup catalog budget inner)
    (room : reader.budget = budget + 1)
    (framed : ∀ field ∈ Field.written fields, Framed (value lookup catalog field.type))
    (ok : slotsOfArray lookup inner fields count ⟨reader, memory⟩ = .ok found ⟨after, kept⟩) :
    ∃ elements contents, elements.length = count ∧
      Arrives lookup catalog budget fields elements memory contents kept ∧
      found = placed fields contents ∧ reader.Passed elements.flatten after := by
  obtain ⟨_, inside, _, ok, same⟩ := nested_eq_ok.1 ok
  cases same
  obtain ⟨values, ⟨middle, between⟩, slots, ok⟩ := bind_eq_ok.1 ok
  obtain ⟨_, ⟨last, _⟩, lifted, done⟩ := bind_eq_ok.1 ok
  obtain ⟨skips, rfl⟩ := lift_eq_ok.1 lifted
  cases done
  have below : reader.entered.budget = budget := by
    rw [Reader.budget_entered, room, Nat.add_sub_cancel]
  obtain ⟨present, contents, read, rfl, passed⟩ := elements_of_slots reads below framed slots
  obtain ⟨extra, counted, wellFormed, through⟩ := wellFormed_of_discard skips
  rw [passed.budget, below] at wellFormed
  have length := read.length_eq.1
  rw [List.length_map, List.length_take] at length
  have parts : (present ++ extra).take (Field.written fields).length = present ∧
      (present ++ extra).drop (Field.written fields).length = extra := by
    rcases Nat.le_total count (Field.written fields).length with few | many
    · rw [Nat.min_eq_left few] at length
      rw [Nat.sub_eq_zero_of_le few] at counted
      rw [List.eq_nil_of_length_eq_zero counted, List.append_nil,
        List.take_of_length_le (length ▸ few), List.drop_of_length_le (length ▸ few)]
      exact ⟨rfl, rfl⟩
    · rw [Nat.min_eq_right many] at length
      exact ⟨List.take_left' length, List.drop_left' length⟩
  have total : (present ++ extra).length = count := by
    rw [List.length_append]
    omega
  refine ⟨present ++ extra, contents, total, ⟨?_, ?_⟩, rfl, ?_⟩
  · rw [total, parts.1]
    exact read
  · rw [parts.2]
    exact wellFormed
  · have both := passed.trans through
    rw [← List.flatten_append] at both
    exact ⟨both.unread, both.position, rfl, both.maxDepth⟩

/-! ## Records -/

variable {name : String} {definition : Definition Schema} {header body rest : Bytes} {count : Nat}

/-- A record in an array is read with what is left of the budget inside the array. -/
theorem datum_array {session : Session Reader σ}
    (defined : catalog.definition? name = some definition)
    (layout : definition.layout = .array fields) (room : session.state.budget = budget + 1) :
    datum lookup catalog .builtin (.named name) session = (do
      let count ← lift Read.arrayHeader
      let values ← slotsOfArray lookup (within lookup catalog budget) fields count
      return Datum.record (← lift (Read.ofExcept
        (construct catalog definition.name fields values)))) session := by
  rw [datum, room, within, formatted, shaped, defined]
  simp only [Decode.defined, layout]

section

variable {header body rest : Bytes} {count : Nat} {reader : Reader} {memory kept : σ}
variable {elements : List Bytes} {contents : List Datum}
variable (defined : catalog.definition? name = some definition)
variable (layout : definition.layout = .array fields) (room : reader.budget = budget + 1)
variable (gives : HeaderGives Format.array? header count)

include defined layout room gives

/-- Where the elements of an array arrive, the record is made from what was found for its
fields. -/
theorem datum_of_arrives
    (unread : reader.cursor.unread = header ++ (elements.flatten ++ rest))
    (counted : elements.length = count)
    (arrives : Arrives lookup catalog budget fields elements memory contents kept) :
    ∃ middle, reader.Passed (header ++ elements.flatten) middle ∧
      datum lookup catalog .builtin (.named name) ⟨reader, memory⟩ =
        (do
          return Datum.record (← lift (Read.ofExcept
            (construct catalog definition.name fields (placed fields contents)))))
          ⟨middle, kept⟩ := by
  subst counted
  have enough : elements.length ≤ (elements.flatten ++ rest).length := by
    rw [List.length_append]
    exact Nat.le_add_right_of_le arrives.length_le
  obtain ⟨between, header', passed⟩ :=
    Read.accepts_arrayHeader.complete ⟨gives, enough⟩ unread
  obtain ⟨middle, slots, through⟩ := arrives.gets_slotsOfArray readsValues_within between rest
    (passed.budget.trans room) (passed.unread_eq unread)
  refine ⟨middle, passed.trans through, ?_⟩
  rw [datum_array defined layout room, bind_of_ok (lift_eq_ok.2 ⟨header', rfl⟩), bind_of_ok slots]

/-- A record was read from the elements of an array that arrived, and what was found for its
fields made it. -/
theorem arrives_of_datum {after : Reader} {content : Datum}
    (framed : ∀ field ∈ Field.written fields, Framed (value lookup catalog field.type))
    (unread : reader.cursor.unread = header ++ body)
    (ok : datum lookup catalog .builtin (.named name) ⟨reader, memory⟩ =
      .ok content ⟨after, kept⟩) :
    ∃ elements contents values, elements.length = count ∧
      body = elements.flatten ++ after.cursor.unread ∧
      Arrives lookup catalog budget fields elements memory contents kept ∧
      construct catalog definition.name fields (placed fields contents) = .ok values ∧
      content = .record values := by
  rw [datum_array defined layout room] at ok
  obtain ⟨counted, ⟨between, _⟩, lifted, ok⟩ := bind_eq_ok.1 ok
  obtain ⟨announced, rfl⟩ := lift_eq_ok.1 lifted
  obtain ⟨found, ⟨middle, _⟩, slots, ok⟩ := bind_eq_ok.1 ok
  obtain ⟨values, ⟨last, _⟩, made, done⟩ := bind_eq_ok.1 ok
  obtain ⟨made, rfl⟩ := lift_eq_ok.1 made
  cases done
  obtain ⟨front, ⟨given, _⟩, passed⟩ := Read.accepts_arrayHeader.sound announced
  obtain ⟨rfl, rfl⟩ := given.unique gives (passed.unread.symm.trans unread)
  obtain ⟨elements, contents, total, arrives, rfl, through⟩ :=
    arrives_of_slotsOfArray readsValues_within (passed.budget.trans room) framed slots
  have left := through.unread
  rw [passed.unread_eq unread] at left
  cases complete : construct catalog definition.name fields (placed fields contents) with
  | error failure =>
      rw [complete] at made
      cases made
  | ok values =>
      rw [complete] at made
      cases made
      exact ⟨elements, contents, values, total, left, arrives, complete, rfl⟩

/-- An array is read as a record just if it has as many elements as it announces, those of written
fields are read as values of their types, those that are over are well-formed, and the written
fields without element may be missing. -/
theorem datum_array_iff {content : Datum}
    (framed : ∀ field ∈ Field.written fields, Framed (value lookup catalog field.type))
    (unread : reader.cursor.unread = header ++ body) :
    (∃ after, datum lookup catalog .builtin (.named name) ⟨reader, memory⟩ =
        .ok content ⟨after, kept⟩ ∧ after.cursor.unread = rest) ↔
      ∃ elements contents, elements.length = count ∧ body = elements.flatten ++ rest ∧
        Arrives lookup catalog budget fields elements memory contents kept ∧
        (∀ field ∈ (Field.written fields).drop count, field.lenient = true) ∧
        content = .record (filled catalog fields contents) := by
  constructor
  · rintro ⟨after, ok, rfl⟩
    obtain ⟨elements, contents, values, counted, split, arrives, complete, rfl⟩ :=
      arrives_of_datum defined layout room gives framed unread ok
    obtain ⟨lenient, rfl⟩ := construct_eq_ok_iff.1 complete
    rw [arrives.missing_eq, counted] at lenient
    exact ⟨elements, contents, counted, split, arrives, lenient, rfl⟩
  · rintro ⟨elements, contents, counted, rfl, arrives, lenient, rfl⟩
    rw [← List.append_assoc] at unread
    obtain ⟨after, passed, done⟩ := datum_of_arrives defined layout room gives
      (unread.trans (List.append_assoc _ _ _)) counted arrives
    rw [← counted, ← arrives.missing_eq] at lenient
    rw [construct_placed definition.name lenient] at done
    exact ⟨after, done, passed.unread_eq unread⟩

/-- Where the elements arrive but a field is missing, the first one is reported. -/
theorem datum_array_missing {missing : Field Schema}
    (unread : reader.cursor.unread = header ++ (elements.flatten ++ rest))
    (counted : elements.length = count)
    (arrives : Arrives lookup catalog budget fields elements memory contents kept)
    (first : ((Field.written fields).drop count).find? (fun field => !field.lenient) =
      some missing) :
    ∃ after, datum lookup catalog .builtin (.named name) ⟨reader, memory⟩ =
      .error (.missingField missing.key definition.name) ⟨after, kept⟩ := by
  obtain ⟨after, _, done⟩ := datum_of_arrives defined layout room gives unread counted arrives
  rw [← counted, ← arrives.missing_eq] at first
  rw [construct_missing definition.name first] at done
  exact ⟨after, done⟩

end

/-! ## Fields that are added -/

section Added

variable {more : List (Field Schema)} {elements : List Bytes} {contents : List Datum}
variable {memory kept : σ}

theorem written_append (fields more : List (Field Schema)) :
    Field.written (fields ++ more) = Field.written fields ++ Field.written more :=
  List.filter_append _ _

theorem written_left (more : List (Field Schema)) :
    ∀ field ∈ Field.written fields, field ∈ Field.written (fields ++ more) := by
  intro field member
  rw [written_append]
  exact List.mem_append_left _ member

/-- Fields that are added take the values that are left. -/
theorem filled_append (contents : List Datum) :
    filled catalog (fields ++ more) contents =
      filled catalog fields contents ++
        filled catalog more (contents.drop (Field.written fields).length) := by
  induction fields generalizing contents with
  | nil => rfl
  | cons field fields ih =>
      cases skip : field.skip with
      | true =>
          rw [List.cons_append, filled_skipped skip, filled_skipped skip, written_skipped skip, ih,
            List.cons_append]
      | false =>
          rw [List.cons_append, written_cons skip]
          cases contents with
          | nil =>
              rw [filled_missing skip, filled_missing skip, ih, List.drop_nil, List.drop_nil,
                List.cons_append]
          | cons content contents =>
              rw [filled_cons skip, filled_cons skip, ih, List.length_cons, List.drop_succ_cons,
                List.cons_append]

theorem filled_nil (fields : List (Field Schema)) :
    filled catalog fields [] = fields.map fun field => field.type.initial catalog.initial := by
  induction fields with
  | nil => rfl
  | cons field fields ih =>
      cases skip : field.skip with
      | true => rw [filled_skipped skip, ih, List.map_cons]
      | false => rw [filled_missing skip, ih, List.map_cons]

theorem length_filled (fields : List (Field Schema)) (contents : List Datum) :
    (filled catalog fields contents).length = fields.length := by
  induction fields generalizing contents with
  | nil => rfl
  | cons field fields ih =>
      rw [filled]
      split <;> rw [List.length_cons, ih, List.length_cons]

/-- Values beyond the written fields do not matter. -/
theorem filled_take (contents : List Datum) :
    filled catalog fields (contents.take (Field.written fields).length) =
      filled catalog fields contents := by
  induction fields generalizing contents with
  | nil => rfl
  | cons field fields ih =>
      cases skip : field.skip with
      | true => rw [filled_skipped skip, filled_skipped skip, written_skipped skip, ih]
      | false =>
          rw [written_cons skip]
          cases contents with
          | nil => rw [List.take_nil]
          | cons content contents =>
              rw [List.length_cons, List.take_succ_cons, filled_cons skip, filled_cons skip, ih]

/-- An array with no more elements than there were fields arrives as before. -/
theorem Arrives.added
    (arrives : Arrives lookup catalog budget fields elements memory contents kept)
    (few : elements.length ≤ (Field.written fields).length) :
    Arrives lookup catalog budget (fields ++ more) elements memory contents kept := by
  obtain ⟨present, _⟩ := arrives
  have fewer : elements.length ≤ (Field.written (fields ++ more)).length := by
    rw [written_append, List.length_append]
    exact Nat.le_add_right_of_le few
  constructor
  · rw [List.take_of_length_le few] at present
    rw [List.take_of_length_le fewer, written_append, List.take_append_of_le_length few]
    exact present
  · rw [List.drop_eq_nil_of_le fewer]
    exact fun _ none => absurd none List.not_mem_nil

/-- Who does not know the fields that were added skips their elements. -/
theorem Arrives.dropped
    (arrives : Arrives lookup catalog budget (fields ++ more) elements memory contents kept)
    (shallow : WellFormed budget elements.length elements.flatten) :
    ∃ between, Arrives lookup catalog budget fields elements memory
      (contents.take (Field.written fields).length) between := by
  obtain ⟨present, extra⟩ := arrives
  have counted := present.length_eq.2
  have total : (Field.written (fields ++ more)).length =
      (Field.written fields).length + (Field.written more).length := by
    rw [written_append, List.length_append]
  rw [List.length_map, List.length_take, total] at counted
  have read := present
  rw [written_append, List.take_append, List.map_append] at read
  obtain ⟨between, front, _⟩ := read.split
  rw [List.length_map, List.length_take, List.take_take] at front
  have elements_eq : elements.take (min (min elements.length (Field.written fields).length)
      (Field.written fields ++ Field.written more).length) =
        elements.take (Field.written fields).length := by
    rw [List.take_eq_take_iff, List.length_append]
    omega
  have contents_eq : contents.take (min elements.length (Field.written fields).length) =
      contents.take (Field.written fields).length := by
    rw [List.take_eq_take_iff]
    omega
  rw [elements_eq, contents_eq] at front
  have each : ∀ element ∈ elements, ∃ deep, WellFormed deep 1 element := by
    intro element member
    rw [← List.take_append_drop (Field.written (fields ++ more)).length elements] at member
    rcases List.mem_append.1 member with read | beyond
    · exact ⟨_, present.wellFormed element read⟩
    · exact ⟨_, extra element beyond⟩
  exact ⟨between, front, fun element member =>
    WellFormed.of_flatten each shallow element (List.mem_of_mem_drop member)⟩

section Compatible

variable {newer : String} {later : Definition Schema} {header body rest : Bytes} {count : Nat}
variable {reader : Reader} {values : List Datum}
variable (defined : catalog.definition? name = some definition)
variable (layout : definition.layout = .array fields)
variable (definedLater : catalog.definition? newer = some later)
variable (layoutLater : later.layout = .array (fields ++ more))
variable (framed : ∀ field ∈ Field.written (fields ++ more),
  Framed (value lookup catalog field.type))
variable (room : reader.budget = budget + 1) (gives : HeaderGives Format.array? header count)
variable (unread : reader.cursor.unread = header ++ body)

include defined layout definedLater layoutLater framed room gives unread

/-- What was read with the fields that there were is read with those that were added, which take
their initial values. -/
theorem datum_added (optional : ∀ field ∈ more, field.skip = true ∨ field.lenient = true)
    (few : count ≤ (Field.written fields).length)
    (older : ∃ after, datum lookup catalog .builtin (.named name) ⟨reader, memory⟩ =
      .ok (.record values) ⟨after, kept⟩ ∧ after.cursor.unread = rest) :
    ∃ after, datum lookup catalog .builtin (.named newer) ⟨reader, memory⟩ =
      .ok (.record (values ++ more.map fun field => field.type.initial catalog.initial))
        ⟨after, kept⟩ ∧ after.cursor.unread = rest := by
  have before := fun field member => framed field (written_left more field member)
  obtain ⟨elements, contents, counted, split, arrives, lenient, same⟩ :=
    (datum_array_iff defined layout room gives before unread).1 older
  cases same
  have length := arrives.present.length_eq.2
  rw [List.length_map, List.length_take] at length
  have none_left : contents.drop (Field.written fields).length = [] := by
    apply List.drop_eq_nil_of_le
    omega
  refine (datum_array_iff definedLater layoutLater room gives framed unread).2
    ⟨elements, contents, counted, split, arrives.added (counted ▸ few), ?_, ?_⟩
  · intro field member
    rw [written_append, List.drop_append_of_le_length few] at member
    rcases List.mem_append.1 member with before | added
    · exact lenient field before
    · obtain ⟨inside, kept⟩ := List.mem_filter.1 added
      rcases optional field inside with skip | lenient
      · rw [skip] at kept
        cases kept
      · exact lenient
  · rw [filled_append, none_left, filled_nil]

/-- What was read with fields that were added is read by who does not know them, if the depth
suffices to skip the elements. -/
theorem datum_dropped {bytes : Bytes} (split : body = bytes ++ rest)
    (shallow : WellFormed budget count bytes)
    (younger : ∃ after, datum lookup catalog .builtin (.named newer) ⟨reader, memory⟩ =
      .ok (.record values) ⟨after, kept⟩ ∧ after.cursor.unread = rest) :
    ∃ between after, datum lookup catalog .builtin (.named name) ⟨reader, memory⟩ =
      .ok (.record (values.take fields.length)) ⟨after, between⟩ ∧ after.cursor.unread = rest := by
  have before := fun field member => framed field (written_left more field member)
  obtain ⟨elements, contents, counted, joined, arrives, lenient, same⟩ :=
    (datum_array_iff definedLater layoutLater room gives framed unread).1 younger
  cases same
  obtain rfl := List.append_cancel_right (split.symm.trans joined)
  subst counted
  obtain ⟨between, arrives⟩ := arrives.dropped shallow
  refine ⟨between, (datum_array_iff defined layout room gives before unread).2
    ⟨elements, _, rfl, split, arrives, ?_, ?_⟩⟩
  · intro field member
    apply lenient field
    rw [written_append, List.drop_append]
    exact List.mem_append_left _ member
  · rw [filled_take, filled_append, List.take_left' (length_filled fields contents)]

end Compatible

end Added

end MsgPack.Decode
