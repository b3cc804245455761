import Mathlib.Data.List.Nodup
import MsgPack.Proofs.Formatter.ArrayFields

/-!
# Records in maps of any entries

A record with map layout is read from a map in which the entries stand in any order, in which some
may be missing and others may be over, and in which a key may stand more than once.  Fields are
assigned in the order of the entries, and the record is made in the order of the fields.  So of all
entries only the last one for each field matters: entries of no field are passed over, earlier ones
are overwritten, and what is reported missing is the first field that is, whatever came first.
-/

namespace MsgPack

/-! ## Entries -/

/-- An entry of a map: the header of its key, the key, and the bytes of its value. -/
structure Entry where
  header : Bytes
  key : String
  value : Bytes

namespace Entry

variable {entries others : List Entry} {key : String}

/-- The bytes of an entry. -/
def bytes (entry : Entry) : Bytes :=
  entry.header ++ Utf8.encode entry.key ++ entry.value

/-- The last value that entries have for a key. -/
def last? (entries : List Entry) (key : String) : Option Bytes :=
  (entries.reverse.find? fun entry => entry.key = key).map value

/-- Entries of other keys may be left out. -/
theorem last?_filter {keep : Entry → Bool} (kept : ∀ entry, entry.key = key → keep entry = true) :
    last? (entries.filter keep) key = last? entries key := by
  rw [last?, last?, ← List.filter_reverse, List.find?_filter]
  congr 2
  funext entry
  by_cases here : entry.key = key
  · simp [here, kept entry here]
  · simp [here]

/-- The last value for a key is that of an entry with the key. -/
theorem of_last?_eq_some {found : Bytes} (last : last? entries key = some found) :
    ∃ entry ∈ entries, entry.key = key ∧ entry.value = found := by
  rcases Option.map_eq_some_iff.1 last with ⟨entry, chosen, rfl⟩
  exact ⟨entry, List.mem_reverse.1 (List.mem_of_find?_eq_some chosen),
    by simpa using List.find?_some chosen, rfl⟩

/-- If no key stands twice, each value is the last one for its key. -/
theorem last?_eq_some_iff {found : Bytes} (distinct : (entries.map Entry.key).Nodup) :
    last? entries key = some found ↔ ∃ entry ∈ entries, entry.key = key ∧ entry.value = found := by
  constructor
  · exact of_last?_eq_some
  · rintro ⟨entry, member, rfl, rfl⟩
    rw [last?, Option.map_eq_some_iff]
    cases last : entries.reverse.find? fun other => other.key = entry.key with
    | none =>
        have missed := List.find?_eq_none.1 last entry (List.mem_reverse.2 member)
        simp at missed
    | some other =>
        have inside := List.mem_reverse.1 (List.mem_of_find?_eq_some last)
        have same : other.key = entry.key := by simpa using List.find?_some last
        rw [List.inj_on_of_nodup_map distinct inside member same]
        exact ⟨entry, rfl, rfl⟩

/-- Entries with distinct keys may stand in any order. -/
theorem last?_perm (perm : entries.Perm others) (distinct : (entries.map Entry.key).Nodup) :
    last? entries key = last? others key := by
  have distinct' := (perm.map Entry.key).nodup_iff.1 distinct
  apply Option.ext
  intro found
  simp only [last?_eq_some_iff distinct, last?_eq_some_iff distinct', perm.mem_iff]

end Entry

/-! ## What fields take -/

namespace Decode

open Session

variable {σ : Type} {lookup : Lookup σ} {catalog : Catalog} {good : σ → Prop} {budget : Nat}
variable {fields : List (Field Schema)} {entries others : List Entry}

/-- An entry of a map is read if its key is text in whatever form and its value is a value of the
type of the written field that has the key.  If there is no such field, the value is skipped. -/
structure Enters (lookup : Lookup σ) (catalog : Catalog) (good : σ → Prop) (budget : Nat)
    (fields : List (Field Schema)) (entry : Entry) : Prop where
  text : HeaderGives Format.string? entry.header (Utf8.encode entry.key).length
  single : WellFormed entry.value.length 1 entry.value
  known : ∀ field ∈ Field.written fields, field.key = entry.key →
    ∃ content, TakesAt good budget (value lookup catalog field.type) entry.value content
  unknown : (∀ field ∈ Field.written fields, field.key ≠ entry.key) →
    WellFormed budget 1 entry.value

/-- A field takes the last value that entries have for its key.  If they have none, and if the field
is never written, it takes the initial value of its type. -/
inductive Settles (lookup : Lookup σ) (catalog : Catalog) (good : σ → Prop) (budget : Nat)
    (entries : List Entry) (field : Field Schema) : Datum → Prop where
  | hidden (skip : field.skip = true) :
      Settles lookup catalog good budget entries field (field.type.initial catalog.initial)
  | missing (kept : field.skip = false) (none : Entry.last? entries field.key = none) :
      Settles lookup catalog good budget entries field (field.type.initial catalog.initial)
  | given {bytes : Bytes} {content : Datum} (kept : field.skip = false)
      (last : Entry.last? entries field.key = some bytes)
      (takes : TakesAt good budget (value lookup catalog field.type) bytes content) :
      Settles lookup catalog good budget entries field content

/-- The first written field that must be there and that no entry is for. -/
def firstMissing? (fields : List (Field Schema)) (entries : List Entry) : Option (Field Schema) :=
  (Field.written fields).find? fun field =>
    !field.lenient && (Entry.last? entries field.key).isNone

/-- Wherever just so many structures may be opened, whatever form the header has and whatever
follows, reading a map of these entries ends in this way, and the reader is behind the map. -/
def EndsIn (lookup : Lookup σ) (catalog : Catalog) (good : σ → Prop) (budget : Nat) (name : String)
    (entries : List Entry) (outcome : Except Error Datum) : Prop :=
  ∀ (reader : Reader) (header rest : Bytes) (memory : σ), good memory →
    HeaderGives Format.map? header entries.length → reader.budget = budget →
    reader.cursor.unread = header ++ entries.flatMap Entry.bytes ++ rest →
      ∃ after kept, Session.run (datum lookup catalog .builtin (.named name)) reader memory =
          (outcome, ⟨after, kept⟩) ∧
        reader.Passed (header ++ entries.flatMap Entry.bytes) after ∧ good kept

/-- Where bytes can be read as a value of a type, they are read as the one that is known. -/
def Reading (lookup : Lookup σ) (catalog : Catalog) (good : σ → Prop) (budget : Nat)
    (content : Schema → Bytes → Datum) : Prop :=
  ∀ type bytes result, TakesAt good budget (value lookup catalog type) bytes result →
    TakesAt good budget (value lookup catalog type) bytes (content type bytes)

theorem exists_reading (lookup : Lookup σ) (catalog : Catalog) (good : σ → Prop) (budget : Nat) :
    ∃ content, Reading lookup catalog good budget content := by
  have each (type : Schema) (bytes : Bytes) : ∃ content, ∀ result,
      TakesAt good budget (value lookup catalog type) bytes result →
        TakesAt good budget (value lookup catalog type) bytes content := by
    by_cases readable : ∃ content, TakesAt good budget (value lookup catalog type) bytes content
    · rcases readable with ⟨content, takes⟩
      exact ⟨content, fun _ _ => takes⟩
    · exact ⟨.none, fun result takes => absurd ⟨result, takes⟩ readable⟩
  exact ⟨fun type bytes => (each type bytes).choose, fun type bytes =>
    (each type bytes).choose_spec⟩

/-- Without a memory, what is read once is read so everywhere. -/
theorem takesAt_of_value {lookup : Lookup Unit} (described : lookup.Described) {type : Schema}
    {bytes : Bytes} {result : Datum} {reader after : Reader}
    (ok : value lookup catalog type ⟨reader, ()⟩ = .ok result ⟨after, ()⟩)
    (unread : reader.cursor.unread = bytes ++ after.cursor.unread) :
    TakesAt (fun _ => True) reader.budget (value lookup catalog type) bytes result := by
  rcases framed_value described catalog type ok with ⟨others, _, passed, gets⟩
  obtain rfl := List.append_cancel_right (unread.symm.trans passed.unread)
  intro other rest memory _ unread' room
  rcases gets other rest room unread' with ⟨after, done, through⟩
  exact ⟨after, (), done, through, trivial⟩

/-! ## Assignments -/

section Assigned

variable (content : Schema → Bytes → Datum)

/-- What an entry assigns to which place, if there is a field for it. -/
def assignedBy (fields : List (Field Schema)) (entry : Entry) : Option (Nat × Datum) :=
  (fieldOf? fields entry.key).map fun placed => (placed.2, content placed.1.type entry.value)

/-- What is found for a field in the end. -/
def slotOfEntries (entries : List Entry) (field : Field Schema) : Option Datum :=
  if field.skip then none else (Entry.last? entries field.key).map (content field.type)

end Assigned

variable {content : Schema → Bytes → Datum}

/-- An entry assigns to the place of a field just if the field is written and has its key. -/
theorem any_assignedBy {field : Field Schema} {place : Nat} {entry : Entry}
    (distinct : ((Field.written fields).map Field.key).Nodup) (held : fields[place]? = some field) :
    ((assignedBy content fields entry).any fun assigned => assigned.1 = place) =
      (!field.skip && decide (entry.key = field.key)) := by
  apply Bool.eq_iff_iff.2
  simp only [assignedBy, Option.any_map, Bool.and_eq_true, Bool.not_eq_true', decide_eq_true_eq,
    Option.any_eq_true]
  constructor
  · rintro ⟨⟨other, _⟩, found, rfl⟩
    rcases (fieldOf?_eq_some_iff distinct).1 found with ⟨held', kept, same⟩
    rw [held] at held'
    cases held'
    exact ⟨kept, same.symm⟩
  · rintro ⟨kept, same⟩
    exact ⟨(field, place), (fieldOf?_eq_some_iff distinct).2 ⟨held, kept, same.symm⟩, rfl⟩

/-- The last assignment to the place of a field is that of the last entry with its key. -/
theorem lastAssigned_assignedBy (distinct : ((Field.written fields).map Field.key).Nodup)
    (entries : List Entry) :
    lastAssigned fields (entries.filterMap (assignedBy content fields)) =
      fields.map (slotOfEntries content entries) := by
  apply List.ext_getElem
  · simp [lastAssigned]
  · intro place _ inside
    rw [List.length_map] at inside
    have held : fields[place]? = some fields[place] := List.getElem?_eq_getElem inside
    simp only [lastAssigned, List.getElem_map, List.getElem_range, ← List.filterMap_reverse,
      List.find?_filterMap, any_assignedBy distinct held, slotOfEntries, Entry.last?]
    cases skip : fields[place].skip with
    | true =>
        have nothing : entries.reverse.find? (fun _ => false) = none :=
          List.find?_eq_none.2 fun _ _ => Bool.false_ne_true
        simp [nothing]
    | false =>
        simp only [Bool.not_false, Bool.true_and, Bool.false_eq_true, if_false]
        cases last : entries.reverse.find? fun entry => entry.key = fields[place].key with
        | none => rfl
        | some entry =>
            have same : entry.key = fields[place].key := by simpa using List.find?_some last
            have found := (fieldOf?_eq_some_iff distinct).2 ⟨held, skip, same.symm⟩
            simp only [Option.bind_some, Option.map_some, assignedBy, found]

/-! ## Reading entries -/

theorem TakesAt.found {type : Schema} {bytes : Bytes} {result : Datum}
    (takes : TakesAt good budget (value lookup catalog type) bytes result) :
    TakesAt good budget (Decode.found lookup (within lookup catalog budget) type) bytes result := by
  intro reader rest memory isGood unread room
  rw [readsValues_within room]
  exact takes reader rest memory isGood unread room

namespace Enters

variable {entry : Entry}

/-- An entry that can be read assigns its value to the field that has its key, if there is one. -/
theorem takesAt_assignment (enters : Enters lookup catalog good budget fields entry)
    (reading : Reading lookup catalog good budget content) :
    TakesAt good budget (assignment lookup (within lookup catalog budget) fields) entry.bytes
      (assignedBy content fields entry) := by
  have text : Read.Takes 0 Read.string (entry.header ++ Utf8.encode entry.key) entry.key :=
    .of_accepts Read.accepts_string fun _ =>
      (Content.stands_string _ _).2 ⟨entry.header, rfl, enters.text⟩
  rw [assignment, Entry.bytes]
  apply (TakesAt.lift text).bind
  rw [assignedBy]
  cases found : fieldOf? fields entry.key with
  | none =>
      have skips := Read.takes_skip (enters.unknown (fieldOf?_eq_none_iff.1 found))
      exact ((Takes.lift skips).at (Nat.le_refl budget)).andThen (.pure none)
  | some placed =>
      rcases placed with ⟨field, place⟩
      rcases of_fieldOf?_eq_some found with ⟨held, kept, same⟩
      have written : field ∈ Field.written fields :=
        List.mem_filter.2 ⟨List.mem_of_getElem? held, by simp [kept]⟩
      rcases enters.known field written same with ⟨result, takes⟩
      exact (reading _ _ result takes).found.mapped _

/-- An entry takes up two bytes at least. -/
theorem two_le_length (enters : Enters lookup catalog good budget fields entry) :
    2 ≤ entry.bytes.length := by
  have header := enters.text.length_pos
  have value := enters.single.count_le_length
  rw [Entry.bytes, List.length_append, List.length_append]
  omega

end Enters

/-- From the entries of a map the fields are found that they are for. -/
theorem takesAt_slotsOfMap {header : Bytes}
    (distinct : ((Field.written fields).map Field.key).Nodup)
    (gives : HeaderGives Format.map? header entries.length)
    (each : ∀ entry ∈ entries, Enters lookup catalog good budget fields entry)
    (reading : Reading lookup catalog good budget content) :
    TakesAt good (budget + 1) (slotsOfMap lookup (within lookup catalog budget) fields)
      (header ++ entries.flatMap Entry.bytes) (fields.map (slotOfEntries content entries)) := by
  -- The header is refused unless two bytes for each entry are left.
  have enough : entries.length * 2 ≤ (entries.flatMap Entry.bytes).length :=
    length_mul_le_flatMap fun entry member => (each entry member).two_le_length
  have counts : Read.TakesBefore (entries.flatMap Entry.bytes) Read.mapHeader header
      entries.length := by
    intro reader rest unread
    apply (Read.accepts_countAs Format.map? .map (· * 2)).complete ⟨gives, _⟩ unread
    rw [List.length_append]
    exact Nat.le_add_right_of_le enough
  have assignments := TakesAt.times fun entry member =>
    (each entry member).takesAt_assignment reading
  rw [slotsOfMap]
  apply TakesAt.liftThen counts
  apply assignments.nested.andThen
  rw [List.filterMap_map, ← lastAssigned_assignedBy distinct]
  exact .pure _

/-! ## Records -/

/-- A record is made of what was found for its fields, if everything is there that must be. -/
theorem construct_entries (typeName : String) (entries : List Entry) :
    construct catalog typeName fields (fields.map (slotOfEntries content entries)) =
      match firstMissing? fields entries with
      | some missing => .error (.missingField missing.key typeName)
      | none => .ok (fields.map fun field =>
          (slotOfEntries content entries field).getD (field.type.initial catalog.initial)) := by
  induction fields with
  | nil => rfl
  | cons field fields ih =>
      rw [List.map_cons, List.map_cons, firstMissing?]
      cases skip : field.skip with
      | true =>
          have slot : slotOfEntries content entries field = none := if_pos skip
          rw [construct_cons (.inr ⟨slot, .inl skip, rfl⟩), ih, written_skipped skip,
            ← firstMissing?, slot]
          cases firstMissing? fields entries <;> rfl
      | false =>
          have slot : slotOfEntries content entries field =
              (Entry.last? entries field.key).map (content field.type) := by
            rw [slotOfEntries, skip, if_neg Bool.false_ne_true]
          rw [written_cons skip, List.find?_cons]
          cases last : Entry.last? entries field.key with
          | some bytes =>
              rw [last, Option.map_some] at slot
              rw [construct_cons (.inl slot), ih, Option.isNone_some, Bool.and_false,
                ← firstMissing?, slot]
              cases firstMissing? fields entries <;> rfl
          | none =>
              rw [last, Option.map_none] at slot
              cases lenient : field.lenient with
              | true =>
                  rw [construct_cons (.inr ⟨slot, .inr lenient, rfl⟩), ih, Bool.not_true,
                    Bool.false_and, ← firstMissing?, slot]
                  cases firstMissing? fields entries <;> rfl
              | false =>
                  rw [construct, List.head?_cons, Option.join_some, slot, skip, lenient]
                  rfl

/-- What a record is made of are the values that its fields take. -/
theorem settles (each : ∀ entry ∈ entries, Enters lookup catalog good budget fields entry)
    (reading : Reading lookup catalog good budget content) :
    List.Forall₂ (Settles lookup catalog good budget entries) fields
      (fields.map fun field =>
        (slotOfEntries content entries field).getD (field.type.initial catalog.initial)) := by
  rw [List.forall₂_map_right_iff, List.forall₂_same]
  intro field member
  cases skip : field.skip with
  | true =>
      rw [slotOfEntries, if_pos skip]
      exact .hidden skip
  | false =>
      rw [slotOfEntries, skip, if_neg Bool.false_ne_true]
      cases last : Entry.last? entries field.key with
      | none => exact .missing skip last
      | some bytes =>
          rcases Entry.of_last?_eq_some last with ⟨entry, inside, same, rfl⟩
          have written : field ∈ Field.written fields :=
            List.mem_filter.2 ⟨member, by simp [skip]⟩
          rcases (each entry inside).known field written same.symm with ⟨result, takes⟩
          exact .given skip last (reading _ _ result takes)

/-- What comes of the entries of a map. -/
def outcomeOf (catalog : Catalog) (content : Schema → Bytes → Datum) (typeName : String)
    (fields : List (Field Schema)) (entries : List Entry) : Except Error Datum :=
  (construct catalog typeName fields (fields.map (slotOfEntries content entries))).map .record

/-- What comes of entries depends on the last value for the key of each written field alone. -/
theorem outcomeOf_congr (typeName : String)
    (same : ∀ field ∈ Field.written fields,
      Entry.last? entries field.key = Entry.last? others field.key) :
    outcomeOf catalog content typeName fields entries =
      outcomeOf catalog content typeName fields others := by
  have slots : fields.map (slotOfEntries content entries) =
      fields.map (slotOfEntries content others) := by
    apply List.map_congr_left
    intro field member
    cases skip : field.skip with
    | true => rw [slotOfEntries, slotOfEntries, skip, if_pos rfl, if_pos rfl]
    | false =>
        rw [slotOfEntries, slotOfEntries, same field (List.mem_filter.2 ⟨member, by simp [skip]⟩)]
  rw [outcomeOf, outcomeOf, slots]

variable {name : String} {definition : Definition Schema}

/-- A record in a map is read with what is left of the budget inside the map. -/
theorem datum_map {session : Session Reader σ}
    (defined : catalog.definition? name = some definition)
    (layout : definition.layout = .map fields) (room : session.state.budget = budget + 1) :
    datum lookup catalog .builtin (.named name) session = (do
      let values ← slotsOfMap lookup (within lookup catalog budget) fields
      return Datum.record (← lift (Read.ofExcept
        (construct catalog definition.name fields values)))) session := by
  rw [datum, room, within, formatted, shaped, defined]
  simp only [Decode.defined, layout]

/-- Entries that can be read make a record, or a field is missing. -/
theorem endsIn_outcomeOf (defined : catalog.definition? name = some definition)
    (layout : definition.layout = .map fields)
    (distinct : ((Field.written fields).map Field.key).Nodup)
    (each : ∀ entry ∈ entries, Enters lookup catalog good budget fields entry)
    (reading : Reading lookup catalog good budget content) :
    EndsIn lookup catalog good (budget + 1) name entries
      (outcomeOf catalog content definition.name fields entries) := by
  intro reader header rest memory isGood gives room unread
  rcases takesAt_slotsOfMap distinct gives each reading reader rest memory isGood unread room with
    ⟨after, kept, ok, passed, isGood⟩
  refine ⟨after, kept, ?_, passed, isGood⟩
  rw [Session.run, datum_map defined layout room, bind_of_ok ok, outcomeOf]
  generalize construct catalog definition.name fields _ = made
  cases made <;> rfl

end Decode

end MsgPack
