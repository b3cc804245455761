import MsgPack.Proofs.Derive.RoundTrip
import MsgPack.Proofs.Formatter.ArrayFields

/-!
# Derived records in arrays of any length

A declared record with array layout has the fields that are declared, and what their attributes say
decides which of them are written and which may be missing.  So its formatter reads an array of any
length just if the elements that are there fit the written fields, in the order of declaration, and
every field without element is of an optional type or marked to take its initial value.
-/

namespace MsgPack.Derive

open Decode (Arrives Framed filled)

/-! ## Declared fields -/

/-- Whether an option is given for a field. -/
def FieldItem.Marked (item : FieldItem) (setting : Setting) : Prop :=
  ∃ settings, Attribute.allSettings .field item.attributes = .ok settings ∧ setting ∈ settings

/-- Whether a field of a layout is the one that is declared, with its type converted. -/
structure FieldItem.Becomes (convert : Code → Schema) (declared : String × FieldItem)
    (field : Field Schema) : Prop where
  member : field.member = declared.1
  type : field.type = convert declared.2.type
  skip : field.skip = true ↔ declared.2.Marked .skip
  lenient : field.lenient = true ↔
    declared.2.Marked .lenient ∨ isOptional declared.2.type = true
  key : ∃ settings, Attribute.allSettings .field declared.2.attributes = .ok settings ∧
    field.key = (Setting.renamed? settings).getD declared.1

theorem FieldItem.becomes {item : String × FieldItem} {field : Field Code}
    (ok : FieldItem.field item = .ok field) (convert : Code → Schema) :
    FieldItem.Becomes convert item (field.map convert) := by
  obtain ⟨settings, given, ok⟩ := bind_eq_ok.1 ok
  cases ok
  have marked (setting : Setting) : item.2.Marked setting ↔ setting ∈ settings := by
    constructor
    · rintro ⟨_, same, member⟩
      cases given.symm.trans same
      exact member
    · exact fun member => ⟨settings, given, member⟩
  constructor
  · rfl
  · rfl
  · simp [Field.map, marked]
  · simp [Field.map, marked]
  · exact ⟨settings, given, rfl⟩

/-- The type that the source text of a field denotes, where the item is applied to types. -/
def Item.fieldType (path : String) (item : Item) (arguments : List Schema) (code : Code) : Schema :=
  (Schema.ofCode? path (item.typeParameters.zip arguments) code).getD (.named code.text)

/-- The fields of a declared record are those that are declared, in the same order, whether they
are in an array or in a map. -/
theorem Item.becomes_of_record {path : String} {item : Item} {arguments : List Schema}
    {definition : Definition Schema} {fields : List (Field Schema)}
    (declared : item.typeDefinition path arguments = .ok definition)
    (layout : definition.layout = .array fields ∨ definition.layout = .map fields) :
    ∃ items, item.body = .record items ∧
      List.Forall₂ (FieldItem.Becomes (item.fieldType path arguments)) items.members fields := by
  rcases bind_eq_ok.1 declared with ⟨⟨_, origin⟩, given, ok⟩
  cases ok
  rcases definition_cases given with
    ⟨settings, _, _, ⟨items, body, chosen⟩ | ⟨variants, _, chosen⟩⟩
  · rcases recordLayout_cases chosen with rfl | ⟨plain, collected, rfl | rfl⟩
    · rcases layout with layout | layout <;> cases layout
    all_goals
      rcases layout with layout | layout <;> cases layout
      refine ⟨items, body, List.forall₂_map_right_iff.2 ?_⟩
      exact (forall₂_of_mapM collected).imp fun _ _ converted => FieldItem.becomes converted _
  · rcases choiceLayout_cases chosen with ⟨_, _, _, _, arranged⟩
    cases arranged <;> rcases layout with layout | layout <;> cases layout

theorem Item.becomes_of_array {path : String} {item : Item} {arguments : List Schema}
    {definition : Definition Schema} {fields : List (Field Schema)}
    (declared : item.typeDefinition path arguments = .ok definition)
    (layout : definition.layout = .array fields) :
    ∃ items, item.body = .record items ∧
      List.Forall₂ (FieldItem.Becomes (item.fieldType path arguments)) items.members fields :=
  becomes_of_record declared (.inl layout)

/-! ## Arrays of any length -/

/-- A declared record is read from an array of any length.  Its fields are those that are declared.

The elements go to the written fields in the order of declaration: the array is read just if each of
them is read as a value of the type of its field, what is over is well-formed, and every field
without element is of an optional type or marked so; such fields and those that are never written
take the initial values of their types, and the reader ends behind the array.  Where only a field is
missing that may not be, the first such field is reported.

So fields that may be missing or are never written can be added at the end: what was read without
them is read with them, if the array has elements for the other fields at most, and what was read
with them is read without them, if the elements are nested no deeper than may be skipped. -/
theorem Item.reads_arrays {σ : Type} {lookup : Lookup σ} {catalog : Catalog} {budget count : Nat}
    {name path : String} {item : Item} {arguments : List Schema} {definition : Definition Schema}
    {fields : List (Field Schema)} {header body : Bytes} {reader : Reader} {memory : σ}
    (declared : item.typeDefinition path arguments = .ok definition)
    (layout : definition.layout = .array fields)
    (defined : catalog.definition? name = some definition)
    (framed : ∀ field ∈ Field.written fields, Framed (Decode.value lookup catalog field.type))
    (room : reader.budget = budget + 1) (gives : HeaderGives Format.array? header count)
    (unread : reader.cursor.unread = header ++ body) :
    (∃ items, item.body = .record items ∧
      List.Forall₂ (FieldItem.Becomes (item.fieldType path arguments)) items.members fields) ∧
    (∀ content kept rest,
      (∃ after, Decode.datum lookup catalog .builtin (.named name) ⟨reader, memory⟩ =
          .ok content ⟨after, kept⟩ ∧ after.cursor.unread = rest) ↔
        ∃ elements contents, elements.length = count ∧ body = elements.flatten ++ rest ∧
          Arrives lookup catalog budget fields elements memory contents kept ∧
          (∀ field ∈ (Field.written fields).drop count, field.lenient = true) ∧
          content = .record (filled catalog fields contents)) ∧
    (∀ elements contents kept rest missing, elements.length = count →
      body = elements.flatten ++ rest →
      Arrives lookup catalog budget fields elements memory contents kept →
      ((Field.written fields).drop count).find? (fun field => !field.lenient) = some missing →
        ∃ after, Decode.datum lookup catalog .builtin (.named name) ⟨reader, memory⟩ =
          .error (.missingField missing.key definition.name) ⟨after, kept⟩) ∧
    ∀ newer later more, catalog.definition? newer = some later →
      later.layout = .array (fields ++ more) →
      (∀ field ∈ more, field.skip = true ∨ field.lenient = true) →
      (∀ field ∈ Field.written more, Framed (Decode.value lookup catalog field.type)) →
        ∀ values kept rest,
          (count ≤ (Field.written fields).length →
            (∃ after, Decode.datum lookup catalog .builtin (.named name) ⟨reader, memory⟩ =
              .ok (.record values) ⟨after, kept⟩ ∧ after.cursor.unread = rest) →
            ∃ after, Decode.datum lookup catalog .builtin (.named newer) ⟨reader, memory⟩ =
              .ok (.record (values ++ more.map fun field => field.type.initial catalog.initial))
                ⟨after, kept⟩ ∧ after.cursor.unread = rest) ∧
          ∀ bytes, body = bytes ++ rest → WellFormed budget count bytes →
            (∃ after, Decode.datum lookup catalog .builtin (.named newer) ⟨reader, memory⟩ =
              .ok (.record values) ⟨after, kept⟩ ∧ after.cursor.unread = rest) →
            ∃ between after, Decode.datum lookup catalog .builtin (.named name) ⟨reader, memory⟩ =
              .ok (.record (values.take fields.length)) ⟨after, between⟩ ∧
                after.cursor.unread = rest := by
  refine ⟨becomes_of_array declared layout, fun content kept rest => ?_, ?_, ?_⟩
  · exact Decode.datum_array_iff defined layout room gives framed unread
  · intro elements contents kept rest missing counted split arrives first
    exact Decode.datum_array_missing defined layout room gives (split ▸ unread) counted arrives
      first
  · intro newer later more definedLater layoutLater optional added values kept rest
    have all : ∀ field ∈ Field.written (fields ++ more),
        Framed (Decode.value lookup catalog field.type) := by
      intro field member
      rw [Decode.written_append] at member
      exact (List.mem_append.1 member).elim (framed field) (added field)
    constructor
    · intro few older
      exact Decode.datum_added defined layout definedLater layoutLater all room gives unread
        optional few older
    · intro bytes split shallow younger
      exact Decode.datum_dropped defined layout definedLater layoutLater all room gives unread split
        shallow younger

/-- A record with a field that must be there, one that is never written, one that is marked and one
of an optional type. -/
def Item.note : Item :=
  ⟨"Note", [], [], [], .record (.named [("id", ⟨[.word "u8"], []⟩),
    ("seen", ⟨[.word "bool"], [.options [.word "skip"]]⟩),
    ("level", ⟨[.word "u8"], [.options [.word "default"]]⟩),
    ("next", ⟨[.word "Option", .mark '<', .word "u8", .mark '>'], []⟩)])⟩

/-- The fields of a note in its layout. -/
def noteLayout : List (Field Schema) :=
  [⟨"id", "id", .scalar (.int .u8), false, false⟩, ⟨"seen", "seen", .scalar .bool, true, false⟩,
    ⟨"level", "level", .scalar (.int .u8), false, true⟩,
    ⟨"next", "next", .option (.scalar (.int .u8)), false, true⟩]

/-- A field of an optional type that is added to a note. -/
def tagField : Field Schema :=
  ⟨"tag", "tag", .option (.scalar .bool), false, true⟩

/-- The catalog of notes without and with a tag. -/
def noteCatalog : Catalog :=
  .ofDefinitions [("Note", ⟨"Note", .array noteLayout⟩),
    ("Tagged", ⟨"Tagged", .array (noteLayout ++ [tagField])⟩)]

/-- From an array of one element a note is read, so one with a tag is.  From an array of four one
with a tag is read, so a note is.  And where there is no element, the first field is missing. -/
theorem Item.reads_arrays_of_notes :
    (∃ after, Decode.datum (.standard noteCatalog) noteCatalog .builtin (.named "Tagged")
        ⟨.ofCursor (.ofBytes [0x91, 0x07]) 9, ()⟩ =
      .ok (.record [.atom (.int 7), .atom (.bool false), .atom (.int 0), .none, .none])
        ⟨after, ()⟩ ∧ after.cursor.unread = []) ∧
    (∃ between after, Decode.datum (.standard noteCatalog) noteCatalog .builtin (.named "Note")
        ⟨.ofCursor (.ofBytes [0x94, 0x07, 0x01, 0xc0, 0xc2]) 9, ()⟩ =
      .ok (.record [.atom (.int 7), .atom (.bool false), .atom (.int 1), .none])
        ⟨after, between⟩ ∧ after.cursor.unread = []) ∧
    ∃ after, Decode.datum (.standard noteCatalog) noteCatalog .builtin (.named "Note")
        ⟨.ofCursor (.ofBytes [0x90]) 9, ()⟩ = .error (.missingField "id" "Note") ⟨after, ()⟩ := by
  have framed (type : Schema) : Framed (Decode.value (.standard noteCatalog) noteCatalog type) :=
    Decode.framed_value (Lookup.described_standard noteCatalog) noteCatalog type
  have declared : note.typeDefinition "" [] = .ok ⟨"Note", .array noteLayout⟩ := rfl
  have reads (count : Nat) (fits : count < 0x100000000) (body : Bytes) :=
    @reads_arrays Unit (.standard noteCatalog) noteCatalog 8 count "Note" "" note []
      ⟨"Note", .array noteLayout⟩ noteLayout (arrayHeader count) body
      (.ofCursor (.ofBytes (arrayHeader count ++ body)) 9) () declared rfl rfl
      (fun field _ => framed field.type) rfl (arrayHeader_gives fits) (Cursor.unread_ofBytes _)
  have tag : ∀ field ∈ [tagField], field.skip = true ∨ field.lenient = true := by
    decide
  have numbers : WellFormed 8 4 ([0x07] ++ ([0x01] ++ ([0xc0] ++ [0xc2]))) :=
    have small {code : UInt8} (low : code < 0x80) : Leaf [code] := .fixed (.positiveFixInt low)
    ((small (by decide)).wellFormed 8).append <| ((small (by decide)).wellFormed 8).append <|
      ((Leaf.fixed .nil).wellFormed 8).append ((Leaf.fixed .false).wellFormed 8)
  refine ⟨?_, ?_, ?_⟩
  · obtain ⟨_, _, _, compatible⟩ := reads 1 (by decide) [0x07]
    exact (compatible "Tagged" _ _ rfl rfl tag (fun field _ => framed field.type) _ () []).1
      (by decide) ⟨_, rfl, rfl⟩
  · obtain ⟨_, _, _, compatible⟩ := reads 4 (by decide) [0x07, 0x01, 0xc0, 0xc2]
    have younger : ∃ after,
        Decode.datum (.standard noteCatalog) noteCatalog .builtin (.named "Tagged")
          ⟨.ofCursor (.ofBytes [0x94, 0x07, 0x01, 0xc0, 0xc2]) 9, ()⟩ =
        .ok (.record [.atom (.int 7), .atom (.bool false), .atom (.int 1), .none,
          .some (.atom (.bool false))]) ⟨after, ()⟩ ∧ after.cursor.unread = [] :=
      ⟨_, rfl, rfl⟩
    exact (compatible "Tagged" _ _ rfl rfl tag (fun field _ => framed field.type) _ () []).2 _ rfl
      numbers younger
  · obtain ⟨_, _, missing, _⟩ := reads 0 (by decide) []
    exact missing [] [] () [] ⟨"id", "id", .scalar (.int .u8), false, false⟩ rfl rfl
      ⟨.nil, fun _ none => absurd none List.not_mem_nil⟩ rfl

end MsgPack.Derive
