import MsgPack.Proofs.Derive.Arrays
import MsgPack.Proofs.Formatter.MapFields

/-!
# Derived records in maps of any entries

A declared record with map layout has the fields that are declared, under the keys that their
attributes give them.  Its formatter reads a map by these keys: neither the order of the entries nor
any entry but the last one for each written field matters.
-/

namespace MsgPack.Derive

open Decode (EndsIn Enters Settles firstMissing?)

/-- Whether an entry is for one of the written fields. -/
def isKnown (fields : List (Field Schema)) (entry : Entry) : Bool :=
  (Field.written fields).any fun field => field.key = entry.key

/-- A declared record is read from a map of any entries.  Its fields are those that are declared.

If the keys of the written fields differ and each entry can be read, the record is made of the last
values for the fields, where an optional field without entry and a field that is never written take
the initial values of their types; where a field is missing that may not be, the first such field is
reported.  Either way the reader ends behind the map.

So entries end alike whose last values for the written fields are the same, as are those of entries
with distinct keys in any order, and of entries that differ in those only that are for no field. -/
theorem Item.reads_maps {σ : Type} {lookup : Lookup σ} {catalog : Catalog} {good : σ → Prop}
    {budget : Nat} {name path : String} {item : Item} {arguments : List Schema}
    {definition : Definition Schema} {fields : List (Field Schema)}
    (declared : item.typeDefinition path arguments = .ok definition)
    (layout : definition.layout = .map fields)
    (defined : catalog.definition? name = some definition)
    (distinct : ((Field.written fields).map Field.key).Nodup) :
    (∃ items, item.body = .record items ∧
      List.Forall₂ (FieldItem.Becomes (item.fieldType path arguments)) items.members fields) ∧
    (∀ entries, (∀ entry ∈ entries, Enters lookup catalog good budget fields entry) →
      ∃ outcome, EndsIn lookup catalog good (budget + 1) name entries outcome ∧
        match firstMissing? fields entries with
        | some missing => outcome = .error (.missingField missing.key definition.name)
        | none => ∃ values, outcome = .ok (.record values) ∧
            List.Forall₂ (Settles lookup catalog good budget entries) fields values) ∧
    ∀ entries others, (∀ entry ∈ entries, Enters lookup catalog good budget fields entry) →
      (∀ entry ∈ others, Enters lookup catalog good budget fields entry) →
      ((∀ field ∈ Field.written fields,
          Entry.last? entries field.key = Entry.last? others field.key) ∨
        (entries.Perm others ∧ (entries.map Entry.key).Nodup) ∨
        entries.filter (isKnown fields) = others.filter (isKnown fields)) →
      ∃ outcome, EndsIn lookup catalog good (budget + 1) name entries outcome ∧
        EndsIn lookup catalog good (budget + 1) name others outcome := by
  rcases Decode.exists_reading lookup catalog good budget with ⟨content, reading⟩
  have ends (entries : List Entry)
      (each : ∀ entry ∈ entries, Enters lookup catalog good budget fields entry) :=
    Decode.endsIn_outcomeOf defined layout distinct each reading
  refine ⟨becomes_of_record declared (.inr layout), fun entries each => ?_, ?_⟩
  · refine ⟨_, ends entries each, ?_⟩
    rw [Decode.outcomeOf, Decode.construct_entries]
    cases firstMissing? fields entries with
    | some missing => rfl
    | none => exact ⟨_, rfl, Decode.settles each reading⟩
  · intro entries others each each' alike
    have same : ∀ field ∈ Field.written fields,
        Entry.last? entries field.key = Entry.last? others field.key := by
      intro field member
      rcases alike with same | ⟨perm, apart⟩ | known
      · exact same field member
      · exact Entry.last?_perm perm apart
      · have kept (entry : Entry) (here : entry.key = field.key) :
            isKnown fields entry = true :=
          List.any_eq_true.2 ⟨field, member, decide_eq_true here.symm⟩
        rw [← Entry.last?_filter kept, known, Entry.last?_filter kept]
    have both := ends others each'
    rw [← Decode.outcomeOf_congr definition.name same] at both
    exact ⟨_, ends entries each, both⟩

/-- A note in a map. -/
def Item.keyedNote : Item :=
  { note with attributes := [.options [.word "map"]] }

/-- The catalog of notes in maps. -/
def keyedCatalog : Catalog :=
  .ofDefinitions [("Note", ⟨"Note", .map noteLayout⟩)]

/-- An entry whose key has the shortest header. -/
def entryOf (key : String) (value : Bytes) : Entry :=
  ⟨strHeader (Utf8.encode key).length, key, value⟩

/-- Two entries in one order, and four in another: one is overwritten, and one is for the field that
is never written.  They end alike; and without entries the first field is missing. -/
theorem Item.reads_maps_of_notes :
    (∃ outcome,
      EndsIn (.standard keyedCatalog) keyedCatalog (fun _ => True) 9 "Note"
          [entryOf "level" [0x01], entryOf "id" [0x08]] outcome ∧
        EndsIn (.standard keyedCatalog) keyedCatalog (fun _ => True) 9 "Note"
          [entryOf "id" [0x07], entryOf "seen" [0xc0], entryOf "id" [0x08],
            entryOf "level" [0x01]] outcome) ∧
    EndsIn (.standard keyedCatalog) keyedCatalog (fun _ => True) 9 "Note" []
      (.error (.missingField "id" "Note")) := by
  have declared : keyedNote.typeDefinition "" [] = .ok ⟨"Note", .map noteLayout⟩ := rfl
  have keys : ((Field.written noteLayout).map Field.key).Nodup := by decide
  have reads := @reads_maps Unit (.standard keyedCatalog) keyedCatalog (fun _ => True) 8 "Note" ""
    keyedNote [] ⟨"Note", .map noteLayout⟩ noteLayout declared rfl rfl keys
  have number {bytes : Bytes} {content : Datum} {after : Reader}
      (ok : Decode.value (.standard keyedCatalog) keyedCatalog (.scalar (.int .u8))
        ⟨.ofCursor (.ofBytes bytes) 8, ()⟩ = .ok content ⟨after, ()⟩)
      (done : after.cursor.unread = []) :
      Decode.TakesAt (fun _ => True) 8
        (Decode.value (.standard keyedCatalog) keyedCatalog (.scalar (.int .u8))) bytes
        content := by
    apply Decode.takesAt_of_value (Lookup.described_standard keyedCatalog) ok
    rw [done, List.append_nil]
    exact Cursor.unread_ofBytes bytes
  have enters (key : String) (code : UInt8) (fits : (Utf8.encode key).length < 0x100000000)
      (leaf : Leaf [code]) (other : key ≠ "next")
      (read : key ≠ "seen" → ∃ content, Decode.TakesAt (fun _ => True) 8
        (Decode.value (.standard keyedCatalog) keyedCatalog (.scalar (.int .u8))) [code] content) :
      Enters (.standard keyedCatalog) keyedCatalog (fun _ => True) 8 noteLayout
        (entryOf key [code]) := by
    refine ⟨strHeader_gives fits, leaf.wellFormed 1, ?_, fun _ => leaf.wellFormed 8⟩
    intro field member same
    rcases List.mem_cons.1 member with rfl | member
    · exact read fun seen => absurd (same.trans seen) (by decide)
    · rcases List.mem_cons.1 member with rfl | member
      · exact read fun seen => absurd (same.trans seen) (by decide)
      · rw [List.mem_singleton.1 member] at same
        exact absurd same.symm other
  have small {code : UInt8} (low : code < 0x80) : Leaf [code] := .fixed (.positiveFixInt low)
  have seven := enters "id" 0x07 (by decide) (small (by decide)) (by decide) fun _ =>
    ⟨.atom (.int 7), number rfl rfl⟩
  have eight := enters "id" 0x08 (by decide) (small (by decide)) (by decide) fun _ =>
    ⟨.atom (.int 8), number rfl rfl⟩
  have one := enters "level" 0x01 (by decide) (small (by decide)) (by decide) fun _ =>
    ⟨.atom (.int 1), number rfl rfl⟩
  have seen := enters "seen" 0xc0 (by decide) (.fixed .nil) (by decide) fun other =>
    absurd rfl other
  constructor
  · apply reads.2.2
    · simp [one, eight]
    · simp [one, seven, eight, seen]
    · exact .inl (by decide)
  · rcases reads.2.1 [] (by simp) with ⟨_, ends, rfl⟩
    exact ends

end MsgPack.Derive
