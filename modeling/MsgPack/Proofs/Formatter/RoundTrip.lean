import MsgPack.Proofs.Formatter.Reading

/-!
# Typed data there and back

What is written of a datum of a covered type does not depend on what was written before, and
is read as the datum again, wherever its bytes stand and whatever follows them.  Only fields
that are never written do not come back, and neither do the flow label and the scope of a socket
address.
-/

namespace MsgPack

/-! ## Types without fields that are left out -/

/-- Whether every field of the types inside a type is written. -/
def Schema.Complete (catalog : Catalog) (type : Schema) : Prop :=
  ∀ name definition index, Inside catalog (.named name) type →
    catalog.definition? name = some definition →
      ∀ field ∈ definition.layout.fields index, field.skip = false

namespace Schema.Complete

variable {catalog : Catalog} {type item : Schema}

theorem part (complete : type.Complete catalog)
    (through : ∀ inner, Inside catalog inner item → Inside catalog inner type) :
    item.Complete catalog :=
  fun name definition index inside => complete name definition index (through _ inside)

end Schema.Complete

namespace Datum

open Schema (Inside)

variable {catalog : Catalog}

/-- Fields that are all written come back, if their values do. -/
theorem restoredFields_eq_self {values : List Datum} {fields : List (Field Schema)}
    (whole : values.length = fields.length) (written : ∀ field ∈ fields, field.skip = false)
    (each : ∀ placed ∈ values.zip fields, restored catalog placed.1 placed.2.type = placed.1) :
    restoredFields catalog values fields = values := by
  have same : (values.zip fields).map (fun placed => restoredField catalog placed.1 placed.2) =
      (values.zip fields).map Prod.fst := by
    apply List.map_congr_left
    intro placed member
    rw [restoredField, written _ (List.of_mem_zip member).2, if_neg Bool.false_ne_true,
      each placed member]
  rw [restoredFields_eq_map, same, List.map_fst_zip (Nat.le_of_eq whole)]

theorem restoredItems_eq_self {items : List Datum} {type : Schema}
    (each : ∀ item ∈ items, restored catalog item type = item) :
    restoredItems catalog items type = items := by
  rw [restoredItems_eq_map, List.map_congr_left each, List.map_id']

theorem restoredEntries_eq_self {entries : List (Datum × Datum)} {keyType valueType : Schema}
    (keys : ∀ entry ∈ entries, restored catalog entry.1 keyType = entry.1)
    (values : ∀ entry ∈ entries, restored catalog entry.2 valueType = entry.2) :
    restoredEntries catalog entries keyType valueType = entries := by
  have same : ∀ entry ∈ entries,
      (restored catalog entry.1 keyType, restored catalog entry.2 valueType) = entry :=
    fun entry member => Prod.ext (keys entry member) (values entry member)
  rw [restoredEntries_eq_map, List.map_congr_left same, List.map_id']

theorem restoredPlaced_eq_self {items : List Datum} {types : List Schema}
    (whole : items.length = types.length)
    (each : ∀ placed ∈ items.zip types, restored catalog placed.1 placed.2 = placed.1) :
    restoredPlaced catalog items types = items := by
  rw [restoredPlaced_eq_map, List.map_congr_left each, List.map_fst_zip (Nat.le_of_eq whole)]

/-- A value of a scalar type comes back, but for what a socket address loses. -/
theorem restored_atom {content : Atom} {type : Scalar} (holds : type.Holds content)
    (unscoped : (atom content).Unscoped catalog (.scalar type)) : content.restored = content := by
  cases content with
  | socket octets port flow scope =>
      cases type <;> first | exact holds.elim | skip
      obtain ⟨rfl, rfl⟩ := unscoped octets port flow scope .self
      rfl
  | _ => rfl

/-- Where every field is written and no socket address has more than an address and a port, data
come back as they were. -/
theorem restored_eq_self {content : Datum} {type : Schema} (typed : HasType catalog content type)
    (complete : type.Complete catalog) (unscoped : content.Unscoped catalog type) :
    restored catalog content type = content := by
  induction typed with
  | scalar holds => exact congrArg atom (restored_atom holds unscoped)
  | typeless inside => rfl
  | none => rfl
  | some inside ih =>
      exact congrArg Datum.some
        (ih (complete.part fun _ => Inside.option) (unscoped.part fun _ _ => .some))
  | boxed inside ih =>
      rw [restored_boxed]
      exact ih (complete.part fun _ => Inside.boxed) (unscoped.part fun _ _ => .boxed)
  | shared inside ih =>
      rw [restored_shared]
      exact ih (complete.part fun _ => Inside.shared) (unscoped.part fun _ _ => .shared)
  | sequence admitted inside ih =>
      have same := restoredItems_eq_self fun item member =>
        ih item member (complete.part fun _ => Inside.sequence)
          (unscoped.part fun _ _ => .sequence member)
      simp only [restored, Schema.bare, same, admitted.build_elements]
  | array whole inside ih =>
      have same := restoredItems_eq_self fun item member =>
        ih item member (complete.part fun _ => Inside.array)
          (unscoped.part fun _ _ => .array member)
      simp only [restored, Schema.bare, same]
  | grid whole bounded row column inside ih =>
      have same := restoredItems_eq_self fun item member =>
        ih item member (complete.part fun _ => Inside.grid)
          (unscoped.part fun _ _ => .grid member)
      simp only [restored, Schema.bare, same]
  | map admitted keys values ihKeys ihValues =>
      have same := restoredEntries_eq_self
        (fun entry member => ihKeys entry member (complete.part fun _ => Inside.key)
          (unscoped.part fun _ _ => .key member))
        fun entry member => ihValues entry member (complete.part fun _ => Inside.value)
          (unscoped.part fun _ _ => .value member)
      simp only [restored, Schema.bare, same, admitted.ofEntries_eq]
  | tuple whole inside ih =>
      have same := restoredPlaced_eq_self whole fun placed member =>
        ih placed member (complete.part fun _ => Inside.tuple (List.of_mem_zip member).2)
          (unscoped.part fun _ _ => .tuple member)
      simp only [restored, Schema.bare, same]
  | record defined shape whole inside ih =>
      have written := complete _ _ 0 .self defined
      rw [Layout.fields_eq_of_record shape] at written
      rw [restored, Catalog.fields_named defined, Layout.fields_eq_of_record shape,
        restoredFields_eq_self whole written]
      intro placed member
      have field := (List.of_mem_zip member).2
      have kept := written _ field
      exact ih placed member (complete.part fun _ => Inside.record defined shape field kept)
        (unscoped.part fun _ _ => .record defined shape member kept)
  | @variant _ _ index _ _ defined shape whole inside ih =>
      have written := complete _ _ index .self defined
      rw [Layout.fields_eq_of_variant shape] at written
      rw [restored, Catalog.fields_named defined, Layout.fields_eq_of_variant shape,
        restoredFields_eq_self whole written]
      intro placed member
      have field := (List.of_mem_zip member).2
      have kept := written _ field
      exact ih placed member (complete.part fun _ => Inside.variant defined shape field kept)
        (unscoped.part fun _ _ => .variant defined shape member kept)

end Datum

/-! ## There and back -/

/-- Writing a datum of a covered type appends its bytes, which are one well-formed value.  By
any reader that has as many levels left as these are nested deep, they are read as the datum,
up to what follows them.  A field that is never written comes back with its initial value, and
a socket address without its flow label and its scope; where there are none of these, the datum
comes back as it was. -/
theorem Datum.serialize_deserialize {catalog : Catalog} {content : Datum} {type : Schema}
    (typed : HasType catalog content type) (covered : type.Covered catalog)
    (clear : content.Clear catalog type) {writer written : Writer}
    (ok : Write.datum catalog type content writer = .ok () written) :
    (type.Complete catalog → content.Unscoped catalog type →
        content.restored catalog type = content) ∧
      ∃ bytes, serialize catalog type content = .ok bytes ∧
        written.toList = writer.toList ++ bytes ∧ (∃ levels, WellFormed levels 1 bytes) ∧
          ∀ (reader : Reader) (rest : Bytes), reader.cursor.unread = bytes ++ rest →
            WellFormed reader.budget 1 bytes →
              ∃ after, Read.datum catalog type reader = .ok (content.restored catalog type) after ∧
                after.cursor.unread = rest ∧ after.depth = reader.depth := by
  have fits : (content.image catalog type).Fits := by
    by_cases fits : (content.image catalog type).Fits
    · exact fits
    · rw [Write.datum_eq typed covered] at ok
      exact absurd ok (Value.fails_of_not_fits fits).not_ok
  rw [Write.datum_eq typed covered, Value.write_of_fits fits] at ok
  cases ok
  refine ⟨restored_eq_self typed, _, serialize_eq typed covered fits, Writer.toList_append _ _,
    ⟨_, Value.wellFormed_encoding fits⟩, fun reader rest next given => ?_⟩
  have room := (Value.wellFormed_iff fits _).1 given
  obtain ⟨after, ok, passed⟩ :=
    Decode.restores typed covered clear fits reader.budget room reader rest next room
  refine ⟨after, ?_, passed.unread_eq next, passed.depth⟩
  rw [Read.datum_eq, covered.listed.known]
  exact ok

/-! ## A scope that is lost -/

/-- A port at a link-local address, in a scope. -/
def Atom.linkLocal (scope : Nat) : Atom :=
  .socket [0xfe, 0x80, 0, 0, 0, 0, 0, 0, 0, 0, 0, 0, 0, 0, 0, 1] 80 0 scope

/-- A link-local address in a scope is written, and what is read from its bytes is the address in
no scope. -/
theorem Datum.scope_lost :
    HasType .empty (.atom (.linkLocal 5)) (.scalar .socket) ∧
      (Schema.scalar .socket).Covered .empty ∧
      (Datum.atom (.linkLocal 5)).Clear .empty (.scalar .socket) ∧
      ∃ bytes after, serialize .empty (.scalar .socket) (.atom (.linkLocal 5)) = .ok bytes ∧
        Read.datum .empty (.scalar .socket) (.ofBytes bytes) =
          .ok (.atom (.linkLocal 0)) after ∧
        after.cursor.unread = [] ∧ Datum.atom (.linkLocal 0) ≠ .atom (.linkLocal 5) := by
  refine ⟨.scalar ⟨.inr (by decide), by decide⟩, ?covered, ⟨?options, ?values⟩, _, _, rfl, rfl, rfl,
    ?differ⟩
  case covered =>
    intro inner inside
    cases inside
    trivial
  case options =>
    intro item itemType inside
    cases inside
  case values =>
    intro value inside
    cases inside
  case differ =>
    intro same
    injection same with same
    injection same with _ _ _ same
    exact absurd same (by decide)

/-! ## A record there and back -/

/-- A record with a field that may be empty and one that is never written. -/
def Definition.note : Definition Schema :=
  ⟨"Note", .map [⟨"id", "id", .option (.scalar (.int .u8)), false, true⟩,
    ⟨"seen", "seen", .scalar .bool, true, false⟩]⟩

/-- A catalog of this record alone. -/
def Catalog.notes : Catalog :=
  { Catalog.empty with definition? := fun _ => some .note, initial := fun _ => .none }

/-- The field that is written is the only one of the record whose type matters. -/
theorem Definition.written_note {fields : List (Field Schema)} {field : Field Schema}
    (shape : note.layout.record? = some fields) (member : field ∈ fields)
    (written : field.skip = false) :
    field.type = .option (.scalar (.int .u8)) := by
  cases shape
  rcases List.mem_cons.1 member with rfl | hidden
  · rfl
  · rw [List.mem_singleton.1 hidden] at written
    cases written

theorem Catalog.covered_note (name : String) : (Schema.named name).Covered notes := by
  intro inner inside
  cases inside with
  | self =>
      have distinct : ["id"].Nodup := by decide
      exact ⟨_, rfl, distinct, trivial⟩
  | record defined shape member written inside =>
      cases defined
      rw [Definition.written_note shape member written] at inside
      cases inside with
      | self => trivial
      | option inside =>
          cases inside
          trivial
  | variant defined shape member written inside =>
      cases defined
      cases shape

theorem Catalog.clear_note (name : String) :
    (Datum.record [.some (.atom (.int 7)), .atom (.bool true)]).Clear notes (.named name) where
  options := by
    intro item itemType inside
    cases inside with
    | record defined shape member written inside =>
        cases defined
        cases shape
        rcases List.mem_cons.1 member with rfl | hidden
        · cases inside with
          | self =>
              have bytes : serialize notes (.scalar (.int .u8)) (.atom (.int 7)) = .ok [0x07] := rfl
              rw [bytes]
              intro same
              injection same with same
              exact absurd same (by decide)
          | some inside => cases inside
        · rw [List.mem_singleton.1 hidden] at written
          cases written
  values := by
    intro value inside
    cases inside with
    | record defined shape member written inside =>
        cases defined
        cases shape
        rcases List.mem_cons.1 member with rfl | hidden
        · cases inside with
          | some inside => cases inside
        · rw [List.mem_singleton.1 hidden] at written
          cases written

/-- A note with its number, followed by nil, at the limit of depth. -/
theorem Datum.serialize_deserialize_note :
    ∃ after, Read.datum .notes (.named "Note")
        (.ofCursor (.ofBytes [0x81, 0xa2, 0x69, 0x64, 0x07, 0xc0]) 1) =
          .ok (.record [.some (.atom (.int 7)), .atom (.bool false)]) after ∧
        after.cursor.unread = [0xc0] := by
  have typed : HasType .notes (.record [.some (.atom (.int 7)), .atom (.bool true)])
      (.named "Note") := by
    refine .record rfl rfl rfl fun placed member => ?_
    rcases List.mem_cons.1 member with rfl | member
    · exact .some (.scalar ⟨by decide, by decide⟩)
    · rw [List.mem_singleton.1 member]
      exact .scalar trivial
  have written : Write.datum .notes (.named "Note")
      (.record [.some (.atom (.int 7)), .atom (.bool true)]) .empty =
        .ok () (Writer.empty.append [0x81, 0xa2, 0x69, 0x64, 0x07]) := rfl
  obtain ⟨_, bytes, _, appended, _, reads⟩ :=
    Datum.serialize_deserialize typed (Catalog.covered_note "Note")
      (Catalog.clear_note "Note") written
  rw [Writer.toList_append] at appended
  obtain rfl := List.append_cancel_left appended
  have key : Leaf ([0xa2] ++ [0x69, 0x64]) := .fixed (.fixStr (by decide) (by decide))
  have number : Leaf [0x07] := .fixed (.positiveFixInt (by decide))
  have opens : Opens [0x81] 2 := .fixMap (by decide) (by decide)
  have entry := (key.wellFormed 0).append (number.wellFormed 0)
  obtain ⟨after, ok, unread, _⟩ :=
    reads (.ofCursor (.ofBytes [0x81, 0xa2, 0x69, 0x64, 0x07, 0xc0]) 1) [0xc0] rfl
      (.opened opens entry .done)
  exact ⟨after, ok, unread⟩

end MsgPack
