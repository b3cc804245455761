import MsgPack.Proofs.Formatter.Image
import MsgPack.Proofs.Formatter.Takes
import MsgPack.Proofs.Value.Encoding

/-!
# Reading the fields of known bytes

What becomes of the fields of a record when the bytes that they were written as are read: a
field that is written is found, one that is never written takes the initial value of its type.
In an array fields are found by their place, in a map by their key; where the keys of the
written fields differ, each entry goes to the field that it came from.

What the lookup gives for the types of the fields is left open, and so are their bytes.
-/

namespace MsgPack.Decode

open Session
open Datum (length_written mem_written written)

variable {σ : Type} {lookup : Lookup σ} {catalog : Catalog} {good : σ → Prop} {levels : Nat}
variable {inner : Formatter → Schema → Decode σ Datum}
variable {bytes : Datum × Field Schema → Bytes} {result : Datum × Field Schema → Datum}
variable {values : List Datum} {fields : List (Field Schema)}

/-- What is found for a field, if the written ones are found. -/
def slotOf (result : Datum × Field Schema → Datum) (placed : Datum × Field Schema) :
    Option Datum :=
  if placed.2.skip then none else some (result placed)

/-- The value that a field takes, if the written ones are found. -/
def fieldResult (catalog : Catalog) (result : Datum × Field Schema → Datum)
    (placed : Datum × Field Schema) : Datum :=
  if placed.2.skip then placed.2.type.initial catalog.initial else result placed

/-- A record is made from what was found for its fields. -/
theorem construct_slots (typeName : String) (whole : values.length = fields.length) :
    construct catalog typeName fields ((values.zip fields).map (slotOf result)) =
      .ok ((values.zip fields).map (fieldResult catalog result)) := by
  induction fields generalizing values with
  | nil =>
      rw [List.zip_nil_right]
      rfl
  | cons field fields ih =>
      cases values with
      | nil => cases whole
      | cons value values =>
          have others := ih (Nat.succ.inj whole)
          rw [List.zip_cons_cons, List.map_cons, construct, List.tail_cons, others]
          cases skip : field.skip <;> simp [slotOf, fieldResult, skip] <;> rfl

/-- Items that take some bytes each take at least as many together. -/
theorem length_mul_le_flatMap {α : Type} {items : List α} {encoding : α → Bytes} {least : Nat}
    (each : ∀ item ∈ items, least ≤ (encoding item).length) :
    items.length * least ≤ (items.flatMap encoding).length := by
  induction items with
  | nil => simp
  | cons item items ih =>
      have first := each item List.mem_cons_self
      have others := ih fun other member => each other (List.mem_cons_of_mem item member)
      rw [List.length_cons, Nat.succ_mul, List.flatMap_cons, List.length_append]
      omega

/-! ## Fields in an array -/

theorem takes_slots (whole : values.length = fields.length)
    (each : ∀ placed ∈ values.zip fields, placed.2.skip = false →
      Takes good levels (found lookup inner placed.2.type) (bytes placed) (result placed)) :
    Takes good levels (slots lookup inner (Field.written fields).length fields)
      ((written values fields).flatMap bytes) ((values.zip fields).map (slotOf result)) := by
  induction fields generalizing values with
  | nil =>
      simp only [written, List.zip_nil_right]
      exact .pure []
  | cons field fields ih =>
      cases values with
      | nil => cases whole
      | cons value values =>
          have others := ih (Nat.succ.inj whole) fun placed member =>
            each placed (List.mem_cons_of_mem _ member)
          cases skip : field.skip with
          | true =>
              have none_first : slotOf result (value, field) = none := by
                rw [slotOf, if_pos skip]
              have fewer : Field.written (field :: fields) = Field.written fields := by
                simp [Field.written, skip]
              have same : written (value :: values) (field :: fields) = written values fields := by
                simp [written, skip]
              rw [slots, skip, Bool.true_or, if_pos rfl, fewer, same, List.zip_cons_cons,
                List.map_cons, none_first]
              exact others.mapped _
          | false =>
              have first := each (value, field) List.mem_cons_self skip
              have some_first : slotOf result (value, field) = some (result (value, field)) := by
                rw [slotOf, skip, if_neg Bool.false_ne_true]
              have more : Field.written (field :: fields) = field :: Field.written fields := by
                simp [Field.written, skip]
              have same : written (value :: values) (field :: fields) =
                  (value, field) :: written values fields := by
                simp [written, skip]
              rw [slots, skip, more, same, List.zip_cons_cons, List.map_cons, List.flatMap_cons,
                some_first]
              simp only [List.length_cons, Bool.false_or, Nat.add_one_ne_zero, decide_false,
                Bool.false_eq_true, if_false, Nat.add_sub_cancel]
              exact first.bind (others.mapped _)

/-- The fields of a record are read from an array that has no others. -/
theorem takes_slotsOfArray (whole : values.length = fields.length)
    (each : ∀ placed ∈ values.zip fields, placed.2.skip = false →
      Takes good levels (found lookup inner placed.2.type) (bytes placed) (result placed)) :
    Takes good (levels + 1) (slotsOfArray lookup inner fields (Field.written fields).length)
      ((written values fields).flatMap bytes) ((values.zip fields).map (slotOf result)) := by
  rw [slotsOfArray, Nat.sub_self]
  exact ((takes_slots whole each).andThen (.pure _)).nested

/-! ## Fields in a map -/

/-- The written values with their fields and the places of these. -/
def writtenAt (values : List Datum) (fields : List (Field Schema)) :
    List ((Datum × Field Schema) × Nat) :=
  (values.zip fields).zipIdx.filter fun source => !source.1.2.skip

theorem map_fst_writtenAt (values : List Datum) (fields : List (Field Schema)) :
    (writtenAt values fields).map Prod.fst = written values fields := by
  have filtered := List.filter_map (f := Prod.fst) (p := fun placed => !placed.2.skip)
    (l := (values.zip fields).zipIdx)
  rw [List.zipIdx_map_fst] at filtered
  exact filtered.symm

theorem mem_writtenAt {source : (Datum × Field Schema) × Nat} :
    source ∈ writtenAt values fields ↔
      (values.zip fields)[source.2]? = some source.1 ∧ source.1.2.skip = false := by
  rw [writtenAt, List.mem_filter, List.mem_zipIdx_iff_getElem?, Bool.not_eq_true']

/-- Where the keys of the written fields differ, a key tells the place of its field. -/
theorem place_unique {first second : Nat} {left right : Field Schema}
    (distinct : ((Field.written fields).map Field.key).Nodup)
    (here : fields[first]? = some left) (there : fields[second]? = some right)
    (kept : left.skip = false) (kept' : right.skip = false) (same : left.key = right.key) :
    first = second := by
  rcases List.getElem?_eq_some_iff.1 here with ⟨low, rfl⟩
  rcases List.getElem?_eq_some_iff.1 there with ⟨high, rfl⟩
  have apart := List.pairwise_iff_getElem.1
    (List.pairwise_filter.1 (List.pairwise_map.1 distinct))
  rcases Nat.lt_trichotomy first second with before | equal | after
  · exact absurd same (apart first second low high before (by simp [kept]) (by simp [kept']))
  · exact equal
  · exact absurd same.symm (apart second first high low after (by simp [kept']) (by simp [kept]))

/-- A field that is found for a key is written and has the key. -/
theorem of_fieldOf?_eq_some {key : String} {field : Field Schema} {place : Nat}
    (found : fieldOf? fields key = some (field, place)) :
    fields[place]? = some field ∧ field.skip = false ∧ field.key = key := by
  have chosen := List.find?_some found
  simp only [Bool.and_eq_true, Bool.not_eq_true', beq_iff_eq] at chosen
  exact ⟨List.mem_zipIdx_iff_getElem?.1 (List.mem_of_find?_eq_some found), chosen⟩

/-- Where the keys of the written fields differ, no other field has the key. -/
theorem fieldOf?_eq_some_iff {key : String} {field : Field Schema} {place : Nat}
    (distinct : ((Field.written fields).map Field.key).Nodup) :
    fieldOf? fields key = some (field, place) ↔
      fields[place]? = some field ∧ field.skip = false ∧ field.key = key := by
  constructor
  · exact of_fieldOf?_eq_some
  · rintro ⟨held, kept, rfl⟩
    cases found : fieldOf? fields field.key with
    | none =>
        have missed := List.find?_eq_none.1 found (field, place)
          (List.mem_zipIdx_iff_getElem?.2 held)
        simp [kept] at missed
    | some other =>
        rcases other with ⟨field', index⟩
        rcases of_fieldOf?_eq_some found with ⟨held', kept', same⟩
        obtain rfl := place_unique distinct held' held kept' kept same
        rw [Option.some.inj (held'.symm.trans held)]

/-- A key of no written field belongs to none. -/
theorem fieldOf?_eq_none_iff {key : String} :
    fieldOf? fields key = none ↔ ∀ field ∈ Field.written fields, field.key ≠ key := by
  rw [fieldOf?, List.find?_eq_none]
  constructor
  · intro missed field member same
    rcases List.mem_filter.1 member with ⟨inside, kept⟩
    rcases List.getElem?_of_mem inside with ⟨place, held⟩
    have missed := missed (field, place) (List.mem_zipIdx_iff_getElem?.2 held)
    simp [same] at missed
    simp [missed] at kept
  · rintro other ⟨field, place⟩ member found
    simp only [Bool.and_eq_true, beq_iff_eq] at found
    have inside := List.mem_of_getElem? (List.mem_zipIdx_iff_getElem?.1 member)
    exact other field (List.mem_filter.2 ⟨inside, found.1⟩) found.2

theorem fieldOf?_eq_some {source : (Datum × Field Schema) × Nat}
    (distinct : ((Field.written fields).map Field.key).Nodup)
    (member : source ∈ writtenAt values fields) :
    fieldOf? fields source.1.2.key = some (source.1.2, source.2) := by
  rcases mem_writtenAt.1 member with ⟨held, kept⟩
  exact (fieldOf?_eq_some_iff distinct).2 ⟨(List.getElem?_zip_eq_some.1 held).2, kept, rfl⟩

/-- A field was assigned last what was found for it. -/
theorem find?_assigned {place : Nat} {placed : Datum × Field Schema}
    (held : (values.zip fields)[place]? = some placed) :
    ((((writtenAt values fields).map fun source => (source.2, result source.1)).reverse.find?
      fun assigned => assigned.1 = place).map (·.2)) = slotOf result placed := by
  cases found : ((writtenAt values fields).map fun source =>
      (source.2, result source.1)).reverse.find? fun assigned => assigned.1 = place with
  | none =>
      cases skip : placed.2.skip with
      | true => rw [slotOf, if_pos skip, Option.map_none]
      | false =>
          have member := List.mem_map_of_mem (f := fun source => (source.2, result source.1))
            (mem_writtenAt.2
              (show (values.zip fields)[(placed, place).2]? = _ ∧ _ from ⟨held, skip⟩))
          have missed := List.find?_eq_none.1 found _ (List.mem_reverse.2 member)
          exact absurd (decide_eq_true rfl) missed
  | some assigned =>
      have there : assigned.1 = place := by simpa using List.find?_some found
      have member := List.mem_reverse.1 (List.mem_of_find?_eq_some found)
      rcases List.mem_map.1 member with ⟨source, origin, rfl⟩
      rcases mem_writtenAt.1 origin with ⟨same, kept⟩
      subst there
      obtain rfl := Option.some.inj (same.symm.trans held)
      rw [slotOf, kept, if_neg Bool.false_ne_true, Option.map_some]

theorem lastAssigned_eq (whole : values.length = fields.length) :
    lastAssigned fields ((writtenAt values fields).map fun source => (source.2, result source.1)) =
      (values.zip fields).map (slotOf result) := by
  have length : (values.zip fields).length = fields.length := by
    rw [List.length_zip, whole, Nat.min_self]
  apply List.ext_getElem
  · rw [lastAssigned, List.length_map, List.length_range, List.length_map, length]
  · intro place first second
    rw [List.length_map] at second
    simp only [lastAssigned, List.getElem_map, List.getElem_range]
    exact find?_assigned (List.getElem?_eq_getElem second)

/-- The entry of a written field is read as an assignment to the place of the field. -/
theorem takes_assignment {source : (Datum × Field Schema) × Nat}
    (distinct : ((Field.written fields).map Field.key).Nodup)
    (member : source ∈ writtenAt values fields) (short : (Value.string source.1.2.key).Fits)
    (takes : Takes good levels (found lookup inner source.1.2.type) (bytes source.1)
      (result source.1)) :
    Takes good levels (assignment lookup inner fields)
      ((Value.string source.1.2.key).encoding ++ bytes source.1)
      (some (source.2, result source.1)) := by
  have key := (Read.takes_string short).mono (Nat.zero_le levels)
  rw [assignment, Value.encoding]
  apply (Takes.lift key).bind
  simp only [fieldOf?_eq_some distinct member]
  exact takes.mapped _

/-- The entries of the written fields are at least twice as many bytes. -/
theorem length_le_entries (filled : ∀ placed ∈ written values fields, bytes placed ≠ [])
    (short : ∀ placed ∈ written values fields, (Value.string placed.2.key).Fits) :
    (written values fields).length * 2 ≤
      ((written values fields).flatMap fun placed =>
        (Value.string placed.2.key).encoding ++ bytes placed).length := by
  apply length_mul_le_flatMap
  intro placed member
  have key := Value.length_encoding_pos (short placed member)
  have value := List.length_pos_iff.2 (filled placed member)
  rw [List.length_append]
  omega

/-- The fields of a record are read from a map that has no others. -/
theorem takes_slotsOfMap (distinct : ((Field.written fields).map Field.key).Nodup)
    (whole : values.length = fields.length)
    (count : (written values fields).length < 0x100000000)
    (short : ∀ placed ∈ written values fields, (Value.string placed.2.key).Fits)
    (filled : ∀ placed ∈ written values fields, bytes placed ≠ [])
    (each : ∀ placed ∈ values.zip fields, placed.2.skip = false →
      Takes good levels (found lookup inner placed.2.type) (bytes placed) (result placed)) :
    Takes good (levels + 1) (slotsOfMap lookup inner fields)
      (mapHeader (written values fields).length ++ (written values fields).flatMap fun placed =>
        (Value.string placed.2.key).encoding ++ bytes placed)
      ((values.zip fields).map (slotOf result)) := by
  have enough := length_le_entries filled short
  have assignments : ∀ source ∈ writtenAt values fields,
      Takes good levels (assignment lookup inner fields)
        ((Value.string source.1.2.key).encoding ++ bytes source.1)
        (some (source.2, result source.1)) := by
    intro source member
    rcases mem_writtenAt.1 member with ⟨held, kept⟩
    have placed := List.mem_of_getElem? held
    exact takes_assignment distinct member (short _ (mem_written.2 ⟨placed, kept⟩))
      (each _ placed kept)
  have collected : ((writtenAt values fields).map fun source =>
      some (source.2, result source.1)).filterMap id =
        (writtenAt values fields).map fun source => (source.2, result source.1) := by
    rw [List.filterMap_map, ← List.filterMap_eq_map]
    rfl
  rw [slotsOfMap]
  apply Takes.liftThen (Read.takesBefore_mapHeader count enough)
  rw [← map_fst_writtenAt, List.flatMap_map, List.length_map]
  apply (Takes.times assignments).nested.andThen
  rw [collected, lastAssigned_eq whole]
  exact .pure _

end MsgPack.Decode
