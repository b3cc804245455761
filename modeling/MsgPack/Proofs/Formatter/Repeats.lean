import MsgPack.Proofs.Collection.Occurrences
import MsgPack.Proofs.Formatter.Component
import MsgPack.Proofs.Value.Retold

/-!
# Sets and maps of items that repeat

No set or map is written with two items or keys that are equal, but any array or map of the wire
may be read as one.  The header counts what stands on the wire, and what is written again counts
what is left of it: one item or entry for each sort key.  What is left is a set or a map that comes
back if its items, keys and values do.
-/

namespace MsgPack.Decode

open Session

/-! ## On the wire -/

/-- A value on the wire: its bytes, in whatever form, and what they are read as. -/
structure WireValue where
  bytes : Bytes
  content : Datum

/-- An entry of a map on the wire. -/
structure WireEntry where
  key : WireValue
  value : WireValue

namespace WireEntry

/-- The bytes of the key and then those of the value. -/
def bytes (entry : WireEntry) : Bytes :=
  entry.key.bytes ++ entry.value.bytes

/-- What the entry is read as. -/
def content (entry : WireEntry) : Datum × Datum :=
  (entry.key.content, entry.value.content)

end WireEntry

variable {σ : Type} {lookup : Lookup σ} {catalog : Catalog} {good : σ → Prop} {budget : Nat}
variable {type keyType valueType : Schema} {formatter keys values : Formatter} {header : Bytes}

/-- A value on the wire is read with a formatter, where just so many structures may be opened. -/
structure WireValue.Spells (lookup : Lookup σ) (catalog : Catalog) (good : σ → Prop) (budget : Nat)
    (formatter : Formatter) (type : Schema) (value : WireValue) : Prop where
  filled : value.bytes ≠ []
  takes : TakesAt good budget (datum lookup catalog formatter type) value.bytes value.content

/-- A value comes back: it is written as some bytes, after whatever was written before, and these
are read as the value again, whatever follows them. -/
structure ComesBack (lookup : Lookup σ) (catalog : Catalog) (good : σ → Prop) (levels : Nat)
    (formatter : Formatter) (type : Schema) (bytes : Bytes) (content : Datum) : Prop where
  filled : bytes ≠ []
  writes : Encode.Appends good (Encode.datum lookup catalog content formatter type) bytes True
  reads : Takes good levels (datum lookup catalog formatter type) bytes content

/-- A set is read from an array with any header. -/
theorem takesAt_wireItems {wire : List WireValue} (gives : lookup.Gives good type formatter)
    (counts : HeaderGives Format.array? header wire.length)
    (spells : ∀ item ∈ wire, item.Spells lookup catalog good budget formatter type)
    (kind : SequenceKind) :
    TakesAt good (budget + 1) (datum lookup catalog .builtin (.sequence kind type))
      (header ++ wire.flatMap WireValue.bytes)
      (.list (kind.build (catalog.sortKey type) (wire.map WireValue.content))) := by
  have enough := length_le_flatMap fun item member => (spells item member).filled
  have head : Read.TakesBefore (wire.flatMap WireValue.bytes) Read.arrayHeader header
      wire.length := by
    intro reader rest unread
    refine Read.accepts_arrayHeader.complete ⟨counts, ?_⟩ unread
    rw [List.length_append]
    exact Nat.le_add_right_of_le enough
  have items := TakesAt.times fun item member => takesAt_within.2 (spells item member).takes
  have collection : TakesAt good (budget + 1)
      (collection lookup (within lookup catalog budget) type)
      (header ++ wire.flatMap WireValue.bytes) (wire.map WireValue.content) :=
    .liftThen head (.findThen gives items.nested)
  exact takesAt_within.1 (collection.mapped fun items =>
    Datum.list (kind.build (catalog.sortKey type) items))

/-- A map is read from one with any header. -/
theorem takesAt_wireEntries {wire : List WireEntry} (givesKeys : lookup.Gives good keyType keys)
    (givesValues : lookup.Gives good valueType values)
    (counts : HeaderGives Format.map? header wire.length)
    (spells : ∀ entry ∈ wire, entry.key.Spells lookup catalog good budget keys keyType ∧
      entry.value.Spells lookup catalog good budget values valueType) (kind : MapKind) :
    TakesAt good (budget + 1) (datum lookup catalog .builtin (.map kind keyType valueType))
      (header ++ wire.flatMap WireEntry.bytes)
      (.map (Keyed.ofEntries (catalog.sortKey keyType) kind (wire.map WireEntry.content))) := by
  have enough : wire.length * 2 ≤ (wire.flatMap WireEntry.bytes).length := by
    apply length_mul_le_flatMap
    intro entry member
    have key := List.length_pos_iff.2 (spells entry member).1.filled
    have value := List.length_pos_iff.2 (spells entry member).2.filled
    rw [WireEntry.bytes, List.length_append]
    omega
  have head : Read.TakesBefore (wire.flatMap WireEntry.bytes) Read.mapHeader header
      wire.length := by
    intro reader rest unread
    apply (Read.accepts_countAs Format.map? .map (· * 2)).complete ⟨counts, _⟩ unread
    rw [List.length_append]
    exact Nat.le_add_right_of_le enough
  have each : ∀ entry ∈ wire, TakesAt good budget (do
        let key ← within lookup catalog budget keys keyType
        return (key, ← within lookup catalog budget values valueType))
      entry.bytes entry.content := fun entry member =>
    (takesAt_within.2 (spells entry member).1.takes).bind
      ((takesAt_within.2 (spells entry member).2.takes).mapped _)
  have entries : TakesAt good (budget + 1)
      (entries lookup (within lookup catalog budget) keyType valueType)
      (header ++ wire.flatMap WireEntry.bytes) (wire.map WireEntry.content) :=
    .liftThen head (.findThen givesKeys (.findThen givesValues (TakesAt.times each).nested))
  exact takesAt_within.1 (entries.mapped fun entries =>
    Datum.map (Keyed.ofEntries (catalog.sortKey keyType) kind entries))

/-! ## Written again -/

/-- A set of items that come back comes back. -/
theorem comesBack_set {kind : SequenceKind} (isSet : kind.IsSet) {set : List Datum} {levels : Nat}
    {bytes : Datum → Bytes} (gives : lookup.Gives good type formatter)
    (count : set.length < 0x100000000) (admitted : kind.Admits (catalog.sortKey type) set)
    (each : ∀ item ∈ set, ComesBack lookup catalog good levels formatter type (bytes item) item) :
    ComesBack lookup catalog good (levels + 1) .builtin (.sequence kind type)
      (arrayHeader set.length ++ set.flatMap bytes) (.list set) where
  filled := List.length_pos_iff.1 (Value.length_header_pos (arrayHeader_gives count))
  writes := by
    have writes := Encode.appends_sequence gives count
      (fun item member => (each item member).writes) kind
    rwa [isSet.elements_eq] at writes
  reads := by
    have reads := takes_sequence gives count (fun item member => (each item member).filled)
      (fun item member => (each item member).reads) admitted
    rwa [isSet.elements_eq] at reads

/-- A map of keys and values that come back comes back. -/
theorem comesBack_map {kind : MapKind} {map : List (Datum × Datum)} {levels : Nat}
    {keyBytes valueBytes : Datum → Bytes} (givesKeys : lookup.Gives good keyType keys)
    (givesValues : lookup.Gives good valueType values) (count : map.length < 0x100000000)
    (admitted : kind.Admits (catalog.sortKey keyType) (map.map Prod.fst))
    (each : ∀ entry ∈ map,
      ComesBack lookup catalog good levels keys keyType (keyBytes entry.1) entry.1 ∧
        ComesBack lookup catalog good levels values valueType (valueBytes entry.2) entry.2) :
    ComesBack lookup catalog good (levels + 1) .builtin (.map kind keyType valueType)
      (mapHeader map.length ++ map.flatMap fun entry => keyBytes entry.1 ++ valueBytes entry.2)
      (.map map) where
  filled := List.length_pos_iff.1 (Value.length_header_pos (mapHeader_gives count))
  writes := Encode.appends_keyed givesKeys givesValues count
    (fun entry member => (each entry member).1.writes)
    (fun entry member => (each entry member).2.writes) kind
  reads := takes_keyed givesKeys givesValues count
    (fun entry member => (each entry member).1.filled)
    (fun entry member => (each entry member).2.filled)
    (fun entry member => (each entry member).1.reads)
    (fun entry member => (each entry member).2.reads) admitted

/-- There are no more sort keys than a header can count. -/
theorem distinct_lt {ι : Type} {wire : List ι} {form? : Format → Option LengthForm}
    (counts : HeaderGives form? header wire.length) (narrow : Narrow form?)
    (sortKey : ι → List Int) : (wire.map sortKey).dedup.length < 0x100000000 := by
  have fewer := (List.dedup_sublist (wire.map sortKey)).length_le
  rw [List.length_map] at fewer
  exact Nat.lt_of_le_of_lt fewer (counts.fits narrow)

/-! ## What is left -/

/-- Where parts of two rows are the same, they are so when they are converted. -/
theorem filter_map_eq {ι α : Type} {sortKey : α → List Int} {wire others : List ι}
    (convert : ι → α) (same : ∀ key, others.filter (fun item => sortKey (convert item) = key) =
      wire.filter fun item => sortKey (convert item) = key) (key : List Int) :
    (others.map convert).filter (fun item => sortKey item = key) =
      (wire.map convert).filter fun item => sortKey item = key := by
  rw [List.filter_map, List.filter_map]
  exact congrArg (List.map convert) (same key)

/-- Items on the wire settle into a set of a kind.  For each key that is a sort key of some of
them, the set has the first of these and no others. -/
structure SetSettles (lookup : Lookup σ) (catalog : Catalog) (good : σ → Prop) (budget : Nat)
    (formatter : Formatter) (type : Schema) (kind : SequenceKind) (header : Bytes)
    (wire : List WireValue) (set : List Datum) : Prop where
  made : Keyed.SetOf (catalog.sortKey type) kind (wire.map WireValue.content) set
  /-- The array of the items is read as the set. -/
  reads : TakesAt good (budget + 1) (datum lookup catalog .builtin (.sequence kind type))
    (header ++ wire.flatMap WireValue.bytes) (.list set)
  /-- If the set is ordered by its sort keys, it is read, too, when items with different sort keys
  change places. -/
  reordered : kind = .treeSet → ∀ others : List WireValue, others.Perm wire →
    (∀ key, others.filter (fun item => catalog.sortKey type item.content = key) =
      wire.filter fun item => catalog.sortKey type item.content = key) →
    TakesAt good (budget + 1) (datum lookup catalog .builtin (.sequence kind type))
      (header ++ others.flatMap WireValue.bytes) (.list set)
  /-- The set is written with a header that counts the sort keys, whatever its items are written
  as. -/
  counted : Encode.datum lookup catalog (.list set) .builtin (.sequence kind type) = (do
    let formatter ← find lookup type
    lift (Write.arrayHeader (wire.map fun item => catalog.sortKey type item.content).dedup.length)
    Encode.items lookup catalog set formatter type)
  /-- The set comes back if its items do. -/
  again : ∀ (levels : Nat) (bytes : Datum → Bytes),
    (∀ item ∈ set, ComesBack lookup catalog good levels formatter type (bytes item) item) →
    ComesBack lookup catalog good (levels + 1) .builtin (.sequence kind type)
      (arrayHeader (wire.map fun item => catalog.sortKey type item.content).dedup.length ++
        set.flatMap bytes)
      (.list set)

/-- Entries on the wire settle into a map of a kind.  For each key that is a sort key of some of
their keys, the map has one entry and no others, with the first of these keys and the last of
their values. -/
structure MapSettles (lookup : Lookup σ) (catalog : Catalog) (good : σ → Prop) (budget : Nat)
    (keys values : Formatter) (keyType valueType : Schema) (kind : MapKind) (header : Bytes)
    (wire : List WireEntry) (map : List (Datum × Datum)) : Prop where
  made : Keyed.MapOf (catalog.sortKey keyType) kind (wire.map WireEntry.content) map
  /-- The map of the entries on the wire is read as this map. -/
  reads : TakesAt good (budget + 1) (datum lookup catalog .builtin (.map kind keyType valueType))
    (header ++ wire.flatMap WireEntry.bytes) (.map map)
  /-- If the map is ordered by its sort keys, it is read, too, when entries with different sort
  keys change places. -/
  reordered : kind = .tree → ∀ others : List WireEntry, others.Perm wire →
    (∀ key, others.filter (fun entry => catalog.sortKey keyType entry.key.content = key) =
      wire.filter fun entry => catalog.sortKey keyType entry.key.content = key) →
    TakesAt good (budget + 1) (datum lookup catalog .builtin (.map kind keyType valueType))
      (header ++ others.flatMap WireEntry.bytes) (.map map)
  /-- The map is written with a header that counts the sort keys, whatever its keys and values are
  written as. -/
  counted : Encode.datum lookup catalog (.map map) .builtin (.map kind keyType valueType) = (do
    let keys ← find lookup keyType
    let values ← find lookup valueType
    lift (Write.mapHeader
      (wire.map fun entry => catalog.sortKey keyType entry.key.content).dedup.length)
    Encode.entries lookup catalog map keys keyType values valueType)
  /-- The map comes back if its keys and values do. -/
  again : ∀ (levels : Nat) (keyBytes valueBytes : Datum → Bytes),
    (∀ entry ∈ map,
      ComesBack lookup catalog good levels keys keyType (keyBytes entry.1) entry.1 ∧
        ComesBack lookup catalog good levels values valueType (valueBytes entry.2) entry.2) →
    ComesBack lookup catalog good (levels + 1) .builtin (.map kind keyType valueType)
      (mapHeader (wire.map fun entry => catalog.sortKey keyType entry.key.content).dedup.length ++
        map.flatMap fun entry => keyBytes entry.1 ++ valueBytes entry.2)
      (.map map)

theorem set_settles {kind : SequenceKind} (isSet : kind.IsSet) {wire : List WireValue}
    (gives : lookup.Gives good type formatter)
    (counts : HeaderGives Format.array? header wire.length)
    (spells : ∀ item ∈ wire, item.Spells lookup catalog good budget formatter type) :
    ∃ set, SetSettles lookup catalog good budget formatter type kind header wire set := by
  have made : Keyed.SetOf (catalog.sortKey type) kind (wire.map WireValue.content)
      (kind.build (catalog.sortKey type) (wire.map WireValue.content)) := Keyed.setOf_build isSet _
  have distinct := made.length_eq
  rw [List.map_map] at distinct
  refine ⟨_, made, takesAt_wireItems gives counts spells kind, ?reordered, ?counted, ?again⟩
  case reordered =>
    rintro rfl others perm same
    have reads := takesAt_wireItems gives (perm.length_eq.symm ▸ counts)
      (fun item member => spells item (perm.mem_iff.1 member)) .treeSet
    have alike := Keyed.first?_of_filter_eq (filter_map_eq WireValue.content same)
    rwa [((Keyed.setOf_build .tree _).eq_iff made).2 alike] at reads
  case counted =>
    rw [Encode.datum_sequence, isSet.elements_eq, distinct]
    rfl
  case again =>
    intro levels bytes each
    have count := distinct_lt counts Format.narrow_array? fun item =>
      catalog.sortKey type item.content
    have back := comesBack_set isSet gives (distinct ▸ count) (made.admits isSet) each
    rwa [distinct] at back

theorem map_settles (kind : MapKind) {wire : List WireEntry}
    (givesKeys : lookup.Gives good keyType keys) (givesValues : lookup.Gives good valueType values)
    (counts : HeaderGives Format.map? header wire.length)
    (spells : ∀ entry ∈ wire, entry.key.Spells lookup catalog good budget keys keyType ∧
      entry.value.Spells lookup catalog good budget values valueType) :
    ∃ map, MapSettles lookup catalog good budget keys values keyType valueType kind header wire
      map := by
  have made : Keyed.MapOf (catalog.sortKey keyType) kind (wire.map WireEntry.content)
      (Keyed.ofEntries (catalog.sortKey keyType) kind (wire.map WireEntry.content)) :=
    Keyed.mapOf_ofEntries kind _
  have distinct := made.length_eq
  rw [List.map_map] at distinct
  refine ⟨_, made, takesAt_wireEntries givesKeys givesValues counts spells kind, ?reordered,
    ?counted, ?again⟩
  case reordered =>
    rintro rfl others perm same
    have reads := takesAt_wireEntries givesKeys givesValues (perm.length_eq.symm ▸ counts)
      (fun entry member => spells entry (perm.mem_iff.1 member)) .tree
    have agree := Keyed.agree_of_filter_eq (filter_map_eq WireEntry.content same)
    rwa [(Keyed.mapOf_ofEntries .tree _).eq_of_agree made agree] at reads
  case counted =>
    exact distinct ▸ rfl
  case again =>
    intro levels keyBytes valueBytes each
    have count := distinct_lt counts Format.narrow_map? fun entry =>
      catalog.sortKey keyType entry.key.content
    have back := comesBack_map givesKeys givesValues (distinct ▸ count) made.admits each
    rwa [distinct] at back

/-- Items and entries on the wire, however often they repeat and in whatever form they are written,
settle into sets and maps: for each sort key a set has the first item with it, and a map has the
first key with it and the last value.  What is ordered by its sort keys does not change when others
change places, and what is written again is counted by the number of sort keys and changes no more,
if its parts do not.  Two maps in the order of their sort keys are the same just if they were read
from entries with the same first keys and the same last values. -/
theorem repeats_settle :
    (∀ (kind : SequenceKind) (type : Schema) (formatter : Formatter) (header : Bytes)
        (wire : List WireValue), kind.IsSet → lookup.Gives good type formatter →
      HeaderGives Format.array? header wire.length →
      (∀ item ∈ wire, item.Spells lookup catalog good budget formatter type) →
      ∃ set, SetSettles lookup catalog good budget formatter type kind header wire set) ∧
    (∀ (kind : MapKind) (keyType valueType : Schema) (keys values : Formatter) (header : Bytes)
        (wire : List WireEntry), lookup.Gives good keyType keys →
      lookup.Gives good valueType values → HeaderGives Format.map? header wire.length →
      (∀ entry ∈ wire, entry.key.Spells lookup catalog good budget keys keyType ∧
        entry.value.Spells lookup catalog good budget values valueType) →
      ∃ map, MapSettles lookup catalog good budget keys values keyType valueType kind header wire
        map) ∧
    ∀ (keyType : Schema) (entries others map map' : List (Datum × Datum)),
      Keyed.MapOf (catalog.sortKey keyType) .tree entries map →
      Keyed.MapOf (catalog.sortKey keyType) .tree others map' →
        (map = map' ↔ Keyed.Agree (catalog.sortKey keyType) entries others) :=
  ⟨fun _ _ _ _ _ isSet gives counts spells => set_settles isSet gives counts spells,
    fun kind _ _ _ _ _ _ keys values counts spells => map_settles kind keys values counts spells,
    fun _ _ _ _ _ made made' => made.eq_iff made'⟩

/-- Three entries with two keys, of which the greater one comes first and again at the end, settle
into a map of two. -/
theorem repeats_settle_of_three :
    let number (value : Int) : WireValue := ⟨(Value.ofInt value).encoding, .atom (.int value)⟩
    let wire : List WireEntry :=
      [⟨number 2, number 10⟩, ⟨number 1, number 20⟩, ⟨number 2, number 30⟩]
    ∃ map, MapSettles (.standard .empty) .empty (fun _ => True) 0 .builtin .builtin
        (.scalar (.int .u8)) (.scalar (.int .u8)) .tree [0x83] wire map ∧
      ∃ after, datum (.standard .empty) .empty .builtin
          (.map .tree (.scalar (.int .u8)) (.scalar (.int .u8)))
          ⟨.ofCursor (.ofBytes [0x83, 2, 10, 1, 20, 2, 30]) 1, ()⟩ = .ok (.map map) after := by
  intro number wire
  have gives : (Lookup.standard .empty).Gives (fun _ => True) (.scalar (.int .u8)) .builtin :=
    fun _ _ => ⟨rfl, trivial⟩
  have counts : HeaderGives Format.map? (mapHeader 3) 3 := mapHeader_gives (by decide)
  have spells {value : Int} (contained : IntRange.u8.Contains value) :
      (number value).Spells (.standard .empty) .empty (fun _ => True) 0 .builtin
        (.scalar (.int .u8)) := by
    have read := (Scalar.takes_ofInt contained).mapped Atom.int
    exact ⟨List.length_pos_iff.1 (Value.length_encoding_pos (Value.fits_ofInt value)),
      takesAt_within.1 ((TakesAt.lift read).mapped Datum.atom)⟩
  have each : ∀ entry ∈ wire,
      entry.key.Spells (.standard .empty) .empty (fun _ => True) 0 .builtin
        (.scalar (.int .u8)) ∧
      entry.value.Spells (.standard .empty) .empty (fun _ => True) 0 .builtin
        (.scalar (.int .u8)) := by
    simp only [wire, List.forall_mem_cons]
    exact ⟨⟨spells (by decide), spells (by decide)⟩, ⟨spells (by decide), spells (by decide)⟩,
      ⟨spells (by decide), spells (by decide)⟩, nofun⟩
  obtain ⟨map, settles⟩ :=
    repeats_settle.2.1 .tree _ _ _ _ (mapHeader 3) wire gives gives counts each
  obtain ⟨after, kept, ok, _⟩ := settles.reads
    (.ofCursor (.ofBytes [0x83, 2, 10, 1, 20, 2, 30]) 1) [] () trivial rfl rfl
  exact ⟨map, settles, ⟨after, kept⟩, ok⟩

/-! ## What does not come back -/

/-- What is written again of what is read. -/
def rewritten (catalog : Catalog) (type : Schema) (bytes : Bytes) : Option Bytes :=
  ((deserialize catalog type bytes).bind (serialize catalog type)).toOption

/-- Every name stands for a record with two fields of one key. -/
def clashing : Catalog :=
  let number : Schema := .scalar (.int .u8)
  { Catalog.empty with
    definition? := fun name => some ⟨name,
      .map [⟨"a", "k", number, false, false⟩, ⟨"b", "k", .option number, false, true⟩]⟩ }

/-- Maps may be equal and be written differently, since equal numbers may differ in their bits: zero
is equal to its negative.  And a map may change when it is read and written twice, since its values
may: a record with two fields of one key is written with two entries for the key, of which the
second is read for the first field. -/
theorem equal_maps_apart :
    (∃ left right : Value, left.equal right = true ∧
      deserialize .empty (.map .tree (.scalar .string) (.scalar .value))
        [0x81, 0xa1, 0x61, 0xcb, 0, 0, 0, 0, 0, 0, 0, 0] =
          .ok (.map [(.atom (.text "a"), .atom (.value left))]) ∧
      deserialize .empty (.map .tree (.scalar .string) (.scalar .value))
        [0x81, 0xa1, 0x61, 0xcb, 0x80, 0, 0, 0, 0, 0, 0, 0] =
          .ok (.map [(.atom (.text "a"), .atom (.value right))]) ∧
      rewritten .empty (.map .tree (.scalar .string) (.scalar .value))
        [0x81, 0xa1, 0x61, 0xcb, 0, 0, 0, 0, 0, 0, 0, 0] ≠
      rewritten .empty (.map .tree (.scalar .string) (.scalar .value))
        [0x81, 0xa1, 0x61, 0xcb, 0x80, 0, 0, 0, 0, 0, 0, 0]) ∧
    rewritten clashing (.map .tree (.scalar .string) (.named "R"))
        [0x81, 0xa1, 0x61, 0x81, 0xa1, 0x6b, 1] =
      some [0x81, 0xa1, 0x61, 0x82, 0xa1, 0x6b, 1, 0xa1, 0x6b, 0xc0] ∧
    rewritten clashing (.map .tree (.scalar .string) (.named "R"))
        [0x81, 0xa1, 0x61, 0x82, 0xa1, 0x6b, 1, 0xa1, 0x6b, 0xc0] = none := by
  refine ⟨⟨.float64 0, .float64 0x8000000000000000, rfl, rfl, rfl, ?_⟩, ?_, ?_⟩
  all_goals decide +kernel

end MsgPack.Decode
