import MsgPack.Proofs.Collection.Keyed
import MsgPack.Proofs.Datum.Scalar
import MsgPack.Proofs.Formatter.Delegation
import MsgPack.Proofs.Formatter.Fields

/-!
# Typed reads with a budget

What a computation that reads with the help of a lookup makes of given bytes where just so many
structures may still be opened.  What reads the inside of a container is left open: of a formatter
that somebody else has made, only the bytes are known that it writes, and it may do to a reader
what it likes with any others.  So a budget can be followed only along these bytes.
-/

namespace MsgPack.Decode

open Session

/-- A computation takes bytes to a result, and passes over just these bytes, where exactly so
many structures may be opened and the memory of the lookup is good. -/
def TakesAt {σ α : Type} (good : σ → Prop) (budget : Nat) (read : Decode σ α) (bytes : Bytes)
    (result : α) : Prop :=
  ∀ (reader : Reader) (rest : Bytes) (memory : σ), good memory →
    reader.cursor.unread = bytes ++ rest → reader.budget = budget →
      ∃ after kept, read ⟨reader, memory⟩ = .ok result ⟨after, kept⟩ ∧
        reader.Passed bytes after ∧ good kept

variable {σ α β : Type} {good : σ → Prop} {levels budget : Nat} {lookup : Lookup σ}
variable {catalog : Catalog}

/-- What needs some levels gets along with any budget of at least as many. -/
theorem takes_iff_takesAt {read : Decode σ α} {bytes : Bytes} {result : α} :
    Takes good levels read bytes result ↔
      ∀ budget, levels ≤ budget → TakesAt good budget read bytes result := by
  constructor
  · intro takes budget room reader rest memory isGood unread same
    exact takes reader rest memory isGood unread (same.symm ▸ room)
  · intro each reader rest memory isGood unread room
    exact each reader.budget room reader rest memory isGood unread rfl

theorem Takes.at {read : Decode σ α} {bytes : Bytes} {result : α}
    (takes : Takes good levels read bytes result) (room : levels ≤ budget) :
    TakesAt good budget read bytes result :=
  takes_iff_takesAt.1 takes budget room

namespace TakesAt

theorem pure (result : α) : TakesAt good budget (pure result : Decode σ α) [] result :=
  (Takes.pure result).at (Nat.zero_le budget)

/-- A read without the lookup and without levels. -/
theorem lift {read : Read α} {bytes : Bytes} {result : α}
    (takes : Read.Takes 0 read bytes result) :
    TakesAt good budget (lift read : Decode σ α) bytes result :=
  (Takes.lift takes).at (Nat.zero_le budget)

/-! ## Sequences -/

theorem bind {first : Decode σ α} {next : α → Decode σ β} {start others : Bytes} {found : α}
    {result : β} (head : TakesAt good budget first start found)
    (tail : TakesAt good budget (next found) others result) :
    TakesAt good budget (first >>= next) (start ++ others) result := by
  intro reader rest memory isGood unread room
  rw [List.append_assoc] at unread
  obtain ⟨middle, between, ok, passed, isGood⟩ := head reader _ memory isGood unread room
  rw [← passed.budget] at room
  obtain ⟨after, kept, done, through, isGood⟩ :=
    tail middle rest between isGood (passed.unread_eq unread) room
  exact ⟨after, kept, bind_eq_ok.2 ⟨found, _, ok, done⟩, passed.trans through, isGood⟩

/-- A read without the lookup that goes by what follows its bytes. -/
theorem liftThen {first : Read α} {next : α → Decode σ β} {start others : Bytes} {found : α}
    {result : β} (head : Read.TakesBefore others first start found)
    (tail : TakesAt good budget (next found) others result) :
    TakesAt good budget (Session.lift first >>= next) (start ++ others) result := by
  intro reader rest memory isGood unread room
  rw [List.append_assoc] at unread
  obtain ⟨middle, ok, passed⟩ := head reader rest unread
  rw [← passed.budget] at room
  obtain ⟨after, kept, done, through, isGood⟩ :=
    tail middle rest memory isGood (passed.unread_eq unread) room
  exact ⟨after, kept, bind_eq_ok.2 ⟨found, _, lift_eq_ok.2 ⟨ok, rfl⟩, done⟩, passed.trans through,
    isGood⟩

/-- A read that goes on without reading more. -/
theorem andThen {first : Decode σ α} {next : α → Decode σ β} {bytes : Bytes} {found : α}
    {result : β} (head : TakesAt good budget first bytes found)
    (tail : TakesAt good budget (next found) [] result) :
    TakesAt good budget (first >>= next) bytes result := by
  rw [← List.append_nil bytes]
  exact head.bind tail

/-- A read with a converted result. -/
theorem mapped {read : Decode σ α} {bytes : Bytes} {result : α}
    (takes : TakesAt good budget read bytes result) (convert : α → β) :
    TakesAt good budget (return convert (← read)) bytes (convert result) :=
  takes.andThen (pure (convert result))

/-- A formatter that the lookup gives reads the value. -/
theorem findThen {type : Schema} {formatter : Formatter} {next : Formatter → Decode σ α}
    {bytes : Bytes} {result : α} (gives : lookup.Gives good type formatter)
    (takes : TakesAt good budget (next formatter) bytes result) :
    TakesAt good budget (find lookup type >>= next) bytes result := by
  intro reader rest memory isGood unread room
  obtain ⟨found, kept⟩ := gives memory isGood
  obtain ⟨after, last, ok, passed, isGood⟩ := takes reader rest _ kept unread room
  exact ⟨after, last, bind_eq_ok.2 ⟨formatter, _, find_eq_ok.2 ⟨found, rfl⟩, ok⟩, passed, isGood⟩

/-- A name that stands for a type in all good memories. -/
theorem nameThen {registry : Option Nat} {name : String} {handle : TypeHandle}
    {next : TypeHandle → Decode σ α} {bytes : Bytes} {result : α}
    (known : ∀ memory, good memory →
      (lookup.names registry memory).byName? name = some handle)
    (takes : TakesAt good budget (next handle) bytes result) :
    TakesAt good budget (do
      match (← names lookup registry).byName? name with
      | none => throw (.unknownTypeName name)
      | some handle => next handle) bytes result := by
  intro reader rest memory isGood unread room
  obtain ⟨after, kept, ok, passed, still⟩ := takes reader rest memory isGood unread room
  refine ⟨after, kept, bind_eq_ok.2 ⟨_, _, rfl, ?_⟩, passed, still⟩
  rw [known memory isGood]
  exact ok

theorem note {registry : Option Nat} {type : Schema}
    (keeps : ∀ memory, good memory → good (lookup.noted registry type memory)) :
    TakesAt good budget (note lookup registry type : Decode σ Unit) [] () :=
  fun reader _ memory isGood _ _ => ⟨reader, _, rfl, .refl reader, keeps memory isGood⟩

/-! ## Structures and loops -/

/-- Inside a structure one level less is left. -/
theorem nested {inner : Decode σ α} {bytes : Bytes} {result : α}
    (takes : TakesAt good budget inner bytes result) :
    TakesAt good (budget + 1) (nested inner) bytes result := by
  intro reader rest memory isGood unread room
  have below : reader.entered.budget = budget := by
    rw [Reader.budget_entered, room, Nat.add_sub_cancel]
  obtain ⟨inside, kept, ok, passed, isGood⟩ :=
    takes reader.entered rest memory isGood unread below
  have opens : 0 < reader.budget := room ▸ Nat.succ_pos budget
  exact ⟨_, kept, nested_eq_ok.2 ⟨opens, inside, kept, ok, rfl⟩,
    ⟨passed.unread, passed.position, rfl, passed.maxDepth⟩, isGood⟩

/-- Items one after the other. -/
theorem times {ι : Type} {item : Decode σ α} {encoding : ι → Bytes} {result : ι → α}
    {items : List ι}
    (each : ∀ source ∈ items, TakesAt good budget item (encoding source) (result source)) :
    TakesAt good budget (Loop.times items.length item) (items.flatMap encoding)
      (items.map result) := by
  induction items with
  | nil => exact pure []
  | cons first items ih =>
      have others := ih fun source member => each source (List.mem_cons_of_mem first member)
      rw [List.length_cons, Loop.times_succ, List.flatMap_cons, List.map_cons]
      exact (each first List.mem_cons_self).bind (others.mapped _)

end TakesAt

/-! ## Collections -/

section Collections

variable {inner : Formatter → Schema → Decode σ Datum} {type : Schema} {formatter : Formatter}
variable {bytes : Datum → Bytes} {items : List Datum}

/-- Items that take up a byte each are at least as many bytes. -/
theorem length_le_flatMap {α : Type} {items : List α} {encoding : α → Bytes}
    (filled : ∀ item ∈ items, encoding item ≠ []) :
    items.length ≤ (items.flatMap encoding).length := by
  rw [← Nat.mul_one items.length]
  exact length_mul_le_flatMap fun item member => List.length_pos_iff.2 (filled item member)

/-- The items of a collection are read one level deeper. -/
theorem takesAt_collection (gives : lookup.Gives good type formatter)
    (count : items.length < 0x100000000) (filled : ∀ item ∈ items, bytes item ≠ [])
    (each : ∀ item ∈ items, TakesAt good budget (inner formatter type) (bytes item) item) :
    TakesAt good (budget + 1) (collection lookup inner type)
      (arrayHeader items.length ++ items.flatMap bytes) items := by
  have read := TakesAt.times each
  rw [List.map_id'] at read
  rw [collection]
  apply TakesAt.liftThen (Read.takesBefore_arrayHeader count (length_le_flatMap filled))
  exact .findThen gives (.nested read)

theorem takesAt_array (gives : lookup.Gives good type formatter)
    (count : items.length < 0x100000000) (filled : ∀ item ∈ items, bytes item ≠ [])
    (each : ∀ item ∈ items, TakesAt good budget (inner formatter type) (bytes item) item) :
    TakesAt good (budget + 1) (array lookup inner items.length type)
      (arrayHeader items.length ++ items.flatMap bytes) (.list items) := by
  rw [array]
  apply (takesAt_collection gives count filled each).andThen
  rw [if_pos rfl]
  exact .pure (Datum.list items)

/-- A dimension is read from the bytes of its number. -/
theorem takesAt_dimension {number : Nat} (bounded : number < 0x10000000000000000) :
    TakesAt good budget (lift (Read.size .usize) : Decode σ Int) (compactInteger number)
      number := by
  have contained : IntRange.usize.Contains number := by
    constructor
    · exact Int.natCast_nonneg _
    · exact Int.le_of_lt_add_one (Int.ofNat_lt.2 bounded)
  have takes := Scalar.takes_size contained
  rw [Value.encoding_ofInt (Int.le_trans (by decide) contained.1) (Int.ofNat_lt.2 bounded)] at takes
  exact .lift takes

/-- A two-dimensional array is read two levels deeper than its items. -/
theorem takesAt_grid {rows columns : Nat} (gives : lookup.Gives good type formatter)
    (whole : items.length = rows * columns) (count : items.length < 0x100000000)
    (row : rows < 0x10000000000000000) (column : columns < 0x10000000000000000)
    (filled : ∀ item ∈ items, bytes item ≠ [])
    (each : ∀ item ∈ items, TakesAt good budget (inner formatter type) (bytes item) item) :
    TakesAt good (budget + 2) (grid lookup inner type)
      (arrayHeader 3 ++ (compactInteger rows ++ (compactInteger columns ++
        (arrayHeader items.length ++ items.flatMap bytes))))
      (.grid rows columns items) := by
  have inside : TakesAt good (budget + 1) (do
        let rows ← lift (Read.size .usize)
        let columns ← lift (Read.size .usize)
        return (rows.toNat, columns.toNat, ← collection lookup inner type))
      (compactInteger rows ++ (compactInteger columns ++
        (arrayHeader items.length ++ items.flatMap bytes))) (rows, columns, items) := by
    have third := (takesAt_collection gives count filled each).mapped fun items =>
      (rows, columns, items)
    exact (takesAt_dimension row).bind ((takesAt_dimension column).bind third)
  have bounded : ¬0x10000000000000000 ≤ rows * columns := by
    omega
  have three : 3 ≤ (compactInteger rows ++ (compactInteger columns ++
      (arrayHeader items.length ++ items.flatMap bytes))).length := by
    have first := Value.length_compactInteger_pos rows
    have second := Value.length_compactInteger_pos columns
    have third : 0 < (arrayHeader items.length ++ items.flatMap bytes).length :=
      Value.length_header_pos (arrayHeader_gives count)
    rw [List.length_append, List.length_append]
    omega
  rw [grid]
  apply TakesAt.liftThen (Scalar.takesBefore_arrayOf _ (by decide) three)
  apply (TakesAt.nested inside).andThen
  simp only [Grid.ofItems, if_neg bounded, dif_pos whole]
  exact .pure (Datum.grid rows columns items)

/-- The entries of a map are read one level deeper. -/
theorem takesAt_entries {keyType valueType : Schema} {keys values : Formatter}
    {keyBytes valueBytes : Datum → Bytes} {entries : List (Datum × Datum)}
    (givesKeys : lookup.Gives good keyType keys) (givesValues : lookup.Gives good valueType values)
    (count : entries.length < 0x100000000)
    (filledKeys : ∀ entry ∈ entries, keyBytes entry.1 ≠ [])
    (filledValues : ∀ entry ∈ entries, valueBytes entry.2 ≠ [])
    (eachKey : ∀ entry ∈ entries,
      TakesAt good budget (inner keys keyType) (keyBytes entry.1) entry.1)
    (eachValue : ∀ entry ∈ entries,
      TakesAt good budget (inner values valueType) (valueBytes entry.2) entry.2) :
    TakesAt good (budget + 1) (Decode.entries lookup inner keyType valueType)
      (mapHeader entries.length ++
        entries.flatMap fun entry => keyBytes entry.1 ++ valueBytes entry.2) entries := by
  have enough : entries.length * 2 ≤
      (entries.flatMap fun entry => keyBytes entry.1 ++ valueBytes entry.2).length := by
    apply length_mul_le_flatMap
    intro entry member
    have key := List.length_pos_iff.2 (filledKeys entry member)
    have value := List.length_pos_iff.2 (filledValues entry member)
    rw [List.length_append]
    omega
  have each : ∀ entry ∈ entries, TakesAt good budget (do
        let key ← inner keys keyType
        return (key, ← inner values valueType))
      (keyBytes entry.1 ++ valueBytes entry.2) entry := fun entry member =>
    (eachKey entry member).bind ((eachValue entry member).mapped _)
  have read := TakesAt.times each
  rw [List.map_id'] at read
  rw [Decode.entries]
  apply TakesAt.liftThen (Read.takesBefore_mapHeader count enough)
  apply TakesAt.findThen givesKeys
  apply TakesAt.findThen givesValues
  exact .nested read

/-- Values of given types are read one after the other. -/
theorem takesAt_each {ι : Type} {places : List ι} {type : ι → Schema} {formatter : ι → Formatter}
    {bytes : ι → Bytes} {value : ι → Datum}
    (gives : ∀ place ∈ places, lookup.Gives good (type place) (formatter place))
    (each : ∀ place ∈ places,
      TakesAt good budget (inner (formatter place) (type place)) (bytes place) (value place)) :
    TakesAt good budget (Decode.each lookup inner (places.map type)) (places.flatMap bytes)
      (places.map value) := by
  induction places with
  | nil => exact .pure []
  | cons first places ih =>
      have others := ih (fun place member => gives place (List.mem_cons_of_mem first member))
        fun place member => each place (List.mem_cons_of_mem first member)
      have head : TakesAt good budget (found lookup inner (type first)) (bytes first)
          (value first) :=
        .findThen (gives first List.mem_cons_self) (each first List.mem_cons_self)
      exact head.bind (others.mapped _)

end Collections

/-! ## Budgets that are larger than need be -/

/-- Whether a read succeeds wherever another one does, in the same way. -/
def Follows (second first : Decode σ α) : Prop :=
  ∀ ⦃session result after⦄, first session = .ok result after → second session = .ok result after

theorem Follows.refl (read : Decode σ α) : Follows read read :=
  fun _ _ _ ok => ok

theorem Follows.bind {first second : Decode σ α} {next other : α → Decode σ β}
    (head : Follows second first)
    (tail : ∀ found, (∃ session after, first session = .ok found after) →
      Follows (other found) (next found)) :
    Follows (second >>= other) (first >>= next) := by
  intro session result after ok
  obtain ⟨found, between, before, rest⟩ := bind_eq_ok.1 ok
  exact bind_eq_ok.2 ⟨found, between, head before, tail found ⟨_, _, before⟩ rest⟩

theorem Follows.trans {first second third : Decode σ α} (after : Follows third second)
    (before : Follows second first) : Follows third first :=
  fun _ _ _ ok => after (before ok)

theorem Follows.nested {first second : Decode σ α} (inside : Follows second first) :
    Follows (nested second) (nested first) := by
  intro session result after ok
  obtain ⟨room, opened, kept, within, same⟩ := nested_eq_ok.1 ok
  exact nested_eq_ok.2 ⟨room, opened, kept, inside within, same⟩

/-- What leaves the inside to a read that follows another one follows, too. -/
theorem Delegates.follows {first second : Formatter → Schema → Decode σ Datum}
    (deeper : ∀ formatter type, lookup.GivesOut formatter →
      Follows (second formatter type) (first formatter type))
    {place : Place} {read : (Formatter → Schema → Decode σ Datum) → Decode σ α}
    (delegates : Delegates lookup place read) : Follows (read second) (read first) := by
  induction delegates with
  | pure | throw | lift | skip | value | supplied | note => exact .refl _
  | bind _ _ head tail => exact Follows.bind head fun found _ => tail found
  | findThen _ each =>
      apply (Follows.refl _).bind
      rintro formatter ⟨session, after, found⟩
      exact each formatter (givesOut_of_find found)
  | namesThen _ each =>
      apply (Follows.refl _).bind
      rintro known ⟨session, after, ok⟩
      exact each known (keeps_of_names ok)
  | inner given type => exact deeper _ type given
  | headThen _ _ _ tail => exact (Follows.refl _).bind fun found _ => tail found
  | nested _ inside => exact inside.nested
  | request _ =>
      apply Follows.nested
      apply (Follows.refl _).bind
      rintro formatter ⟨session, after, found⟩
      exact deeper formatter _ (givesOut_of_find found)

/-- What succeeds with a budget succeeds with a larger one. -/
theorem follows_within {formatter : Formatter} (given : lookup.GivesOut formatter) (type : Schema)
    (budget : Nat) :
    Follows (within lookup catalog (budget + 1) formatter type)
      (within lookup catalog budget formatter type) := by
  have delegates {formatter : Formatter} (given : lookup.GivesOut formatter) (type : Schema) :
      Delegates lookup .outside (layer lookup catalog formatter type) :=
    delegates_layer given type
  induction budget generalizing formatter type with
  | zero =>
      apply (delegates given type).follows
      intro _ _ _ session result after ok
      cases ok
  | succ budget ih => exact (delegates given type).follows fun _ type given => ih given type

end MsgPack.Decode
