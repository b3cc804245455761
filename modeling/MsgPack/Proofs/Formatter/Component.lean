import MsgPack.Formatter.Codec
import MsgPack.Proofs.Formatter.Appends
import MsgPack.Proofs.Formatter.Canonical
import MsgPack.Proofs.Formatter.Resolver
import MsgPack.Proofs.Formatter.TakesAt

/-!
# Containers of any components

A component is a type with a formatter that the lookup gives for it and that reads back what it
writes.  Nothing is known of its bytes but that every value takes up some.  The formatter that a
container of components brings itself reads back what it writes, too, one or two levels deeper
than its components or, for a wrapper, as deep.
-/

namespace MsgPack

/-! ## Components -/

/-- A type whose values come back with the formatter that the lookup gives for it.  Each is
written as some bytes, after whatever was written before, and these are read as the value again,
whatever follows them.  All this is for memories of the lookup that are good, and keeps them
so. -/
structure Component {σ : Type} (lookup : Lookup σ) (catalog : Catalog) (good : σ → Prop) where
  type : Schema
  formatter : Formatter
  /-- The values of the type. -/
  Holds : Datum → Prop
  bytes : Datum → Bytes
  /-- How many structures have to be opened to read a value. -/
  levels : Datum → Nat
  given : lookup.Gives good type formatter
  filled : ∀ {content}, Holds content → bytes content ≠ []
  writes : ∀ {content}, Holds content →
    Encode.Appends good (Encode.datum lookup catalog content formatter type) (bytes content) True
  reads : ∀ {content}, Holds content →
    Decode.Takes good (levels content) (Decode.datum lookup catalog formatter type)
      (bytes content) content

variable {σ : Type} {lookup : Lookup σ} {catalog : Catalog} {good : σ → Prop}

/-- The largest of some numbers of levels. -/
def highest (levels : List Nat) : Nat :=
  levels.foldr max 0

theorem le_highest {levels : List Nat} {level : Nat} (member : level ∈ levels) :
    level ≤ highest levels := by
  induction levels with
  | nil => cases member
  | cons first levels ih =>
      rcases List.mem_cons.1 member with rfl | later
      · exact Nat.le_max_left level _
      · exact Nat.le_trans (ih later) (Nat.le_max_right first _)

/-! ## Containers -/

/-- A container of components.  A tuple has one to eight of them; a value that may be missing has
to be written otherwise than nil. -/
inductive Container {σ : Type} (lookup : Lookup σ) (catalog : Catalog) (good : σ → Prop) where
  | sequence (kind : SequenceKind) (item : Component lookup catalog good)
  | array (length : Nat) (item : Component lookup catalog good)
  | grid (item : Component lookup catalog good)
  | map (kind : MapKind) (key value : Component lookup catalog good)
  | tuple (items : List (Component lookup catalog good))
      (arity : 1 ≤ items.length ∧ items.length ≤ 8)
  | boxed (item : Component lookup catalog good)
  | shared (item : Component lookup catalog good)
  | option (item : Component lookup catalog good)
      (present : ∀ {content}, item.Holds content →
        (item.bytes content).head? ≠ some Format.nil.code)

namespace Container

/-- The type of a container. -/
def type : Container lookup catalog good → Schema
  | sequence kind item => .sequence kind item.type
  | array length item => .array length item.type
  | grid item => .grid item.type
  | map kind key value => .map kind key.type value.type
  | tuple items _ => .tuple (items.map Component.type)
  | boxed item => .boxed item.type
  | shared item => .shared item.type
  | option item _ => .option item.type

/-- How many structures a container opens around its parts. -/
def opened : Container lookup catalog good → Nat
  | sequence .. | array .. | map .. | tuple .. => 1
  | grid _ => 2
  | boxed _ | shared _ | option .. => 0

/-- The values of a container: values of its components, as many as 32 bits can count, and the
items of a set and the keys of a map as it keeps them. -/
inductive Holds : Container lookup catalog good → Datum → Prop where
  | sequence {kind : SequenceKind} {item : Component lookup catalog good} {contents : List Datum}
      (count : contents.length < 0x100000000)
      (admitted : kind.Admits (catalog.sortKey item.type) contents)
      (each : ∀ content ∈ contents, item.Holds content) :
      Holds (.sequence kind item) (.list contents)
  | array {item : Component lookup catalog good} {contents : List Datum}
      (count : contents.length < 0x100000000) (each : ∀ content ∈ contents, item.Holds content) :
      Holds (.array contents.length item) (.list contents)
  | grid {item : Component lookup catalog good} {rows columns : Nat} {contents : List Datum}
      (whole : contents.length = rows * columns) (count : contents.length < 0x100000000)
      (row : rows < 0x10000000000000000) (column : columns < 0x10000000000000000)
      (each : ∀ content ∈ contents, item.Holds content) :
      Holds (.grid item) (.grid rows columns contents)
  | map {kind : MapKind} {key value : Component lookup catalog good}
      {entries : List (Datum × Datum)} (count : entries.length < 0x100000000)
      (admitted : kind.Admits (catalog.sortKey key.type) (entries.map Prod.fst))
      (keys : ∀ entry ∈ entries, key.Holds entry.1)
      (values : ∀ entry ∈ entries, value.Holds entry.2) : Holds (.map kind key value) (.map entries)
  | tuple {items : List (Component lookup catalog good)}
      {arity : 1 ≤ items.length ∧ items.length ≤ 8} {contents : List Datum}
      (whole : contents.length = items.length)
      (each : ∀ part ∈ items.zip contents, part.1.Holds part.2) :
      Holds (.tuple items arity) (.list contents)
  | boxed {item : Component lookup catalog good} {content : Datum} (inside : item.Holds content) :
      Holds (.boxed item) content
  | shared {item : Component lookup catalog good} {content : Datum} (inside : item.Holds content) :
      Holds (.shared item) content
  | none {item : Component lookup catalog good}
      {present : ∀ {content}, item.Holds content →
        (item.bytes content).head? ≠ some Format.nil.code} : Holds (.option item present) .none
  | some {item : Component lookup catalog good}
      {present : ∀ {content}, item.Holds content →
        (item.bytes content).head? ≠ some Format.nil.code} {content : Datum}
      (inside : item.Holds content) : Holds (.option item present) (.some content)

/-- The bytes of a value of a container. -/
def bytes : Container lookup catalog good → Datum → Bytes
  | sequence kind item, .list contents =>
      arrayHeader contents.length ++ (kind.elements contents).flatMap item.bytes
  | array _ item, .list contents => arrayHeader contents.length ++ contents.flatMap item.bytes
  | grid item, .grid rows columns contents =>
      arrayHeader 3 ++ (compactInteger rows ++ (compactInteger columns ++
        (arrayHeader contents.length ++ contents.flatMap item.bytes)))
  | map _ key value, .map entries =>
      mapHeader entries.length ++ entries.flatMap fun entry =>
        key.bytes entry.1 ++ value.bytes entry.2
  | tuple items _, .list contents =>
      arrayHeader contents.length ++ (items.zip contents).flatMap fun part => part.1.bytes part.2
  | boxed item, content | shared item, content | option item _, .some content => item.bytes content
  | option _ _, .none => [Format.nil.code]
  | _, _ => []

/-- How many structures have to be opened to read the values of the components in a value of a
container. -/
def deepest : Container lookup catalog good → Datum → Nat
  | sequence _ item, .list contents | array _ item, .list contents
  | grid item, .grid _ _ contents => highest (contents.map item.levels)
  | map _ key value, .map entries =>
      highest (entries.map fun entry => max (key.levels entry.1) (value.levels entry.2))
  | tuple items _, .list contents =>
      highest ((items.zip contents).map fun part => part.1.levels part.2)
  | boxed item, content | shared item, content | option item _, .some content => item.levels content
  | _, _ => 0

end Container

/-! ## Writing -/

namespace Encode

open Session

variable {formatter : Formatter} {type : Schema} {bytes : Datum → Bytes}

/-- Items append their bytes one after the other. -/
theorem appends_list {contents : List Datum}
    (each : ∀ content ∈ contents,
      Appends good (datum lookup catalog content formatter type) (bytes content) True) :
    Appends good (items lookup catalog contents formatter type) (contents.flatMap bytes) True := by
  induction contents with
  | nil => exact .pure
  | cons first contents ih =>
      have others := ih fun content member => each content (List.mem_cons_of_mem first member)
      exact ((each first List.mem_cons_self).bind fun _ => others).congr (and_self_iff)

theorem appends_pairs {keys values : Formatter} {keyType valueType : Schema}
    {keyBytes valueBytes : Datum → Bytes} {pairs : List (Datum × Datum)}
    (eachKey : ∀ entry ∈ pairs,
      Appends good (datum lookup catalog entry.1 keys keyType) (keyBytes entry.1) True)
    (eachValue : ∀ entry ∈ pairs,
      Appends good (datum lookup catalog entry.2 values valueType) (valueBytes entry.2) True) :
    Appends good (entries lookup catalog pairs keys keyType values valueType)
      (pairs.flatMap fun entry => keyBytes entry.1 ++ valueBytes entry.2) True := by
  induction pairs with
  | nil => exact .pure
  | cons first pairs ih =>
      have others := ih (fun entry member => eachKey entry (List.mem_cons_of_mem first member))
        fun entry member => eachValue entry (List.mem_cons_of_mem first member)
      have value := (eachValue first List.mem_cons_self).bind fun _ => others
      have both := (eachKey first List.mem_cons_self).bind fun _ => value
      rw [← List.append_assoc] at both
      exact both.congr (by simp)

/-- Values of given types append their bytes one after the other. -/
theorem appends_tuple {ι : Type} {places : List ι} {type : ι → Schema} {formatter : ι → Formatter}
    {bytes : ι → Bytes} {value : ι → Datum}
    (gives : ∀ place ∈ places, lookup.Gives good (type place) (formatter place))
    (each : ∀ place ∈ places,
      Appends good (datum lookup catalog (value place) (formatter place) (type place))
        (bytes place) True) :
    Appends good (tuple lookup catalog (places.map value) (places.map type))
      (places.flatMap bytes) True := by
  induction places with
  | nil => exact .pure
  | cons first places ih =>
      have others := ih (fun place member => gives place (List.mem_cons_of_mem first member))
        fun place member => each place (List.mem_cons_of_mem first member)
      have both := (each first List.mem_cons_self).bind fun _ => others
      exact (Appends.findThen (gives first List.mem_cons_self) both).congr (and_self_iff)

/-- The header of an array, if its count has at most 32 bits. -/
theorem appends_arrayHeader {count : Nat} (bounded : count < 0x100000000) :
    Appends good (lift (Write.arrayHeader count)) (arrayHeader count) True :=
  (Appends.header _ _ _).congr (iff_of_true bounded trivial)

section Collections

variable {contents : List Datum} (gives : lookup.Gives good type formatter)
variable (count : contents.length < 0x100000000)
variable (each : ∀ content ∈ contents,
  Appends good (datum lookup catalog content formatter type) (bytes content) True)

include gives count each

theorem appends_collection :
    Appends good
      (do
        let formatter ← find lookup type
        lift (Write.arrayHeader contents.length)
        items lookup catalog contents formatter type)
      (arrayHeader contents.length ++ contents.flatMap bytes) True := by
  apply Appends.findThen gives
  exact ((appends_arrayHeader count).bind fun _ => appends_list each).congr and_self_iff

theorem appends_sequence (kind : SequenceKind) :
    Appends good (datum lookup catalog (.list contents) .builtin (.sequence kind type))
      (arrayHeader contents.length ++ (kind.elements contents).flatMap bytes) True := by
  have counted := SequenceKind.length_elements kind contents
  rw [datum_sequence, ← counted]
  exact appends_collection gives (counted.symm ▸ count) fun content member =>
    each content (SequenceKind.mem_elements.1 member)

theorem appends_fixed (length : Nat) :
    Appends good (datum lookup catalog (.list contents) .builtin (.array length type))
      (arrayHeader contents.length ++ contents.flatMap bytes) True :=
  appends_collection gives count each

/-- The dimensions of a grid come before its items. -/
theorem appends_cells (rows columns : Nat) :
    Appends good (datum lookup catalog (.grid rows columns contents) .builtin (.grid type))
      (arrayHeader 3 ++ (compactInteger rows ++ (compactInteger columns ++
        (arrayHeader contents.length ++ contents.flatMap bytes)))) True := by
  have items := (appends_arrayHeader count).bind fun _ => appends_list each
  have dimensions := (Appends.emit (compactInteger rows)).bind fun _ =>
    (Appends.emit (compactInteger columns)).bind fun _ => items
  have three : 3 < 0x100000000 := by decide
  have whole := (appends_arrayHeader three).bind fun _ => dimensions
  exact Appends.findThen gives (whole.congr (by simp only [and_self]))

end Collections

theorem appends_keyed {keys values : Formatter} {keyType valueType : Schema}
    {keyBytes valueBytes : Datum → Bytes} {pairs : List (Datum × Datum)}
    (givesKeys : lookup.Gives good keyType keys) (givesValues : lookup.Gives good valueType values)
    (count : pairs.length < 0x100000000)
    (eachKey : ∀ entry ∈ pairs,
      Appends good (datum lookup catalog entry.1 keys keyType) (keyBytes entry.1) True)
    (eachValue : ∀ entry ∈ pairs,
      Appends good (datum lookup catalog entry.2 values valueType) (valueBytes entry.2) True)
    (kind : MapKind) :
    Appends good (datum lookup catalog (.map pairs) .builtin (.map kind keyType valueType))
      (mapHeader pairs.length ++ pairs.flatMap fun entry =>
        keyBytes entry.1 ++ valueBytes entry.2) True := by
  have header : Appends good (lift (Write.mapHeader pairs.length)) (mapHeader pairs.length) True :=
    (Appends.header _ _ _).congr (iff_of_true count trivial)
  have whole := header.bind fun _ => appends_pairs eachKey eachValue
  exact Appends.findThen givesKeys (Appends.findThen givesValues (whole.congr and_self_iff))

/-- The values of a tuple, each with a type of its own. -/
theorem appends_placed {ι : Type} {places : List ι} {type : ι → Schema}
    {formatter : ι → Formatter} {bytes : ι → Bytes} {value : ι → Datum}
    (gives : ∀ place ∈ places, lookup.Gives good (type place) (formatter place))
    (count : places.length < 0x100000000)
    (each : ∀ place ∈ places,
      Appends good (datum lookup catalog (value place) (formatter place) (type place))
        (bytes place) True) :
    Appends good
      (datum lookup catalog (.list (places.map value)) .builtin (.tuple (places.map type)))
      (arrayHeader places.length ++ places.flatMap bytes) True := by
  have header : Appends good (lift (Write.arrayHeader (places.map type).length))
      (arrayHeader places.length) True := by
    rw [List.length_map]
    exact appends_arrayHeader count
  exact (header.bind fun _ => appends_tuple gives each).congr and_self_iff

end Encode

/-! ## Reading -/

namespace Decode

open Session

variable {formatter : Formatter} {type : Schema} {bytes : Datum → Bytes} {levels budget : Nat}

/-- Where the budget is what the reader has left, it need not be told. -/
theorem takesAt_within {encoding : Bytes} {content : Datum} :
    TakesAt good budget (within lookup catalog budget formatter type) encoding content ↔
      TakesAt good budget (datum lookup catalog formatter type) encoding content := by
  constructor
  · rintro takes reader rest memory isGood unread rfl
    exact takes reader rest memory isGood unread rfl
  · rintro takes reader rest memory isGood unread rfl
    exact takes reader rest memory isGood unread rfl

theorem Takes.within {encoding : Bytes} {content : Datum}
    (takes : Takes good levels (datum lookup catalog formatter type) encoding content)
    (room : levels ≤ budget) :
    TakesAt good budget (within lookup catalog budget formatter type) encoding content :=
  takesAt_within.2 (takes.at room)

theorem takes_of_within {encoding : Bytes} {content : Datum}
    (each : ∀ budget, levels ≤ budget →
      TakesAt good budget (within lookup catalog budget formatter type) encoding content) :
    Takes good levels (datum lookup catalog formatter type) encoding content :=
  takes_iff_takesAt.2 fun budget room => takesAt_within.1 (each budget room)

/-- What opens a structure needs a level more than what it reads inside. -/
theorem takes_of_deeper {encoding : Bytes} {content : Datum}
    (each : ∀ budget, levels ≤ budget →
      TakesAt good (budget + 1) (shaped lookup catalog (Decode.within lookup catalog budget) type)
        encoding content) :
    Takes good (levels + 1) (datum lookup catalog .builtin type) encoding content := by
  apply takes_of_within
  intro budget room
  obtain ⟨below, rfl⟩ := Nat.exists_eq_add_of_le' room
  exact each (below + levels) (Nat.le_add_left levels below)

/-- A budget that is larger than what is left does no harm. -/
theorem takesAt_within_succ {encoding : Bytes} {content : Datum}
    (gives : lookup.Gives good type formatter)
    (takes : TakesAt good budget (within lookup catalog budget formatter type) encoding content) :
    TakesAt good budget (within lookup catalog (budget + 1) formatter type) encoding content := by
  intro reader rest memory isGood unread room
  obtain ⟨after, kept, ok, passed, still⟩ := takes reader rest memory isGood unread room
  have given : lookup.GivesOut formatter := ⟨type, memory, (gives memory isGood).1⟩
  exact ⟨after, kept, follows_within given type budget ok, passed, still⟩

section Collections

variable {contents : List Datum} (gives : lookup.Gives good type formatter)
variable (count : contents.length < 0x100000000)
variable (filled : ∀ content ∈ contents, bytes content ≠ [])
variable (each : ∀ content ∈ contents,
  Takes good levels (datum lookup catalog formatter type) (bytes content) content)

include gives count filled each

theorem takes_sequence {kind : SequenceKind}
    (admitted : kind.Admits (catalog.sortKey type) contents) :
    Takes good (levels + 1) (datum lookup catalog .builtin (.sequence kind type))
      (arrayHeader contents.length ++ (kind.elements contents).flatMap bytes)
      (.list contents) := by
  apply takes_of_deeper
  intro budget room
  have counted := SequenceKind.length_elements kind contents
  have items := takesAt_collection gives (counted.symm ▸ count)
    (fun content member => filled content (SequenceKind.mem_elements.1 member))
    fun content member => (each content (SequenceKind.mem_elements.1 member)).within room
  have whole := items.mapped fun items => Datum.list (kind.build (catalog.sortKey type) items)
  rw [admitted.build_elements, counted] at whole
  exact whole

theorem takes_fixed :
    Takes good (levels + 1) (datum lookup catalog .builtin (.array contents.length type))
      (arrayHeader contents.length ++ contents.flatMap bytes) (.list contents) := by
  apply takes_of_deeper
  intro budget room
  exact takesAt_array gives count filled fun content member => (each content member).within room

theorem takes_cells {rows columns : Nat} (whole : contents.length = rows * columns)
    (row : rows < 0x10000000000000000) (column : columns < 0x10000000000000000) :
    Takes good (levels + 2) (datum lookup catalog .builtin (.grid type))
      (arrayHeader 3 ++ (compactInteger rows ++ (compactInteger columns ++
        (arrayHeader contents.length ++ contents.flatMap bytes))))
      (.grid rows columns contents) := by
  apply takes_of_deeper
  intro budget room
  obtain ⟨below, rfl⟩ := Nat.exists_eq_add_of_le' room
  apply takesAt_grid gives whole count row column filled
  intro content member
  exact takesAt_within_succ gives ((each content member).within (Nat.le_add_left levels below))

end Collections

theorem takes_keyed {keys values : Formatter} {keyType valueType : Schema}
    {keyBytes valueBytes : Datum → Bytes} {pairs : List (Datum × Datum)}
    (givesKeys : lookup.Gives good keyType keys) (givesValues : lookup.Gives good valueType values)
    (count : pairs.length < 0x100000000)
    (filledKeys : ∀ entry ∈ pairs, keyBytes entry.1 ≠ [])
    (filledValues : ∀ entry ∈ pairs, valueBytes entry.2 ≠ [])
    (eachKey : ∀ entry ∈ pairs,
      Takes good levels (datum lookup catalog keys keyType) (keyBytes entry.1) entry.1)
    (eachValue : ∀ entry ∈ pairs,
      Takes good levels (datum lookup catalog values valueType) (valueBytes entry.2) entry.2)
    {kind : MapKind} (admitted : kind.Admits (catalog.sortKey keyType) (pairs.map Prod.fst)) :
    Takes good (levels + 1) (datum lookup catalog .builtin (.map kind keyType valueType))
      (mapHeader pairs.length ++ pairs.flatMap fun entry =>
        keyBytes entry.1 ++ valueBytes entry.2) (.map pairs) := by
  apply takes_of_deeper
  intro budget room
  have entries := takesAt_entries givesKeys givesValues count filledKeys filledValues
    (fun entry member => (eachKey entry member).within room)
    fun entry member => (eachValue entry member).within room
  have whole := entries.mapped fun entries =>
    Datum.map (Keyed.ofEntries (catalog.sortKey keyType) kind entries)
  rw [admitted.ofEntries_eq] at whole
  exact whole

theorem takes_placed {ι : Type} {places : List ι} {type : ι → Schema}
    {formatter : ι → Formatter} {bytes : ι → Bytes} {value : ι → Datum}
    (gives : ∀ place ∈ places, lookup.Gives good (type place) (formatter place))
    (count : places.length < 0x100000000) (filled : ∀ place ∈ places, bytes place ≠ [])
    (each : ∀ place ∈ places,
      Takes good levels (datum lookup catalog (formatter place) (type place)) (bytes place)
        (value place)) :
    Takes good (levels + 1) (datum lookup catalog .builtin (.tuple (places.map type)))
      (arrayHeader places.length ++ places.flatMap bytes) (.list (places.map value)) := by
  apply takes_of_deeper
  intro budget room
  have items := takesAt_each gives fun place member => (each place member).within room
  have header := Scalar.takesBefore_arrayOf (Schema.tuple (places.map type)).typeName count
    (length_le_flatMap filled)
  rw [shaped, List.length_map]
  exact .liftThen header (items.nested.mapped Datum.list)

/-! ## Wrappers -/

theorem within_boxed (budget : Nat) :
    within lookup catalog budget .builtin (.boxed type) =
      find lookup type >>= fun formatter => within lookup catalog budget formatter type := by
  cases budget <;> rfl

theorem within_shared (budget : Nat) :
    within lookup catalog budget .builtin (.shared type) =
      find lookup type >>= fun formatter => within lookup catalog budget formatter type := by
  cases budget <;> rfl

theorem within_option (budget : Nat) :
    within lookup catalog budget .builtin (.option type) = (do
      if ← lift Read.tryNil then return .none
      else
        let formatter ← find lookup type
        return .some (← within lookup catalog budget formatter type)) := by
  cases budget <;> rfl

section Wrappers

variable {encoding : Bytes} {content : Datum}

theorem takes_none :
    Takes good levels (datum lookup catalog .builtin (.option type)) [Format.nil.code] .none := by
  apply takes_of_within
  intro budget room
  rw [within_option]
  exact (TakesAt.lift Read.takes_tryNil).andThen (.pure Datum.none)

variable (gives : lookup.Gives good type formatter)
variable (takes : Takes good levels (datum lookup catalog formatter type) encoding content)

include gives takes

theorem takes_boxed :
    Takes good levels (datum lookup catalog .builtin (.boxed type)) encoding content := by
  apply takes_of_within
  intro budget room
  rw [within_boxed]
  exact .findThen gives (takes.within room)

theorem takes_shared :
    Takes good levels (datum lookup catalog .builtin (.shared type)) encoding content := by
  apply takes_of_within
  intro budget room
  rw [within_shared]
  exact .findThen gives (takes.within room)

/-- A value that may be missing is not taken for nil if it does not start as nil does. -/
theorem takes_some (filled : encoding ≠ []) (present : encoding.head? ≠ some Format.nil.code) :
    Takes good levels (datum lookup catalog .builtin (.option type)) encoding (.some content) := by
  obtain ⟨code, following, rfl⟩ := List.exists_cons_of_ne_nil filled
  have other : Format.ofCode code ≠ .nil := by
    intro same
    have owned := Format.code_ofCode code (by rw [same]; decide)
    rw [same] at owned
    exact present (congrArg some owned.symm)
  apply takes_of_within
  intro budget room
  rw [within_option]
  apply TakesAt.liftThen (Read.takesBefore_tryNil other)
  exact .findThen gives ((takes.within room).mapped Datum.some)

end Wrappers

end Decode

/-! ## There and back -/

namespace Container

variable {container : Container lookup catalog good} {content : Datum}

/-- The values of a tuple, each with its component. -/
theorem map_zip {items : List (Component lookup catalog good)} {contents : List Datum}
    (whole : contents.length = items.length) :
    (items.zip contents).map Prod.snd = contents ∧
      (items.zip contents).map (fun part => part.1.type) = items.map Component.type := by
  constructor
  · exact List.map_snd_zip (Nat.le_of_eq whole)
  · rw [← Function.comp_def Component.type Prod.fst, ← List.map_map,
      List.map_fst_zip (Nat.le_of_eq whole.symm)]

/-- Every value takes up some bytes. -/
theorem Holds.filled (held : container.Holds content) : container.bytes content ≠ [] := by
  cases held with
  | sequence count | array count =>
      exact List.length_pos_iff.1 (Value.length_header_pos (arrayHeader_gives count))
  | grid => exact List.length_pos_iff.1 (Value.length_header_pos (arrayHeader_gives (by decide)))
  | map count => exact List.length_pos_iff.1 (Value.length_header_pos (mapHeader_gives count))
  | @tuple items arity contents whole each =>
      have count : contents.length < 0x100000000 := by
        omega
      exact List.length_pos_iff.1 (Value.length_header_pos (arrayHeader_gives count))
  | @boxed item content inside => exact item.filled inside
  | @shared item content inside => exact item.filled inside
  | none => exact List.cons_ne_nil _ _
  | @some item _ content inside => exact item.filled inside

/-- A container writes a value as its bytes. -/
theorem Holds.appends (held : container.Holds content) :
    Encode.Appends good (Encode.datum lookup catalog content .builtin container.type)
      (container.bytes content) True := by
  cases held with
  | @sequence kind item contents count admitted each =>
      exact Encode.appends_sequence item.given count
        (fun content member => item.writes (each content member)) kind
  | @array item contents count each =>
      exact Encode.appends_fixed item.given count
        (fun content member => item.writes (each content member)) contents.length
  | @grid item rows columns contents whole count row column each =>
      exact Encode.appends_cells item.given count
        (fun content member => item.writes (each content member)) rows columns
  | @map kind key value entries count admitted keys values =>
      exact Encode.appends_keyed key.given value.given count
        (fun entry member => key.writes (keys entry member))
        (fun entry member => value.writes (values entry member)) kind
  | @tuple items arity contents whole each =>
      have count : (items.zip contents).length = contents.length := by
        rw [List.length_zip, ← whole, Nat.min_self]
      have placed := Encode.appends_placed
        (fun (part : Component lookup catalog good × Datum) _ => part.1.given) (by omega)
        fun part member => part.1.writes (each part member)
      rw [(map_zip whole).1, (map_zip whole).2, count] at placed
      exact placed
  | @boxed item content inside =>
      rw [type, Encode.datum_boxed]
      exact .findThen item.given (item.writes inside)
  | @shared item content inside =>
      rw [type, Encode.datum_shared]
      exact .findThen item.given (item.writes inside)
  | none => exact .emit _
  | @some item _ content inside =>
      have writes := item.writes inside
      exact .findThen item.given writes

/-- A container reads a value from its bytes. -/
theorem Holds.takes (held : container.Holds content) :
    Decode.Takes good (container.deepest content + container.opened)
      (Decode.datum lookup catalog .builtin container.type) (container.bytes content) content := by
  cases held with
  | @sequence kind item contents count admitted each =>
      exact Decode.takes_sequence item.given count
        (fun content member => item.filled (each content member))
        (fun content member => (item.reads (each content member)).mono
          (le_highest (List.mem_map_of_mem member))) admitted
  | @array item contents count each =>
      exact Decode.takes_fixed item.given count
        (fun content member => item.filled (each content member))
        fun content member => (item.reads (each content member)).mono
          (le_highest (List.mem_map_of_mem member))
  | @grid item rows columns contents whole count row column each =>
      exact Decode.takes_cells item.given count
        (fun content member => item.filled (each content member))
        (fun content member => (item.reads (each content member)).mono
          (le_highest (List.mem_map_of_mem member))) whole row column
  | @map kind key value entries count admitted keys values =>
      have enough {entry : Datum × Datum} (member : entry ∈ entries) :=
        le_highest (List.mem_map_of_mem (f := fun entry : Datum × Datum =>
          max (key.levels entry.1) (value.levels entry.2)) member)
      exact Decode.takes_keyed key.given value.given count
        (fun entry member => key.filled (keys entry member))
        (fun entry member => value.filled (values entry member))
        (fun entry member => (key.reads (keys entry member)).mono
          (Nat.le_trans (Nat.le_max_left _ _) (enough member)))
        (fun entry member => (value.reads (values entry member)).mono
          (Nat.le_trans (Nat.le_max_right _ _) (enough member))) admitted
  | @tuple items arity contents whole each =>
      have count : (items.zip contents).length = contents.length := by
        rw [List.length_zip, ← whole, Nat.min_self]
      have placed := Decode.takes_placed
        (fun (part : Component lookup catalog good × Datum) _ => part.1.given) (by omega)
        (fun part member => part.1.filled (each part member))
        fun part member => (part.1.reads (each part member)).mono
          (le_highest (List.mem_map_of_mem member))
      rw [(map_zip whole).1, (map_zip whole).2, count] at placed
      exact placed
  | @boxed item content inside => exact Decode.takes_boxed item.given (item.reads inside)
  | @shared item content inside => exact Decode.takes_shared item.given (item.reads inside)
  | none => exact Decode.takes_none
  | @some item present content inside =>
      exact Decode.takes_some item.given (item.reads inside) (item.filled inside) (present inside)

/-- A container that the lookup gives its own formatter for is a component of others. -/
def component (container : Container lookup catalog good)
    (given : lookup.Gives good container.type .builtin) : Component lookup catalog good where
  type := container.type
  formatter := .builtin
  Holds := container.Holds
  bytes := container.bytes
  levels content := container.deepest content + container.opened
  given := given
  filled := Holds.filled
  writes := Holds.appends
  reads := Holds.takes

/-- A container of components reads back what it writes.  Each of its values is written as some
bytes, after whatever was written before, and these are read as the value again, whatever follows
them, by a reader that may open as many structures as the components need and those of the
container. -/
theorem comesBack_of_components (held : container.Holds content) :
    container.bytes content ≠ [] ∧
      Encode.Appends good (Encode.datum lookup catalog content .builtin container.type)
        (container.bytes content) True ∧
      Decode.Takes good (container.deepest content + container.opened)
        (Decode.datum lookup catalog .builtin container.type) (container.bytes content) content :=
  ⟨held.filled, held.appends, held.takes⟩

end Container

/-! ## Numbers of full width -/

/-- A registry in front of a builtin place. -/
def Resolver.overridden : Resolver :=
  .standard [.registry "forced" 0] 0

/-- A store whose registry has the codec that writes two bytes for every number of eight bits. -/
def Store.forced : Store :=
  Store.empty.addRegistry.2.register 0 (.scalar (.int .u8)) (.codec (.forced .u8))

/-- Whether a store shows what this one does. -/
def Store.Forces (store : Store) : Prop :=
  store.view .empty = Store.forced.view .empty

/-- Numbers of eight bits with this codec. -/
def Component.forced : Component (Resolver.lookup .empty .overridden) .empty Store.Forces where
  type := .scalar (.int .u8)
  formatter := .codec (.forced .u8)
  Holds content := ∃ number, IntRange.u8.Contains number ∧ content = .atom (.int number)
  bytes
    | .atom (.int number) => (IntegerForm.unsigned .one).encode number
    | _ => []
  levels _ := 0
  given := Resolver.gives_of_find .empty _ rfl
  filled := by
    rintro _ ⟨number, contained, rfl⟩
    exact List.cons_ne_nil _ _
  writes := by
    rintro _ ⟨number, contained, rfl⟩
    exact .emit _
  reads := by
    rintro _ ⟨number, contained, rfl⟩
    have held : (IntegerForm.unsigned .one).Holds number :=
      ⟨contained.1, Int.lt_of_le_of_lt contained.2 (by decide)⟩
    have read := ((Read.takes_intAs contained held).mapped Atom.int).mapped Datum.atom
    apply Decode.takes_of_within
    intro budget _
    cases budget <;> exact .lift read

/-- Lists of such numbers, with the formatter that they bring themselves. -/
def Component.forcedList : Component (Resolver.lookup .empty .overridden) .empty Store.Forces :=
  (Container.sequence .list .forced).component (Resolver.gives_of_find .empty _ rfl)

/-- Two numbers in a list in a list are written with full width and read back, by a reader that may
open two structures, and the store keeps the codec. -/
theorem Container.comesBack_forced :
    let reader := Reader.ofCursor (.ofBytes [0x91, 0x92, 0xcc, 0x05, 0xcc, 0xc8, 0xc0]) 2
    ∃ after kept, Decode.datum (Resolver.lookup .empty .overridden) .empty .builtin
        (.sequence .list (.sequence .list (.scalar (.int .u8)))) ⟨reader, Store.forced⟩ =
          .ok (.list [.list [.atom (.int 5), .atom (.int 200)]]) ⟨after, kept⟩ ∧
        after.cursor.unread = [0xc0] ∧ kept.Forces := by
  have inner : Component.forcedList.Holds (.list [.atom (.int 5), .atom (.int 200)]) := by
    refine .sequence (by decide) trivial fun content member => ?_
    rcases List.mem_cons.1 member with rfl | member
    · exact ⟨5, by decide, rfl⟩
    · exact ⟨200, by decide, List.mem_singleton.1 member⟩
  have held : (Container.sequence .list Component.forcedList).Holds
      (.list [.list [.atom (.int 5), .atom (.int 200)]]) := by
    refine .sequence (by decide) trivial fun content member => ?_
    rw [List.mem_singleton.1 member]
    exact inner
  obtain ⟨after, kept, ok, passed, forces⟩ := (Container.comesBack_of_components held).2.2
    (.ofCursor (.ofBytes [0x91, 0x92, 0xcc, 0x05, 0xcc, 0xc8, 0xc0]) 2) [0xc0] Store.forced rfl rfl
    (Nat.le_refl 2)
  exact ⟨after, kept, ok, passed.unread_eq rfl, forces⟩

end MsgPack
