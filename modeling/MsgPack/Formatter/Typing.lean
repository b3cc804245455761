import MsgPack.Formatter.Basic

/-!
# The data of a type

Which data are values of a type, said without writing or reading them.  A datum of a scalar
type has to lie in the range of the type; sets and maps have no item or key twice, and where
they stand in the order of their keys, they do; the fields of a record and of a variant are
those of its definition.
-/

namespace MsgPack

/-! ## Scalar types -/

/-- Whether a year has a leap day. -/
def Date.IsLeap (year : Int) : Prop :=
  year % 4 = 0 ∧ (year % 100 ≠ 0 ∨ year % 400 = 0)

instance (year : Int) : Decidable (Date.IsLeap year) :=
  inferInstanceAs (Decidable (_ ∧ _))

/-- How many days a month has. -/
def Date.daysInMonth (year : Int) (month : Nat) : Nat :=
  if month = 2 then if IsLeap year then 29 else 28
  else if month = 4 ∨ month = 6 ∨ month = 9 ∨ month = 11 then 30
  else 31

/-- Whether a date is one of the calendar, in one of the years that dates may have. -/
def Date.Valid (date : Date) : Prop :=
  minYear ≤ date.year ∧ date.year ≤ maxYear ∧ 1 ≤ date.month ∧ date.month ≤ 12
    ∧ 1 ≤ date.day ∧ date.day ≤ daysInMonth date.year date.month

/-- Whether a time of day is one of the clock; a leap second is the last of its minute. -/
def ClockTime.Valid (clock : ClockTime) : Prop :=
  clock.seconds < 86400
    ∧ (clock.nanoseconds < nanosecondsPerSecond
      ∨ (clock.seconds % 60 = 59 ∧ clock.nanoseconds < 2 * nanosecondsPerSecond))

/-- Whether an instant lies in one of the years that dates may have. -/
def Instant.Valid (instant : Instant) : Prop :=
  minSeconds ≤ instant.seconds ∧ instant.seconds ≤ maxSeconds
    ∧ instant.nanoseconds < 2 * nanosecondsPerSecond

/-- Whether an instant is valid and a clock may have its offset. -/
def ZonedInstant.Valid (zoned : ZonedInstant) : Prop :=
  zoned.instant.Valid ∧ -86400 < zoned.offset ∧ zoned.offset < 86400

/-- Whether the parts of a decimal number are in range; zero has no sign. -/
def Decimal.Valid (decimal : Decimal) : Prop :=
  decimal.scale ≤ maxScale ∧ decimal.mantissa < 0x1000000000000000000000000
    ∧ (decimal.mantissa = 0 → decimal.negative = false)

/-- The values of a scalar type. -/
def Scalar.Holds : Scalar → Atom → Prop
  | .unit, .unit => True
  | .bool, .bool _ => True
  | .int range, .int number => range.Contains number
  | .float32, .float32 _ => True
  | .float64, .float64 _ => True
  | .char, .char _ => True
  | .string, .text _ => True
  | .smallString, .text _ => True
  | .bytes, .bytes _ => True
  | .byteBuffer, .bytes _ => True
  | .value, .value _ => True
  | .timestamp, .timestamp _ => True
  | .systemTime, .systemTime _ => True
  | .duration, .duration _ => True
  | .ipv4, .address octets => octets.length = 4
  | .ipv6, .address octets => octets.length = 16
  | .ip, .address octets => octets.length = 4 ∨ octets.length = 16
  | .socket, .socket octets port flow scope =>
      (octets.length = 4 ∧ flow = 0 ∧ scope = 0
        ∨ octets.length = 16 ∧ flow < 0x100000000 ∧ scope < 0x100000000) ∧ port < 0x10000
  | .utcDateTime, .instant moment => moment.Valid
  | .plainDateTime, .instant moment => moment.Valid
  | .offsetDateTime, .zoned moment => moment.Valid
  | .date, .date day => day.Valid
  | .time, .time clock => clock.Valid
  | .guid, .bytes content => content.length = 16
  | .decimal, .decimal number => number.Valid
  | _, _ => False

/-! ## Collections -/

/-- Whether items with these sort keys may stand in a collection in this order. -/
def SequenceKind.Admits (kind : SequenceKind) (sortKey : Datum → List Int) (items : List Datum) :
    Prop :=
  match kind with
  | .treeSet => items.Pairwise fun left right => sortKey left < sortKey right
  | .hashSet | .indexSet => items.Pairwise fun left right => sortKey left ≠ sortKey right
  | .list | .deque | .linkedList | .slice | .stack => True

/-- Whether keys with these sort keys may stand in a map in this order. -/
def MapKind.Admits (kind : MapKind) (sortKey : Datum → List Int) (keys : List Datum) : Prop :=
  match kind with
  | .tree => keys.Pairwise fun left right => sortKey left < sortKey right
  | .hash | .index => keys.Pairwise fun left right => sortKey left ≠ sortKey right

/-! ## All types -/

/-- A datum is a value of a type. -/
inductive HasType (catalog : Catalog) : Datum → Schema → Prop where
  | scalar {type : Scalar} {content : Atom} (holds : type.Holds content) :
      HasType catalog (.atom content) (.scalar type)
  | typeless {type : Schema} {content : Datum} (inside : HasType catalog content type) :
      HasType catalog (.typeless type content) .typeless
  | none {type : Schema} : HasType catalog .none (.option type)
  | some {type : Schema} {item : Datum} (inside : HasType catalog item type) :
      HasType catalog (.some item) (.option type)
  | boxed {type : Schema} {item : Datum} (inside : HasType catalog item type) :
      HasType catalog item (.boxed type)
  | shared {type : Schema} {item : Datum} (inside : HasType catalog item type) :
      HasType catalog item (.shared type)
  | sequence {kind : SequenceKind} {type : Schema} {items : List Datum}
      (admitted : kind.Admits (catalog.sortKey type) items)
      (inside : ∀ item ∈ items, HasType catalog item type) :
      HasType catalog (.list items) (.sequence kind type)
  | array {length : Nat} {type : Schema} {items : List Datum} (whole : items.length = length)
      (inside : ∀ item ∈ items, HasType catalog item type) :
      HasType catalog (.list items) (.array length type)
  | grid {rows columns : Nat} {type : Schema} {items : List Datum}
      (whole : items.length = rows * columns) (bounded : rows * columns < 0x10000000000000000)
      (row : rows < 0x10000000000000000) (column : columns < 0x10000000000000000)
      (inside : ∀ item ∈ items, HasType catalog item type) :
      HasType catalog (.grid rows columns items) (.grid type)
  | map {kind : MapKind} {keyType valueType : Schema} {entries : List (Datum × Datum)}
      (admitted : kind.Admits (catalog.sortKey keyType) (entries.map Prod.fst))
      (keys : ∀ entry ∈ entries, HasType catalog entry.1 keyType)
      (values : ∀ entry ∈ entries, HasType catalog entry.2 valueType) :
      HasType catalog (.map entries) (.map kind keyType valueType)
  | tuple {types : List Schema} {items : List Datum} (whole : items.length = types.length)
      (inside : ∀ placed ∈ items.zip types, HasType catalog placed.1 placed.2) :
      HasType catalog (.list items) (.tuple types)
  | record {name : String} {definition : Definition Schema} {fields : List (Field Schema)}
      {values : List Datum} (defined : catalog.definition? name = .some definition)
      (shape : definition.layout.record? = .some fields) (whole : values.length = fields.length)
      (inside : ∀ placed ∈ values.zip fields, HasType catalog placed.1 placed.2.type) :
      HasType catalog (.record values) (.named name)
  | variant {name : String} {definition : Definition Schema} {index : Nat}
      {chosen : Variant Schema} {values : List Datum}
      (defined : catalog.definition? name = .some definition)
      (shape : definition.layout.variants[index]? = .some chosen)
      (whole : values.length = (chosen.fields.getD []).length)
      (inside : ∀ placed ∈ values.zip (chosen.fields.getD []),
        HasType catalog placed.1 placed.2.type) :
      HasType catalog (.variant index values) (.named name)

end MsgPack
