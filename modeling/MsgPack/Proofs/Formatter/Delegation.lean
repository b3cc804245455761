import MsgPack.Proofs.Formatter.Session
import MsgPack.Proofs.Reader.Flat

/-!
# Typed reads and what they leave to others

A formatter reads the outside of a value itself.  For the types inside it asks the lookup, and
it leaves their values to whatever reads one level deeper: an argument of the formatter, called
only inside an array, a map or a typeless value that the formatter has opened, and opened only
after the header that announces it.

`Delegates` names the functions of such an argument that arise in this way, and every formatter
is shown to be one, by the cases of the description of its type.  What holds of the elementary
steps and is kept by composition then holds of all formatters by one induction, for one
argument or for two that are compared.
-/

namespace MsgPack.Decode

open Session
open Read (advances_arrayHeader advances_arrayOf advances_extensionHeader advances_mapHeader
  composed_arrayHeader composed_arrayOf composed_extensionHeader composed_int composed_mapHeader
  composed_nil composed_peekExtensionHeader composed_peekKind composed_size composed_string
  composed_tryNil)

/-- Where a read stands that leaves what lies one level deeper to others. -/
inductive Place where
  | outside
  /-- After the header of a structure, which may be opened now. -/
  | headed
  /-- In a structure that is open. -/
  | inside

/-- The reads that leave what lies one level deeper to an argument, and call it only `inside`
a structure that is open.  What follows an answer of the lookup matters only for the answers that it
gives. -/
inductive Delegates {σ : Type} (lookup : Lookup σ) :
    Place → {α : Type} → ((Formatter → Schema → Decode σ Datum) → Decode σ α) → Prop where
  | pure {place : Place} {α : Type} (result : α) : Delegates lookup place fun _ => pure result
  | throw {place : Place} {α : Type} {failure : Error} (placeless : failure.Placeless) :
      Delegates lookup place fun _ => (throw failure : Decode σ α)
  | bind {place : Place} {α β : Type} {first : (Formatter → Schema → Decode σ Datum) → Decode σ α}
      {next : (Formatter → Schema → Decode σ Datum) → α → Decode σ β}
      (head : Delegates lookup place first)
      (tail : ∀ result, Delegates lookup place fun inner => next inner result) :
      Delegates lookup place fun inner => first inner >>= next inner
  | lift {place : Place} {α : Type} {read : Read α} (composed : Read.Composed false false read) :
      Delegates lookup place fun _ => lift read
  | skip {place : Place} : Delegates lookup place fun _ => lift Read.skip
  | value {place : Place} : Delegates lookup place fun _ => lift Value.read
  | supplied {place : Place} {read : Read Datum} (supplies : lookup.Supplies read) :
      Delegates lookup place fun _ => lift read
  | findThen {place : Place} {α : Type} {type : Schema}
      {next : (Formatter → Schema → Decode σ Datum) → Formatter → Decode σ α}
      (each : ∀ formatter, lookup.GivesOut formatter →
        Delegates lookup place fun inner => next inner formatter) :
      Delegates lookup place fun inner => find lookup type >>= next inner
  | namesThen {place : Place} {α : Type} {registry : Option Nat}
      {next : (Formatter → Schema → Decode σ Datum) → TypeRegistry → Decode σ α}
      (each : ∀ known, lookup.Keeps known → Delegates lookup place fun inner => next inner known) :
      Delegates lookup place fun inner => names lookup registry >>= next inner
  | note {place : Place} (registry : Option Nat) (type : Schema) :
      Delegates lookup place fun _ => note lookup registry type
  | inner {formatter : Formatter} (given : lookup.GivesOut formatter) (type : Schema) :
      Delegates lookup .inside fun inner => inner formatter type
  /-- A header, and what follows it. -/
  | headThen {place : Place} {α β : Type} {header : Read α}
      {next : (Formatter → Schema → Decode σ Datum) → α → Decode σ β}
      (composed : Read.Composed false false header) (advances : Read.Advances header)
      (tail : ∀ found, Delegates lookup .headed fun inner => next inner found) :
      Delegates lookup place fun inner => Session.lift header >>= next inner
  | nested {α : Type} {read : (Formatter → Schema → Decode σ Datum) → Decode σ α}
      (within : Delegates lookup .inside read) :
      Delegates lookup .headed fun inner => nested (read inner)
  /-- A custom formatter opens a structure without a header. -/
  | request {place : Place} {type : Schema} (requests : lookup.Requests type) :
      Delegates lookup place fun inner => nested (found lookup inner type)

variable {σ α β : Type} {lookup : Lookup σ} {catalog : Catalog} {place : Place}

namespace Delegates

theorem ite {condition : Prop} [Decidable condition]
    {yes no : (Formatter → Schema → Decode σ Datum) → Decode σ α}
    (first : Delegates lookup place yes) (second : Delegates lookup place no) :
    Delegates lookup place fun inner => if condition then yes inner else no inner := by
  split
  · exact first
  · exact second

/-- A read with a converted result. -/
theorem mapped {read : (Formatter → Schema → Decode σ Datum) → Decode σ α}
    (delegates : Delegates lookup place read) (convert : α → β) :
    Delegates lookup place fun inner => return convert (← read inner) :=
  delegates.bind fun result => .pure (convert result)

theorem times {item : (Formatter → Schema → Decode σ Datum) → Decode σ α}
    (delegates : Delegates lookup place item) (count : Nat) :
    Delegates lookup place fun inner => Loop.times count (item inner) := by
  induction count with
  | zero => exact .pure []
  | succ count ih =>
      simp only [Loop.times_succ]
      exact delegates.bind fun next => ih.bind fun rest => .pure (next :: rest)

theorem discard {item : (Formatter → Schema → Decode σ Datum) → Decode σ Unit}
    (delegates : Delegates lookup place item) (count : Nat) :
    Delegates lookup place fun inner => Loop.discard (item inner) count := by
  induction count with
  | zero => exact .pure ()
  | succ count ih => exact delegates.bind fun _ => ih

theorem arrayOfThen {length : Nat} {typeName : String}
    {next : (Formatter → Schema → Decode σ Datum) → Decode σ α}
    (tail : Delegates lookup .headed next) :
    Delegates lookup place fun inner =>
      Session.lift (Read.arrayOf length typeName) >>= fun _ => next inner :=
  .headThen (composed_arrayOf length typeName) (advances_arrayOf length typeName) fun _ => tail

/-- A script delegates if its steps do and what grants its requests does. -/
theorem follow {request answer : Type} {script : Script Reader request answer α}
    {respond : (Formatter → Schema → Decode σ Datum) → request → Decode σ answer}
    (steps : ∀ action, script.Performs action →
      Delegates lookup place fun _ => Session.lift action)
    (requests : ∀ wanted, script.Asks wanted →
      Delegates lookup place fun inner => respond inner wanted) :
    Delegates lookup place fun inner => Session.follow (respond inner) script := by
  induction script with
  | done result => exact .pure result
  | fail failure =>
      -- A failure may name any place, so it is taken for a step.
      have unreached : (Error.unknownTypeName "").Placeless := trivial
      exact (steps _ (.fail failure)).bind fun _ => .throw unreached
  | step action next ih =>
      exact (steps action (.now action next)).bind fun result =>
        ih result (fun later rest => steps later (.afterStep result rest))
          fun later rest => requests later (.afterStep result rest)
  | ask wanted next ih =>
      exact (requests wanted (.now wanted next)).bind fun given =>
        ih given (fun later rest => steps later (.afterAnswer given rest))
          fun later rest => requests later (.afterAnswer given rest)

end Delegates

/-! ## Collections -/

/-- What is found for a type is read with the formatter of the type. -/
theorem delegates_found (type : Schema) :
    Delegates lookup .inside fun inner => found lookup inner type :=
  .findThen fun _ given => .inner given type

theorem delegates_collection (type : Schema) :
    Delegates lookup place fun inner => collection lookup inner type := by
  apply Delegates.headThen composed_arrayHeader advances_arrayHeader
  intro count
  apply Delegates.findThen
  intro formatter given
  exact ((Delegates.inner given type).times count).nested

theorem delegates_array (length : Nat) (type : Schema) :
    Delegates lookup place fun inner => array lookup inner length type :=
  (delegates_collection type).bind fun _ => (Delegates.pure _).ite (.throw trivial)

/-- Dimensions that items do not fill make no array. -/
theorem placeless_grid (typeName : String) (rows columns : Nat) (items : List Datum) :
    Placeless (Grid.ofItems typeName rows columns items) := by
  unfold Grid.ofItems
  split
  · exact .error trivial
  split
  · exact .ok _
  · exact .error trivial

theorem delegates_grid (type : Schema) :
    Delegates lookup place fun inner => grid lookup inner type := by
  apply Delegates.arrayOfThen
  apply Delegates.bind
  · apply Delegates.nested
    apply (Delegates.lift (composed_size .usize)).bind
    intro rows
    apply (Delegates.lift (composed_size .usize)).bind
    intro columns
    exact (delegates_collection type).mapped _
  · intro parts
    exact (Delegates.lift (.ofExcept (placeless_grid ..))).bind fun _ => .pure _

theorem delegates_entries (keyType valueType : Schema) :
    Delegates lookup place fun inner => entries lookup inner keyType valueType := by
  apply Delegates.headThen composed_mapHeader advances_mapHeader
  intro count
  apply Delegates.findThen
  intro keys givenKeys
  apply Delegates.findThen
  intro values givenValues
  apply Delegates.nested
  apply Delegates.times
  apply (Delegates.inner givenKeys keyType).bind
  intro key
  exact (Delegates.inner givenValues valueType).mapped _

theorem delegates_each (types : List Schema) :
    Delegates lookup .inside fun inner => each lookup inner types := by
  induction types with
  | nil => exact .pure []
  | cons type types ih => exact (delegates_found type).bind fun _ => ih.mapped _

/-! ## Typeless values -/

theorem composed_carriesName {deep : Bool} : Read.Composed deep false carriesName :=
  composed_peekKind.bind fun _ =>
    (composed_peekExtensionHeader.mapped _).ite (.pure false)

theorem delegates_named (registry : Option Nat) :
    Delegates lookup .inside fun inner => named lookup inner registry := by
  apply (Delegates.lift composed_string).bind
  intro name
  apply Delegates.namesThen
  intro known keeps
  split
  · exact .throw trivial
  rename_i handle stands
  apply (Delegates.note registry handle.type).bind
  intro _
  have script : Delegates lookup .inside fun inner =>
      Session.follow (found lookup inner) handle.delegates.read :=
    .follow (fun _ performs => .supplied (.handle keeps (.inl ⟨name, stands⟩) performs))
      fun type _ => delegates_found type
  exact script.mapped _

theorem delegates_typeless (registry : Option Nat) :
    Delegates lookup place fun inner => typeless lookup inner registry := by
  apply (Delegates.lift composed_carriesName).bind
  intro carried
  apply Delegates.ite
  · apply Delegates.headThen composed_extensionHeader advances_extensionHeader
    intro header
    apply (Delegates.lift .position).bind
    intro start
    apply (delegates_named registry).nested.bind
    intro found
    apply (Delegates.lift .position).bind
    intro stop
    exact (Delegates.pure _).ite (.throw trivial)
  · exact Delegates.value.mapped _

/-! ## Records and choices -/

/-- A field that is missing is all that can be wrong with the fields that were found. -/
theorem placeless_construct (catalog : Catalog) (typeName : String)
    (fields : List (Field Schema)) (slots : List (Option Datum)) :
    Placeless (construct catalog typeName fields slots) := by
  induction fields generalizing slots with
  | nil => exact .ok []
  | cons field fields ih =>
      have others (value : Datum) :
          Placeless (return value :: (← construct catalog typeName fields slots.tail)) :=
        (ih slots.tail).bind fun _ => .ok _
      rw [construct]
      split
      · exact others _
      split
      · exact others _
      · exact .error trivial

theorem placeless_variantOf (name : String) (variants : List (Variant Schema)) (index : Nat) :
    Placeless (variantOf name variants index) := by
  unfold variantOf
  split
  · exact .ok _
  · exact .error trivial

theorem delegates_slots (available : Nat) (fields : List (Field Schema)) :
    Delegates lookup .inside fun inner => slots lookup inner available fields := by
  induction fields generalizing available with
  | nil => exact .pure []
  | cons field fields ih =>
      exact ((ih available).mapped _).ite
        ((delegates_found field.type).bind fun _ => (ih (available - 1)).mapped _)

theorem delegates_slotsOfArray (fields : List (Field Schema)) (count : Nat) :
    Delegates lookup .headed fun inner => slotsOfArray lookup inner fields count := by
  simp only [slotsOfArray, lift_discard]
  exact ((delegates_slots count fields).bind fun _ =>
    (Delegates.skip.discard _).bind fun _ => .pure _).nested

theorem delegates_assignment (fields : List (Field Schema)) :
    Delegates lookup .inside fun inner => assignment lookup inner fields := by
  apply (Delegates.lift composed_string).bind
  intro key
  split
  · exact Delegates.skip.bind fun _ => .pure _
  · rename_i field place _
    exact (delegates_found field.type).mapped _

theorem delegates_slotsOfMap (fields : List (Field Schema)) :
    Delegates lookup place fun inner => slotsOfMap lookup inner fields :=
  .headThen composed_mapHeader advances_mapHeader fun count =>
    ((delegates_assignment fields).times count).nested.mapped _

theorem delegates_payload (name : String) (variant : Variant Schema) :
    Delegates lookup place fun inner => payload lookup catalog inner name variant := by
  unfold payload
  split
  · exact (Delegates.lift composed_nil).bind fun _ => .pure _
  · exact .arrayOfThen ((delegates_slotsOfArray _ _).bind fun _ =>
      .lift (.ofExcept (placeless_construct ..)))

theorem delegates_tagged (name : String) (variants : List (Variant Schema)) :
    Delegates lookup place fun inner => tagged lookup catalog inner name variants :=
  (Delegates.lift (composed_int .u32)).bind fun _ =>
    (Delegates.lift (.ofExcept (placeless_variantOf ..))).bind fun variant =>
      (delegates_payload name variant).mapped _

theorem delegates_defined (definition : Definition Schema) :
    Delegates lookup place fun inner => defined lookup catalog inner definition := by
  unfold defined
  cases definition.layout with
  | unit => exact (Delegates.lift composed_nil).bind fun _ => .pure _
  | array fields =>
      exact .headThen composed_arrayHeader advances_arrayHeader fun count =>
        (delegates_slotsOfArray fields count).bind fun _ =>
          (Delegates.lift (.ofExcept (placeless_construct ..))).mapped _
  | map fields =>
      exact (delegates_slotsOfMap fields).bind fun _ =>
        (Delegates.lift (.ofExcept (placeless_construct ..))).mapped _
  | byIndex variants =>
      exact (Delegates.lift (composed_int .u32)).bind fun _ =>
        (Delegates.lift (.ofExcept (placeless_variantOf ..))).bind fun _ => .pure _
  | byName variants =>
      apply (Delegates.lift composed_string).bind
      intro chosen
      split
      · exact .pure _
      · exact .throw trivial
  | tagged variants =>
      exact .arrayOfThen (delegates_tagged definition.name variants).nested

/-! ## Any type -/

/-- Among scalar types, only values of any shape hold others. -/
theorem delegates_scalar (type : Scalar) : Delegates lookup place fun _ => lift type.read := by
  by_cases shape : type = .value
  · subst shape
    simp only [Scalar.read, lift_bind, lift_pure]
    exact Delegates.value.mapped _
  · exact .lift (type.composed_read fun value => absurd value shape)

theorem delegates_formatted {shaped : (Formatter → Schema → Decode σ Datum) → Decode σ Datum}
    (delegates : Delegates lookup place shaped) {formatter : Formatter}
    (given : lookup.GivesOut formatter) :
    Delegates lookup place fun inner => formatted lookup inner (shaped inner) formatter := by
  cases formatter with
  | builtin => exact delegates
  | codec codec => exact .supplied (.codec given)
  | custom custom =>
      exact .follow (fun _ performs => .supplied (.custom given performs))
        fun _ asks => .request ⟨custom, given, asks⟩
  | typeless registry => exact delegates_typeless (some registry)

theorem delegates_shaped : (type : Schema) →
    Delegates lookup place fun inner => shaped lookup catalog inner type
  | .scalar scalar => (delegates_scalar scalar).mapped _
  | .typeless => delegates_typeless none
  | .option type => by
      apply (Delegates.lift composed_tryNil).bind
      intro absent
      apply (Delegates.pure _).ite
      apply Delegates.findThen
      intro formatter given
      exact (delegates_formatted (delegates_shaped type) given).mapped _
  | .boxed type | .shared type =>
      .findThen fun _ given => delegates_formatted (delegates_shaped type) given
  | .sequence kind type => (delegates_collection type).mapped _
  | .array length type => delegates_array length type
  | .grid type => delegates_grid type
  | .map kind keyType valueType => (delegates_entries keyType valueType).mapped _
  | .tuple types =>
      .arrayOfThen ((delegates_each types).nested.mapped _)
  | .named name => by
      unfold shaped
      split
      · exact delegates_defined _
      · exact .throw trivial

/-- What a formatter for a type reads itself, and what it leaves to others. -/
abbrev layer (lookup : Lookup σ) (catalog : Catalog) (formatter : Formatter) (type : Schema)
    (inner : Formatter → Schema → Decode σ Datum) : Decode σ Datum :=
  formatted lookup inner (shaped lookup catalog inner type) formatter

/-- Every formatter that is given out delegates. -/
theorem delegates_layer {formatter : Formatter} (given : lookup.GivesOut formatter)
    (type : Schema) : Delegates lookup place (layer lookup catalog formatter type) :=
  delegates_formatted (delegates_shaped type) given

end MsgPack.Decode
