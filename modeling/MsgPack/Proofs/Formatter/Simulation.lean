import Mathlib.Data.List.Forall2
import MsgPack.Proofs.Formatter.Emits
import MsgPack.Proofs.Formatter.Session

/-!
# Lookups that answer alike

One lookup mirrors another if, from memories that a relation holds of, it gives the same formatters
and knows no names of types but those that the other one knows, and the relation holds of the
memories afterwards.  What is read or written with the one is then read or written with the other,
with the same result and the same state of the reader or the writer.

That is all if only successes count.  A lookup that mirrors another one in total also knows all its
names, and then failures are the same as well.  So whatever is known of a lookup with a simple
memory holds of all lookups that mirror it.
-/

namespace MsgPack

variable {ρ σ τ α β : Type} {total : Prop}

/-- Whether a registry knows the names that another one knows, in total if it is the same. -/
structure TypeRegistry.Covers (total : Prop) (registry known : TypeRegistry) : Prop where
  byName : ∀ {name : String} {handle : TypeHandle},
    known.byName? name = some handle → registry.byName? name = some handle
  byType : ∀ {type : Schema} {handle : TypeHandle},
    known.byType? type = some handle → registry.byType? type = some handle
  same : total → registry = known

theorem TypeRegistry.Covers.of_eq {registry known : TypeRegistry} (same : registry = known) :
    Covers total registry known :=
  same ▸ ⟨id, id, fun _ => rfl⟩

/-- Whether one lookup answers as another one does, where a relation holds of their memories, and
whether it still holds afterwards. -/
structure Lookup.Mirrors (lookup : Lookup σ) (other : Lookup τ) (total : Prop)
    (related : σ → τ → Prop) : Prop where
  chain : total → lookup.chain = other.chain
  find : ∀ {memory : σ} {image : τ} (type : Schema), related memory image →
    (lookup.find type memory).1 = (other.find type image).1 ∧
      related (lookup.find type memory).2 (other.find type image).2
  names : ∀ {memory : σ} {image : τ} (registry : Option Nat), related memory image →
    (other.names registry image).Covers total (lookup.names registry memory)
  note : ∀ {memory : σ} {image : τ} (number : Nat) (type : Schema), related memory image →
    related (lookup.note number type memory) (other.note number type image)

/-- What relates items in order relates them in the order of writing. -/
theorem SequenceKind.forall₂_elements {relation : α → β → Prop} {items : List α} {others : List β}
    (kind : SequenceKind) (related : List.Forall₂ relation items others) :
    List.Forall₂ relation (kind.elements items) (kind.elements others) := by
  cases kind with
  | stack => exact List.forall₂_reverse_iff.2 related
  | _ => exact related

/-! ## Computations -/

namespace Session

variable {related : σ → τ → Prop} {lookup : Lookup σ} {other : Lookup τ}

/-- Two computations end with the same result in the same state and with related memories.  In
total, they may end with the same failure instead; otherwise it does not matter how the second one
ends where the first one fails. -/
inductive EndsAlike (total : Prop) (related : σ → τ → Prop) :
    EStateM.Result Error (Session ρ σ) α → EStateM.Result Error (Session ρ τ) α → Prop where
  | ok (result : α) (state : ρ) {memory : σ} {image : τ} (step : related memory image) :
      EndsAlike total related (.ok result ⟨state, memory⟩) (.ok result ⟨state, image⟩)
  | error (failure : Error) (state : ρ) {memory : σ} {image : τ} (step : related memory image) :
      EndsAlike total related (.error failure ⟨state, memory⟩) (.error failure ⟨state, image⟩)
  | failed (failure : Error) (after : Session ρ σ) (ends : EStateM.Result Error (Session ρ τ) α)
      (successes : ¬ total) : EndsAlike total related (.error failure after) ends

/-- From the same state and related memories, two computations end alike. -/
def Mirrors (total : Prop) (related : σ → τ → Prop) (first : EStateM Error (Session ρ σ) α)
    (second : EStateM Error (Session ρ τ) α) : Prop :=
  ∀ (state : ρ) (memory : σ) (image : τ), related memory image →
    EndsAlike total related (first ⟨state, memory⟩) (second ⟨state, image⟩)

namespace Mirrors

protected theorem pure (result : α) :
    Mirrors total related (pure result : EStateM Error (Session ρ σ) α) (pure result) :=
  fun state _ _ step => .ok result state step

/-- In total, two failures have to be the same. -/
theorem throwOf {failure other : Error} (same : total → failure = other) :
    Mirrors total related (throw failure : EStateM Error (Session ρ σ) α) (throw other) := by
  intro state memory image step
  by_cases all : total
  · rw [same all]
    exact .error other state step
  · exact .failed failure _ _ all

protected theorem throw (failure : Error) :
    Mirrors total related (throw failure : EStateM Error (Session ρ σ) α) (throw failure) :=
  throwOf fun _ => rfl

theorem bind {first : EStateM Error (Session ρ σ) α} {second : EStateM Error (Session ρ τ) α}
    {next : α → EStateM Error (Session ρ σ) β} {following : α → EStateM Error (Session ρ τ) β}
    (head : Mirrors total related first second)
    (tail : ∀ found, Mirrors total related (next found) (following found)) :
    Mirrors total related (first >>= next) (second >>= following) := by
  intro state memory image step
  have ends := head state memory image step
  simp only [Bind.bind, EStateM.bind]
  generalize first ⟨state, memory⟩ = one at ends ⊢
  generalize second ⟨state, image⟩ = two at ends ⊢
  cases ends with
  | ok result state step => exact tail result state _ _ step
  | error failure state step => exact .error failure state step
  | failed failure after ends successes => exact .failed failure after _ successes

/-- A converted result. -/
theorem mapped {first : EStateM Error (Session ρ σ) α} {second : EStateM Error (Session ρ τ) α}
    (mirrors : Mirrors total related first second) (convert : α → β) :
    Mirrors total related (return convert (← first)) (return convert (← second)) :=
  mirrors.bind fun result => .pure (convert result)

theorem ite {condition : Prop} [Decidable condition] {yes no : EStateM Error (Session ρ σ) α}
    {yes' no' : EStateM Error (Session ρ τ) α} (first : Mirrors total related yes yes')
    (second : Mirrors total related no no') :
    Mirrors total related (if condition then yes else no) (if condition then yes' else no') := by
  split
  · exact first
  · exact second

/-- What does not use the lookup does not depend on it. -/
theorem lift (step : EStateM Error ρ α) :
    Mirrors total related (lift step : EStateM Error (Session ρ σ) α) (lift step) := by
  intro state memory image holds
  simp only [Session.lift]
  cases step state with
  | ok result after => exact .ok result after holds
  | error failure after => exact .error failure after holds

theorem times {item : EStateM Error (Session ρ σ) α} {item' : EStateM Error (Session ρ τ) α}
    (mirrors : Mirrors total related item item') (count : Nat) :
    Mirrors total related (Loop.times count item) (Loop.times count item') := by
  induction count with
  | zero => exact .pure []
  | succ count ih =>
      rw [Loop.times_succ, Loop.times_succ]
      exact mirrors.bind fun next => ih.bind fun rest => .pure (next :: rest)

/-- A script is followed alike if its requests are granted alike. -/
theorem follow {request answer : Type} {respond : request → EStateM Error (Session ρ σ) answer}
    {respond' : request → EStateM Error (Session ρ τ) answer}
    (each : ∀ wanted, Mirrors total related (respond wanted) (respond' wanted))
    (script : Script ρ request answer α) :
    Mirrors total related (Session.follow respond script) (Session.follow respond' script) := by
  induction script with
  | done result => exact .pure result
  | fail failure => exact .throw failure
  | step action next ih => exact (lift action).bind ih
  | ask wanted next ih => exact (each wanted).bind ih

/-- What is known of the one computation where it succeeds holds of the other one. -/
theorem of_ok {first : EStateM Error (Session ρ σ) α} {second : EStateM Error (Session ρ τ) α}
    (mirrors : Mirrors total related first second) {memory kept : σ} {image : τ}
    (step : related memory image) {state after : ρ} {result : α}
    (ok : first ⟨state, memory⟩ = .ok result ⟨after, kept⟩) :
    ∃ last, second ⟨state, image⟩ = .ok result ⟨after, last⟩ ∧ related kept last := by
  have ends := mirrors state memory image step
  rw [ok] at ends
  generalize second ⟨state, image⟩ = two at ends ⊢
  cases ends with
  | ok result state step => exact ⟨_, rfl, step⟩

/-- What two computations leave behind that end alike in total. -/
theorem run {first : EStateM Error (Session ρ σ) α} {second : EStateM Error (Session ρ τ) α}
    (mirrors : Mirrors True related first second) {memory : σ} {image : τ}
    (step : related memory image) (state : ρ) :
    (run first state memory).1 = (run second state image).1 ∧
      (run first state memory).2.state = (run second state image).2.state ∧
      related (run first state memory).2.memory (run second state image).2.memory := by
  have ends := mirrors state memory image step
  simp only [Session.run]
  generalize first ⟨state, memory⟩ = one at ends ⊢
  generalize second ⟨state, image⟩ = two at ends ⊢
  cases ends with
  | ok result state step => exact ⟨rfl, rfl, step⟩
  | error failure state step => exact ⟨rfl, rfl, step⟩
  | failed failure after ends successes => exact absurd trivial successes

variable (mirrored : lookup.Mirrors other total related)

include mirrored

/-- The same formatter is found, or none with the same report. -/
theorem find (type : Schema) :
    Mirrors total related (find lookup type : EStateM Error (Session ρ σ) Formatter)
      (find other type) := by
  intro state memory image step
  obtain ⟨same, after⟩ := mirrored.find type step
  simp only [Session.find]
  generalize lookup.find type memory = one at same after ⊢
  generalize other.find type image = two at same after ⊢
  obtain ⟨found, kept⟩ := one
  obtain ⟨found', kept'⟩ := two
  cases same
  cases found with
  | none =>
      have report (all : total) : Error.formatterNotFound type.typeName lookup.chain =
          .formatterNotFound type.typeName other.chain :=
        congrArg _ (mirrored.chain all)
      exact throwOf report state kept kept' after
  | some formatter => exact .ok formatter state after

/-- A type that is known to the one is known to the other, and in total the other way round. -/
theorem knownThen {registry : Option Nat} {ask : TypeRegistry → Option TypeHandle}
    {failure : Error} {next : TypeHandle → EStateM Error (Session ρ σ) α}
    {following : TypeHandle → EStateM Error (Session ρ τ) α}
    (covers : ∀ {known registry : TypeRegistry} {handle : TypeHandle},
      registry.Covers total known → ask known = some handle → ask registry = some handle)
    (each : ∀ handle, Mirrors total related (next handle) (following handle)) :
    Mirrors total related
      (do
        match ask (← names lookup registry) with
        | none => throw failure
        | some handle => next handle)
      (do
        match ask (← names other registry) with
        | none => throw failure
        | some handle => following handle) := by
  intro state memory image step
  have known := mirrored.names registry step
  simp only [Bind.bind, EStateM.bind, names]
  cases stands : ask (lookup.names registry memory) with
  | some handle =>
      rw [covers known stands]
      exact each handle state memory image step
  | none =>
      by_cases all : total
      · rw [known.same all, stands]
        exact .error failure state step
      · exact .failed failure _ _ all

theorem note (registry : Option Nat) (type : Schema) :
    Mirrors total related (note lookup registry type : EStateM Error (Session ρ σ) Unit)
      (note other registry type) := by
  intro state memory image step
  refine .ok () state ?_
  cases registry with
  | none => exact step
  | some number => exact mirrored.note number type step

end Mirrors

end Session

/-! ## Reading -/

namespace Decode

open Session (Mirrors)

variable {related : σ → τ → Prop} {lookup : Lookup σ} {other : Lookup τ} {catalog : Catalog}
variable {inner : Formatter → Schema → Decode σ Datum}
variable {inner' : Formatter → Schema → Decode τ Datum}

theorem mirrors_nested {first : Decode σ α} {second : Decode τ α}
    (inside : Mirrors total related first second) :
    Mirrors total related (nested first) (nested second) := by
  intro reader memory image step
  simp only [nested]
  cases Read.enterNested reader with
  | error failure after => exact .error failure after step
  | ok opened entered =>
      have ends := inside entered memory image step
      simp only
      generalize first ⟨entered, memory⟩ = one at ends ⊢
      generalize second ⟨entered, image⟩ = two at ends ⊢
      cases ends with
      | ok result state step => exact .ok result _ step
      | error failure state step => exact .error failure _ step
      | failed failure after ends successes => exact .failed failure _ _ successes

section Shapes

variable (mirrored : lookup.Mirrors other total related)
variable (deeper : ∀ formatter type,
  Mirrors total related (inner formatter type) (inner' formatter type))

include mirrored deeper

theorem mirrors_found (type : Schema) :
    Mirrors total related (found lookup inner type) (found other inner' type) :=
  (Mirrors.find mirrored type).bind fun formatter => deeper formatter type

theorem mirrors_collection (type : Schema) :
    Mirrors total related (collection lookup inner type) (collection other inner' type) := by
  apply (Mirrors.lift Read.arrayHeader).bind
  intro count
  apply (Mirrors.find mirrored type).bind
  intro formatter
  exact mirrors_nested ((deeper formatter type).times count)

theorem mirrors_array (length : Nat) (type : Schema) :
    Mirrors total related (array lookup inner length type) (array other inner' length type) :=
  (mirrors_collection mirrored deeper type).bind fun _ => (Mirrors.pure _).ite (.throw _)

theorem mirrors_grid (type : Schema) :
    Mirrors total related (grid lookup inner type) (grid other inner' type) := by
  apply (Mirrors.lift _).bind
  intro _
  apply Mirrors.bind
  · apply mirrors_nested
    apply (Mirrors.lift _).bind
    intro rows
    apply (Mirrors.lift _).bind
    intro columns
    exact (mirrors_collection mirrored deeper type).mapped _
  · intro parts
    exact (Mirrors.lift _).mapped _

theorem mirrors_entries (keyType valueType : Schema) :
    Mirrors total related (entries lookup inner keyType valueType)
      (entries other inner' keyType valueType) := by
  apply (Mirrors.lift Read.mapHeader).bind
  intro count
  apply (Mirrors.find mirrored keyType).bind
  intro keys
  apply (Mirrors.find mirrored valueType).bind
  intro values
  apply mirrors_nested
  apply Mirrors.times
  apply (deeper keys keyType).bind
  intro key
  exact (deeper values valueType).mapped _

theorem mirrors_each (types : List Schema) :
    Mirrors total related (each lookup inner types) (each other inner' types) := by
  induction types with
  | nil => exact .pure []
  | cons type types ih =>
      exact (mirrors_found mirrored deeper type).bind fun _ => ih.mapped _

theorem mirrors_named (registry : Option Nat) :
    Mirrors total related (named lookup inner registry) (named other inner' registry) := by
  apply (Mirrors.lift Read.string).bind
  intro name
  apply Mirrors.knownThen mirrored fun covers => covers.byName
  intro handle
  apply (Mirrors.note mirrored registry handle.type).bind
  intro _
  exact (Mirrors.follow (mirrors_found mirrored deeper) handle.delegates.read).mapped _

theorem mirrors_typeless (registry : Option Nat) :
    Mirrors total related (typeless lookup inner registry) (typeless other inner' registry) := by
  apply (Mirrors.lift carriesName).bind
  intro carried
  apply Mirrors.ite
  · apply (Mirrors.lift Read.extensionHeader).bind
    intro header
    apply (Mirrors.lift Read.position).bind
    intro start
    apply (mirrors_nested (mirrors_named mirrored deeper registry)).bind
    intro found
    apply (Mirrors.lift Read.position).bind
    intro stop
    exact (Mirrors.pure _).ite (.throw _)
  · exact (Mirrors.lift Value.read).mapped _

/-! ### Records and choices -/

theorem mirrors_slots (available : Nat) (fields : List (Field Schema)) :
    Mirrors total related (slots lookup inner available fields)
      (slots other inner' available fields) := by
  induction fields generalizing available with
  | nil => exact .pure []
  | cons field fields ih =>
      exact ((ih available).mapped _).ite
        ((mirrors_found mirrored deeper field.type).bind fun _ => (ih (available - 1)).mapped _)

theorem mirrors_slotsOfArray (fields : List (Field Schema)) (count : Nat) :
    Mirrors total related (slotsOfArray lookup inner fields count)
      (slotsOfArray other inner' fields count) :=
  mirrors_nested ((mirrors_slots mirrored deeper count fields).bind fun _ =>
    (Mirrors.lift _).bind fun _ => .pure _)

theorem mirrors_assignment (fields : List (Field Schema)) :
    Mirrors total related (assignment lookup inner fields) (assignment other inner' fields) := by
  apply (Mirrors.lift Read.string).bind
  intro key
  cases fieldOf? fields key with
  | none => exact (Mirrors.lift _).bind fun _ => .pure _
  | some placed => exact (mirrors_found mirrored deeper placed.1.type).mapped _

theorem mirrors_slotsOfMap (fields : List (Field Schema)) :
    Mirrors total related (slotsOfMap lookup inner fields) (slotsOfMap other inner' fields) :=
  (Mirrors.lift Read.mapHeader).bind fun count =>
    (mirrors_nested ((mirrors_assignment mirrored deeper fields).times count)).mapped _

theorem mirrors_payload (name : String) (variant : Variant Schema) :
    Mirrors total related (payload lookup catalog inner name variant)
      (payload other catalog inner' name variant) := by
  unfold payload
  split
  · exact (Mirrors.lift _).bind fun _ => .pure _
  · exact (Mirrors.lift _).bind fun _ =>
      (mirrors_slotsOfArray mirrored deeper _ _).bind fun _ => .lift _

theorem mirrors_tagged (name : String) (variants : List (Variant Schema)) :
    Mirrors total related (tagged lookup catalog inner name variants)
      (tagged other catalog inner' name variants) :=
  (Mirrors.lift _).bind fun _ => (Mirrors.lift _).bind fun variant =>
    (mirrors_payload mirrored deeper name variant).mapped _

theorem mirrors_defined (definition : Definition Schema) :
    Mirrors total related (defined lookup catalog inner definition)
      (defined other catalog inner' definition) := by
  unfold defined
  cases definition.layout with
  | unit => exact (Mirrors.lift _).bind fun _ => .pure _
  | array fields =>
      exact (Mirrors.lift _).bind fun count =>
        (mirrors_slotsOfArray mirrored deeper fields count).bind fun _ => (Mirrors.lift _).mapped _
  | map fields =>
      exact (mirrors_slotsOfMap mirrored deeper fields).bind fun _ => (Mirrors.lift _).mapped _
  | byIndex variants =>
      exact (Mirrors.lift _).bind fun _ => (Mirrors.lift _).bind fun _ => .pure _
  | byName variants =>
      apply (Mirrors.lift Read.string).bind
      intro chosen
      split
      · exact .pure _
      · exact .throw _
  | tagged variants =>
      exact (Mirrors.lift _).bind fun _ =>
        mirrors_nested (mirrors_tagged mirrored deeper definition.name variants)

/-! ### Any type -/

theorem mirrors_formatted {shaped : Decode σ Datum} {shaped' : Decode τ Datum}
    (mirrors : Mirrors total related shaped shaped') (formatter : Formatter) :
    Mirrors total related (formatted lookup inner shaped formatter)
      (formatted other inner' shaped' formatter) := by
  cases formatter with
  | builtin => exact mirrors
  | codec codec => exact .lift codec.read
  | custom custom =>
      exact .follow (fun type => mirrors_nested (mirrors_found mirrored deeper type)) custom.read
  | typeless registry => exact mirrors_typeless mirrored deeper (some registry)

theorem mirrors_shaped : (type : Schema) →
    Mirrors total related (shaped lookup catalog inner type) (shaped other catalog inner' type)
  | .scalar scalar => (Mirrors.lift scalar.read).mapped _
  | .typeless => mirrors_typeless mirrored deeper none
  | .option type => by
      apply (Mirrors.lift Read.tryNil).bind
      intro absent
      apply (Mirrors.pure _).ite
      apply (Mirrors.find mirrored type).bind
      intro formatter
      exact (mirrors_formatted mirrored deeper (mirrors_shaped type) formatter).mapped _
  | .boxed type | .shared type =>
      (Mirrors.find mirrored type).bind fun formatter =>
        mirrors_formatted mirrored deeper (mirrors_shaped type) formatter
  | .sequence kind type => (mirrors_collection mirrored deeper type).mapped _
  | .array length type => mirrors_array mirrored deeper length type
  | .grid type => mirrors_grid mirrored deeper type
  | .map kind keyType valueType => (mirrors_entries mirrored deeper keyType valueType).mapped _
  | .tuple types =>
      (Mirrors.lift _).bind fun _ => (mirrors_nested (mirrors_each mirrored deeper types)).mapped _
  | .named name => by
      unfold shaped
      split
      · exact mirrors_defined mirrored deeper _
      · exact .throwOf fun all => congrArg _ (mirrored.chain all)

end Shapes

section Types

variable (mirrored : lookup.Mirrors other total related)

include mirrored

theorem mirrors_within (budget : Nat) (formatter : Formatter) (type : Schema) :
    Mirrors total related (within lookup catalog budget formatter type)
      (within other catalog budget formatter type) := by
  induction budget generalizing formatter type with
  | zero =>
      have deeper (_ : Formatter) (_ : Schema) :
          Mirrors total related (Session.lift Read.tooDeep : Decode σ Datum)
            (Session.lift Read.tooDeep) :=
        .lift _
      exact mirrors_formatted mirrored deeper (mirrors_shaped mirrored deeper type) formatter
  | succ budget ih =>
      exact mirrors_formatted mirrored ih (mirrors_shaped mirrored ih type) formatter

/-- A value of any type is read in the same way with lookups that answer alike. -/
theorem mirrors_value (catalog : Catalog) (type : Schema) :
    Mirrors total related (value lookup catalog type) (value other catalog type) := by
  apply (Mirrors.find mirrored type).bind
  intro formatter reader
  exact mirrors_within mirrored reader.budget formatter type reader

end Types

end Decode

/-! ## Writing -/

namespace Encode

open Session (Mirrors)

variable {related : σ → τ → Prop} {lookup : Lookup σ} {other : Lookup τ} {catalog : Catalog}

theorem mirrors_anotherType (type : Schema) :
    Mirrors total related (anotherType type : Encode σ Unit) (anotherType type) :=
  .throw _

theorem mirrors_intoPayload {write : Encode σ Unit} {write' : Encode τ Unit}
    (inside : Mirrors total related write write') :
    Mirrors total related (intoPayload write) (intoPayload write') := by
  intro writer memory image step
  have ends := inside Writer.empty memory image step
  simp only [intoPayload]
  generalize write ⟨Writer.empty, memory⟩ = one at ends ⊢
  generalize write' ⟨Writer.empty, image⟩ = two at ends ⊢
  cases ends with
  | ok result state step => exact .ok _ writer step
  | error failure state step => exact .error failure writer step
  | failed failure after ends successes => exact .failed failure _ _ successes

/-- Parts that are written alike, one by one and as values of any type. -/
def PartsAlike (total : Prop) (related : σ → τ → Prop) :
    List (Part σ) → List (Part τ) → Prop :=
  List.Forall₂ fun write write' => ∀ type, Mirrors total related (write type) (write' type)

theorem mirrors_part {parts : List (Part σ)} {parts' : List (Part τ)}
    (alike : PartsAlike total related parts parts') (index : Nat) (type : Schema) :
    Mirrors total related (part parts index type) (part parts' index type) := by
  induction alike generalizing index with
  | nil => exact mirrors_anotherType type
  | cons first _ ih =>
      cases index with
      | zero => exact first type
      | succ index => exact ih index

theorem mirrors_recordHeader (name : String) :
    Mirrors total related (recordHeader catalog name : Encode σ (Bool × List (Field Schema)))
      (recordHeader catalog name) := by
  unfold recordHeader
  split
  · exact (Mirrors.lift _).bind fun _ => .pure _
  · exact (Mirrors.lift _).bind fun _ => .pure _
  · exact (Mirrors.lift _).bind fun _ => .pure _
  · exact .throw _

theorem mirrors_variantHeader (name : String) (index : Nat) :
    Mirrors total related (variantHeader catalog name index : Encode σ (List (Field Schema)))
      (variantHeader catalog name index) := by
  unfold variantHeader
  split
  · exact (Mirrors.lift _).bind fun _ => .pure _
  · split
    · exact (Mirrors.lift _).bind fun _ => .pure _
    · exact .throw _
  · split
    · apply (Mirrors.lift _).bind
      intro _
      apply (Mirrors.lift _).bind
      intro _
      split <;> exact (Mirrors.lift _).bind fun _ => .pure _
    · exact .throw _
  · exact .throw _

section Formatters

variable (mirrored : lookup.Mirrors other total related)

include mirrored

theorem mirrors_settle : (formatter : Formatter) → (type : Schema) →
    Mirrors total related (settle lookup formatter type) (settle other formatter type)
  | .builtin, .boxed item =>
      (Mirrors.find mirrored item).bind fun formatter => mirrors_settle formatter item
  | .builtin, .shared item =>
      (Mirrors.find mirrored item).bind fun formatter => mirrors_settle formatter item
  | .builtin, .scalar _ | .builtin, .typeless | .builtin, .option _ | .builtin, .sequence _ _
  | .builtin, .array _ _ | .builtin, .grid _ | .builtin, .map _ _ _ | .builtin, .tuple _
  | .builtin, .named _ | .codec _, _ | .custom _, _ | .typeless _, _ => by
      unfold settle
      exact .pure _

theorem mirrors_formatted {content : Datum} {parts : List (Part σ)} {parts' : List (Part τ)}
    {shaped : Schema → Encode σ Unit} {shaped' : Schema → Encode τ Unit}
    {carried : Option Nat → Encode σ Unit} {carried' : Option Nat → Encode τ Unit}
    (alike : PartsAlike total related parts parts')
    (each : ∀ type, Mirrors total related (shaped type) (shaped' type))
    (typeless : ∀ registry, Mirrors total related (carried registry) (carried' registry))
    (formatter : Formatter) (type : Schema) :
    Mirrors total related (formatted lookup content parts shaped carried formatter type)
      (formatted other content parts' shaped' carried' formatter type) := by
  apply (mirrors_settle mirrored formatter type).bind
  rintro ⟨settled, reached⟩
  cases settled with
  | builtin => cases reached <;> first | exact each _ | exact typeless _
  | codec codec => exact .lift _
  | custom custom =>
      exact .follow (fun wanted => mirrors_part alike wanted.1 wanted.2) (custom.write content)
  | typeless registry => exact typeless _

theorem mirrors_plain {content : Datum} {parts : List (Part σ)} {parts' : List (Part τ)}
    {shaped : Schema → Encode σ Unit} {shaped' : Schema → Encode τ Unit}
    (alike : PartsAlike total related parts parts')
    (each : ∀ type, Mirrors total related (shaped type) (shaped' type)) (formatter : Formatter)
    (type : Schema) :
    Mirrors total related (plain lookup content parts shaped formatter type)
      (plain other content parts' shaped' formatter type) :=
  mirrors_formatted mirrored alike each (fun _ => mirrors_anotherType _) formatter type

omit mirrored in
theorem mirrors_delegated {whole : Part σ} {whole' : Part τ} {parts : List (Part σ)}
    {parts' : List (Part τ)} (inside : ∀ type, Mirrors total related (whole type) (whole' type))
    (alike : PartsAlike total related parts parts') (delegates : TypelessDelegates) (type : Schema)
    (content : Datum) :
    Mirrors total related (delegated delegates type content whole parts)
      (delegated delegates type content whole' parts') := by
  apply Mirrors.follow
  rintro ⟨index, wanted⟩
  cases index with
  | none => exact inside wanted
  | some index => exact mirrors_part alike index wanted

theorem mirrors_typeless (registry : Option Nat) (type : Schema) (content : Datum)
    {whole : Part σ} {whole' : Part τ} {parts : List (Part σ)} {parts' : List (Part τ)}
    (inside : ∀ type, Mirrors total related (whole type) (whole' type))
    (alike : PartsAlike total related parts parts') :
    Mirrors total related (typeless lookup registry type content whole parts)
      (typeless other registry type content whole' parts') := by
  unfold typeless
  split
  · exact .lift _
  · apply Mirrors.knownThen mirrored fun covers => covers.byType
    intro handle
    apply (Mirrors.note mirrored registry type).bind
    intro _
    have payload := mirrors_delegated inside alike handle.delegates type content
    exact (mirrors_intoPayload ((Mirrors.lift _).bind fun _ => payload)).bind fun _ => .lift _

omit mirrored in
theorem mirrors_inOrder {each : List (Encode σ Unit)} {each' : List (Encode τ Unit)}
    (alike : List.Forall₂ (Mirrors total related) each each') :
    Mirrors total related (inOrder each) (inOrder each') := by
  induction alike with
  | nil => exact .pure ()
  | cons first _ ih => exact first.bind fun _ => ih

end Formatters

mutual

/-- A datum is written in the same way with lookups that answer alike. -/
theorem mirrors_datum (mirrored : lookup.Mirrors other total related) : (content : Datum) →
    (formatter : Formatter) → (type : Schema) →
      Mirrors total related (datum lookup catalog content formatter type)
        (datum other catalog content formatter type)
  | .atom atom, formatter, type => by
      apply mirrors_plain mirrored .nil
      intro type
      split
      · exact .lift _
      · exact mirrors_anotherType _
  | .none, formatter, type => by
      apply mirrors_plain mirrored .nil
      intro type
      split
      · exact .lift _
      · exact mirrors_anotherType _
  | .some item, formatter, type => by
      apply mirrors_plain mirrored (mirrors_inside mirrored (.some item))
      intro type
      split
      · exact (Mirrors.find mirrored _).bind fun formatter =>
          mirrors_datum mirrored item formatter _
      · exact mirrors_anotherType _
  | .list list, formatter, type => by
      apply mirrors_plain mirrored (mirrors_parts mirrored list)
      intro type
      split
      · rename_i kind item
        exact (Mirrors.find mirrored _).bind fun formatter => (Mirrors.lift _).bind fun _ =>
          mirrors_inOrder (kind.forall₂_elements (mirrors_writers mirrored list formatter item))
      · exact (Mirrors.find mirrored _).bind fun formatter => (Mirrors.lift _).bind fun _ =>
          mirrors_inOrder (mirrors_writers mirrored list formatter _)
      · exact (Mirrors.lift _).bind fun _ => mirrors_tuple mirrored list _
      · exact mirrors_anotherType _
  | .grid rows columns list, formatter, type => by
      apply mirrors_plain mirrored (mirrors_parts mirrored list)
      intro type
      split
      · apply (Mirrors.find mirrored _).bind
        intro formatter
        exact (Mirrors.lift _).bind fun _ => (Mirrors.lift _).bind fun _ =>
          (Mirrors.lift _).bind fun _ => (Mirrors.lift _).bind fun _ =>
            mirrors_inOrder (mirrors_writers mirrored list formatter _)
      · exact mirrors_anotherType _
  | .map list, formatter, type => by
      apply mirrors_plain mirrored (mirrors_entryParts mirrored list)
      intro type
      split
      · apply (Mirrors.find mirrored _).bind
        intro keys
        apply (Mirrors.find mirrored _).bind
        intro values
        exact (Mirrors.lift _).bind fun _ => mirrors_entries mirrored list keys _ values _
      · exact mirrors_anotherType _
  | .record values, formatter, type => by
      apply mirrors_plain mirrored (mirrors_parts mirrored values)
      intro type
      split
      · exact (mirrors_recordHeader _).bind fun header =>
          mirrors_fieldValues mirrored header.1 values header.2
      · exact mirrors_anotherType _
  | .variant index values, formatter, type => by
      apply mirrors_plain mirrored (mirrors_parts mirrored values)
      intro type
      split
      · exact (mirrors_variantHeader _ index).bind fun fields =>
          mirrors_fieldValues mirrored false values fields
      · exact mirrors_anotherType _
  | .typeless held item, formatter, type => by
      have whole (wanted : Schema) : Mirrors total related
          (do datum lookup catalog item (← Session.find lookup wanted) wanted)
          (do datum other catalog item (← Session.find other wanted) wanted) :=
        (Mirrors.find mirrored wanted).bind fun formatter =>
          mirrors_datum mirrored item formatter wanted
      exact mirrors_formatted mirrored (.cons whole .nil) (fun _ => mirrors_anotherType _)
        (fun registry => mirrors_typeless mirrored registry held item whole
          (mirrors_inside mirrored item)) formatter type

theorem mirrors_inside (mirrored : lookup.Mirrors other total related) : (content : Datum) →
    PartsAlike total related (inside lookup catalog content) (inside other catalog content)
  | .atom _ | .none => .nil
  | .some item | .typeless _ item =>
      .cons (fun wanted => (Mirrors.find mirrored wanted).bind fun formatter =>
        mirrors_datum mirrored item formatter wanted) .nil
  | .list list | .grid _ _ list | .record list | .variant _ list => mirrors_parts mirrored list
  | .map list => mirrors_entryParts mirrored list

theorem mirrors_parts (mirrored : lookup.Mirrors other total related) : (list : List Datum) →
    PartsAlike total related (parts lookup catalog list) (parts other catalog list)
  | [] => .nil
  | item :: rest =>
      .cons (fun wanted => (Mirrors.find mirrored wanted).bind fun formatter =>
        mirrors_datum mirrored item formatter wanted) (mirrors_parts mirrored rest)

theorem mirrors_entryParts (mirrored : lookup.Mirrors other total related) :
    (list : List (Datum × Datum)) →
      PartsAlike total related (entryParts lookup catalog list) (entryParts other catalog list)
  | [] => .nil
  | (key, value) :: rest =>
      .cons (fun wanted => (Mirrors.find mirrored wanted).bind fun formatter =>
          mirrors_datum mirrored key formatter wanted)
        (.cons (fun wanted => (Mirrors.find mirrored wanted).bind fun formatter =>
          mirrors_datum mirrored value formatter wanted) (mirrors_entryParts mirrored rest))

theorem mirrors_writers (mirrored : lookup.Mirrors other total related) : (list : List Datum) →
    (formatter : Formatter) → (type : Schema) →
      List.Forall₂ (Mirrors total related) (writers lookup catalog list formatter type)
        (writers other catalog list formatter type)
  | [], _, _ => .nil
  | item :: rest, formatter, type =>
      .cons (mirrors_datum mirrored item formatter type)
        (mirrors_writers mirrored rest formatter type)

theorem mirrors_entries (mirrored : lookup.Mirrors other total related) :
    (list : List (Datum × Datum)) → (keys : Formatter) → (keyType : Schema) →
      (values : Formatter) → (valueType : Schema) →
      Mirrors total related (entries lookup catalog list keys keyType values valueType)
        (entries other catalog list keys keyType values valueType)
  | [], _, _, _, _ => .pure ()
  | (key, value) :: rest, keys, keyType, values, valueType =>
      (mirrors_datum mirrored key keys keyType).bind fun _ =>
        (mirrors_datum mirrored value values valueType).bind fun _ =>
          mirrors_entries mirrored rest keys keyType values valueType

theorem mirrors_tuple (mirrored : lookup.Mirrors other total related) : (list : List Datum) →
    (types : List Schema) →
      Mirrors total related (tuple lookup catalog list types) (tuple other catalog list types)
  | item :: rest, type :: types =>
      (Mirrors.find mirrored type).bind fun formatter =>
        (mirrors_datum mirrored item formatter type).bind fun _ => mirrors_tuple mirrored rest types
  | [], _ | _ :: _, [] => .pure ()

theorem mirrors_fieldValues (mirrored : lookup.Mirrors other total related) : (keyed : Bool) →
    (values : List Datum) → (fields : List (Field Schema)) →
      Mirrors total related (fieldValues lookup catalog keyed values fields)
        (fieldValues other catalog keyed values fields)
  | keyed, value :: rest, field :: fields => by
      have others := mirrors_fieldValues mirrored keyed rest fields
      have written : Mirrors total related
          (do datum lookup catalog value (← Session.find lookup field.type) field.type)
          (do datum other catalog value (← Session.find other field.type) field.type) :=
        (Mirrors.find mirrored _).bind fun formatter =>
          mirrors_datum mirrored value formatter field.type
      rw [fieldValues_cons, fieldValues_cons]
      apply others.ite
      apply Mirrors.bind _ fun _ => others
      exact ((Mirrors.lift _).bind fun _ => written).ite written
  | _, [], _ | _, _ :: _, [] => .pure ()

end

/-- A datum of any type is written in the same way with lookups that answer alike. -/
theorem mirrors_value (mirrored : lookup.Mirrors other total related) (catalog : Catalog)
    (type : Schema) (content : Datum) :
    Mirrors total related (value lookup catalog type content) (value other catalog type content) :=
  (Mirrors.find mirrored type).bind fun formatter => mirrors_datum mirrored content formatter type

end Encode

end MsgPack
