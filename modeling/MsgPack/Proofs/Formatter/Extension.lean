import MsgPack.Proofs.Formatter.TakesAt

/-!
# Choices that grow

Variants that are added at the end of a choice leave the numbers and the names of those before them
as they were.  So whatever was read before they were added is read afterwards, with the same result:
as a value of the choice itself, and as a value of any type that the choice stands in, which may be
the choice again.
-/

namespace MsgPack

/-! ## Layouts, definitions and catalogs -/

/-- A layout is extended by variants at the end of a choice that is written in the same way. -/
inductive Layout.Extends {τ : Type} : Layout τ → Layout τ → Prop where
  | refl (layout : Layout τ) : Extends layout layout
  | byIndex (variants more : List (Variant τ)) :
      Extends (.byIndex (variants ++ more)) (.byIndex variants)
  | byName (variants more : List (Variant τ)) :
      Extends (.byName (variants ++ more)) (.byName variants)
  | tagged (variants more : List (Variant τ)) :
      Extends (.tagged (variants ++ more)) (.tagged variants)

/-- A definition extends another one of the same name if its layout does. -/
structure Definition.Extends {τ : Type} (newer older : Definition τ) : Prop where
  name : newer.name = older.name
  layout : newer.layout.Extends older.layout

/-- A catalog extends another one if its definitions do; it may have more of them. -/
structure Catalog.Extends (newer older : Catalog) : Prop where
  initial : newer.initial = older.initial
  sortKey : newer.sortKey = older.sortKey
  known : ∀ {name : String} {definition : Definition Schema},
    older.definition? name = some definition →
      ∃ grown, newer.definition? name = some grown ∧ grown.Extends definition

/-- A catalog with another definition for a name. -/
def Catalog.redefined (catalog : Catalog) (name : String) (definition : Definition Schema) :
    Catalog :=
  { catalog with
    definition? := fun other =>
      if other = name then some definition else catalog.definition? other }

theorem Catalog.extends_redefined {catalog : Catalog} {name : String}
    {older newer : Definition Schema} (defined : catalog.definition? name = some older)
    (grown : newer.Extends older) : (catalog.redefined name newer).Extends catalog where
  initial := rfl
  sortKey := rfl
  known := by
    intro other definition known
    by_cases same : other = name
    · subst same
      cases defined.symm.trans known
      exact ⟨newer, if_pos rfl, grown⟩
    · exact ⟨definition, (if_neg same).trans known, rfl, .refl _⟩

/-- Another definition of a type changes nothing about which types bring a formatter. -/
theorem Catalog.standard_redefined {catalog : Catalog} {name : String}
    {older newer : Definition Schema} (defined : catalog.definition? name = some older) :
    Lookup.standard (catalog.redefined name newer) = Lookup.standard catalog := by
  have same (type : Schema) :
      (catalog.redefined name newer).formatter? type = catalog.formatter? type := by
    cases type with
    | named other =>
        by_cases known : other = name
        · simp [formatter?, redefined, known, defined]
        · simp [formatter?, redefined, known]
    | _ => rfl
  simp only [Lookup.standard, same]
  rfl

namespace Decode

open Session

variable {σ α : Type} {lookup : Lookup σ} {newer older : Catalog}
variable {inner : Formatter → Schema → Decode σ Datum}

/-! ## Definitions -/

/-- Only the initial values of a catalog matter for a record. -/
theorem construct_congr (same : newer.initial = older.initial) (typeName : String)
    (fields : List (Field Schema)) (slots : List (Option Datum)) :
    construct newer typeName fields slots = construct older typeName fields slots := by
  induction fields generalizing slots with
  | nil => rfl
  | cons field fields ih => simp only [construct, same, ih]

/-- A number that had a variant has it still. -/
theorem follows_variantOf (name : String) (variants more : List (Variant Schema)) (index : Nat) :
    Follows (lift (Read.ofExcept (variantOf name (variants ++ more) index)) :
        Decode σ (Variant Schema))
      (lift (Read.ofExcept (variantOf name variants index))) := by
  intro session variant after ok
  cases held : variants[index]? with
  | none =>
      rw [variantOf, held] at ok
      cases ok
  | some other =>
      have inside := (List.getElem?_eq_some_iff.1 held).1
      rw [variantOf, held] at ok
      rwa [variantOf, List.getElem?_append_left inside, held]

/-- What a definition reads, one that extends it reads in the same way. -/
theorem follows_defined {definition grown : Definition Schema}
    (same : newer.initial = older.initial) (extended : grown.Extends definition) :
    Follows (defined lookup newer inner grown) (defined lookup older inner definition) := by
  rcases definition with ⟨name, layout⟩
  rcases grown with ⟨name', layout'⟩
  rcases extended with ⟨rfl, extended⟩
  cases extended with
  | refl =>
      -- The same layout in the larger catalog differs in the catalog of the initial values only.
      have records : defined lookup newer inner ⟨name', layout⟩ =
          defined lookup older inner ⟨name', layout⟩ := by
        cases layout <;> simp only [defined, tagged, payload, construct_congr same]
      rw [records]
      exact .refl _
  | byIndex variants more =>
      simp only [defined]
      exact (Follows.refl _).bind fun number _ =>
        (follows_variantOf name' variants more number.toNat).bind fun _ _ => .refl _
  | byName variants more =>
      simp only [defined]
      apply (Follows.refl _).bind
      intro text _ session content after ok
      rw [List.findIdx?_append]
      cases found : variants.findIdx? fun variant => variant.name = text with
      | none =>
          rw [found] at ok
          cases ok
      | some index =>
          rw [found] at ok
          exact ok
  | tagged variants more =>
      simp only [defined, tagged, payload, construct_congr same]
      apply (Follows.refl _).bind
      intro _ _
      apply Follows.nested
      apply (Follows.refl _).bind
      intro number _
      exact (follows_variantOf name' variants more number.toNat).bind fun _ _ => .refl _

/-! ## Any type -/

theorem Follows.formatted {first second : Decode σ Datum} (follows : Follows second first)
    (formatter : Formatter) :
    Follows (formatted lookup inner second formatter) (formatted lookup inner first formatter) := by
  cases formatter with
  | builtin => exact follows
  | codec | custom | typeless => exact .refl _

/-- A type is read in the same way, whatever reads what lies one level deeper. -/
theorem follows_shaped (extended : newer.Extends older) : (type : Schema) →
    Follows (shaped lookup newer inner type) (shaped lookup older inner type)
  | .scalar _ | .typeless | .array _ _ | .grid _ | .tuple _ => .refl _
  | .sequence _ _ | .map _ _ _ => by
      simp only [shaped, extended.sortKey]
      exact .refl _
  | .option type => by
      simp only [shaped]
      apply (Follows.refl _).bind
      intro absent _
      split
      · exact .refl _
      · apply (Follows.refl _).bind
        intro formatter _
        exact ((follows_shaped extended type).formatted formatter).bind fun _ _ => .refl _
  | .boxed type | .shared type => by
      simp only [shaped]
      apply (Follows.refl _).bind
      intro formatter _
      exact (follows_shaped extended type).formatted formatter
  | .named name => by
      intro session content after ok
      rw [shaped] at ok ⊢
      cases known : older.definition? name with
      | none =>
          rw [known] at ok
          cases ok
      | some definition =>
          rcases extended.known known with ⟨grown, found, extends_⟩
          rw [known] at ok
          rw [found]
          exact follows_defined extended.initial extends_ ok

/-- What is read with the budget for so many levels is read with that of the larger catalog. -/
theorem follows_within_extended (extended : newer.Extends older) {formatter : Formatter}
    {type : Schema} (delegates : Delegates lookup .outside (layer lookup older formatter type))
    (budget : Nat) :
    Follows (within lookup newer budget formatter type)
      (within lookup older budget formatter type) := by
  induction budget generalizing formatter type with
  | zero => exact (follows_shaped extended type).formatted formatter
  | succ budget ih =>
      -- The outermost layer grows first; what it leaves to the levels below then does by induction.
      have inside : Follows (layer lookup older formatter type (within lookup newer budget))
          (layer lookup older formatter type (within lookup older budget)) :=
        delegates.follows fun _ type given => ih (delegates_layer given type)
      exact ((follows_shaped extended type).formatted formatter).trans inside

/-- What a type brings to read its values reads in the larger catalog what it read before. -/
theorem follows_datum_extended (extended : newer.Extends older) (type : Schema) :
    Follows (datum lookup newer .builtin type) (datum lookup older .builtin type) :=
  fun session _ _ ok =>
    follows_within_extended extended (delegates_shaped type) session.state.budget ok

end Decode

end MsgPack
