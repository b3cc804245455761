import MsgPack.Derive.Implementation
import MsgPack.Proofs.Derive.Options

/-!
# Items that code is derived for

Which items code can be derived for, said without looking at how they are checked: what their
attributes have to look like, and which of the options fit which bodies.  The checks are made one
after the other, some while layouts are made, and the first that fails is reported; that none of
them fails depends neither on their order nor on what is reported.
-/

namespace MsgPack.Derive

open Attribute (Gives)

/-! ## Items -/

/-- The attributes of all fields hold lists of options, as far as they are not foreign. -/
def FieldItems.IsListed (items : FieldItems) : Prop :=
  ∀ member ∈ items.members, ∀ given ∈ member.2.attributes, given.IsListed .field

/-- What a record asks of its fields and of its own options. -/
structure FieldItems.Derivable (attributes : List Attribute) (items : FieldItems) : Prop where
  listed : items.IsListed
  /-- A record has no variants to be named. -/
  unnamed : ¬ Gives .container attributes .asString
  /-- A map has the names of fields for its keys. -/
  braced : Gives .container attributes .map → ∃ fields, items = .named fields

/-- What a variant asks of itself and of its fields. -/
structure VariantItem.Derivable (item : VariantItem) : Prop where
  listed : ∀ given ∈ item.attributes, given.IsListed .field
  fields : item.fields.IsListed
  /-- A variant is never left out, nor may it be missing. -/
  kept : ¬ Gives .field item.attributes .skip ∧ ¬ Gives .field item.attributes .lenient

/-- What a choice asks of its variants and of its own options. -/
structure ChoiceDerivable (attributes : List Attribute) (items : List VariantItem) : Prop where
  present : items ≠ []
  variants : ∀ item ∈ items, item.Derivable
  /-- A choice is no map. -/
  unmapped : ¬ Gives .container attributes .map
  /-- A name says everything about a variant only if there are no fields. -/
  plain : Gives .container attributes .asString → ∀ item ∈ items, item.fields = .unit

/-- What an item asks of its body; of a union nothing suffices. -/
def Body.Derivable (attributes : List Attribute) : Body → Prop
  | .record items => items.Derivable attributes
  | .choice items => ChoiceDerivable attributes items
  | .union => False

/-- What an item asks of its parameters, of its attributes and of its body. -/
structure Item.Derivable (item : Item) : Prop where
  owned : ∀ parameter ∈ item.parameters, parameter.isLifetime = false
  listed : ∀ given ∈ item.attributes, given.IsListed .container
  body : item.body.Derivable item.attributes

/-! ## Conversions of lists -/

/-- A list can be converted just if each of its items can. -/
theorem exists_mapM_iff {ε α β : Type} {convert : α → Except ε β} {items : List α} :
    (∃ results, items.mapM convert = .ok results) ↔
      ∀ item ∈ items, ∃ result, convert item = .ok result := by
  induction items with
  | nil => simp [pure, Except.pure]
  | cons item items ih =>
      rw [List.forall_mem_cons, ← ih, List.mapM_cons]
      constructor
      · rintro ⟨results, ok⟩
        rcases bind_eq_ok.1 ok with ⟨first, converted, ok⟩
        rcases bind_eq_ok.1 ok with ⟨others, rest, _⟩
        exact ⟨⟨first, converted⟩, others, rest⟩
      · rintro ⟨⟨first, converted⟩, others, rest⟩
        exact ⟨first :: others,
          bind_eq_ok.2 ⟨first, converted, bind_eq_ok.2 ⟨others, rest, rfl⟩⟩⟩

/-! ## Fields and variants -/

variable {settings : List Setting}

theorem FieldItem.exists_field_iff {item : String × FieldItem} :
    (∃ field, FieldItem.field item = .ok field) ↔
      ∀ given ∈ item.2.attributes, given.IsListed .field := by
  rw [← Attribute.exists_allSettings_iff]
  constructor
  · rintro ⟨field, ok⟩
    rcases bind_eq_ok.1 ok with ⟨settings, read, _⟩
    exact ⟨settings, read⟩
  · rintro ⟨settings, read⟩
    exact ⟨_, bind_eq_ok.2 ⟨settings, read, rfl⟩⟩

theorem FieldItems.exists_fields_iff {items : FieldItems} :
    (∃ fields, items.fields = .ok fields) ↔ items.IsListed := by
  rw [FieldItems.fields, exists_mapM_iff]
  exact forall₂_congr fun _ _ => FieldItem.exists_field_iff

theorem VariantItem.exists_name_iff {item : VariantItem} :
    (∃ name, item.name = .ok name) ↔ (∀ given ∈ item.attributes, given.IsListed .field) ∧
      ¬ Gives .field item.attributes .skip ∧ ¬ Gives .field item.attributes .lenient := by
  rw [← Attribute.exists_allSettings_iff]
  constructor
  · rintro ⟨name, ok⟩
    rcases bind_eq_ok.1 ok with ⟨settings, read, ok⟩
    have kept := (check_eq_ok.1 ok).1
    simp only [Bool.or_eq_true, decide_eq_true_eq, Attribute.mem_allSettings read,
      not_or] at kept
    exact ⟨⟨settings, read⟩, kept⟩
  · rintro ⟨⟨settings, read⟩, kept⟩
    refine ⟨_, bind_eq_ok.2 ⟨settings, read, check_eq_ok.2 ⟨?_, rfl⟩⟩⟩
    simpa only [Bool.or_eq_true, decide_eq_true_eq, Attribute.mem_allSettings read,
      not_or] using kept

theorem FieldItems.isUnit_iff {items : FieldItems} : items.isUnit = true ↔ items = .unit := by
  cases items <;> simp [isUnit]

/-- A variant is made of its fields, if it has any. -/
theorem VariantItem.exists_variant_iff {named : VariantItem × String} :
    (∃ variant, VariantItem.variant named = .ok variant) ↔ named.1.fields.IsListed := by
  by_cases unit : named.1.fields.isUnit
  · rw [VariantItem.variant, if_pos unit, FieldItems.isUnit_iff.1 unit]
    exact iff_of_true ⟨_, rfl⟩ fun _ none => absurd none List.not_mem_nil
  · rw [VariantItem.variant, if_neg unit, ← FieldItems.exists_fields_iff]
    constructor
    · rintro ⟨variant, ok⟩
      rcases bind_eq_ok.1 ok with ⟨fields, collected, _⟩
      exact ⟨fields, collected⟩
    · rintro ⟨fields, collected⟩
      exact ⟨_, bind_eq_ok.2 ⟨fields, collected, rfl⟩⟩

/-! ## Bodies -/

/-- A record has a layout just if its fields do and its options fit. -/
theorem exists_recordLayout_iff {items : FieldItems} :
    (∃ layout, recordLayout settings items = .ok layout) ↔ items.IsListed ∧
      .asString ∉ settings ∧ (.map ∈ settings → ∃ fields, items = .named fields) := by
  constructor
  · rintro ⟨layout, ok⟩
    rw [recordLayout] at ok
    rcases check_eq_ok.1 ok with ⟨unnamed, ok⟩
    by_cases unit : items.isUnit
    · rw [if_pos unit] at ok
      have unmapped := (check_eq_ok.1 ok).1
      rw [FieldItems.isUnit_iff.1 unit]
      exact ⟨fun _ none => absurd none List.not_mem_nil, unnamed, fun map => absurd map unmapped⟩
    · rw [if_neg unit] at ok
      rcases bind_eq_ok.1 ok with ⟨fields, collected, ok⟩
      refine ⟨FieldItems.exists_fields_iff.1 ⟨fields, collected⟩, unnamed, fun map => ?_⟩
      rw [if_pos map] at ok
      have numbered := (check_eq_ok.1 ok).1
      cases items with
      | unit => exact absurd rfl unit
      | named fields => exact ⟨fields, rfl⟩
      | tuple fields => exact absurd rfl numbered
  · rintro ⟨listed, unnamed, braced⟩
    rcases FieldItems.exists_fields_iff.2 listed with ⟨fields, collected⟩
    rw [recordLayout, if_neg unnamed]
    by_cases map : .map ∈ settings
    · rcases braced map with ⟨named, rfl⟩
      refine ⟨.map fields, ?_⟩
      simp only [FieldItems.isUnit, FieldItems.isTuple, if_pos map, Bool.false_eq_true, if_false]
      exact bind_eq_ok.2 ⟨fields, collected, rfl⟩
    · simp only [if_neg map]
      by_cases unit : items.isUnit
      · exact ⟨.unit, by rw [if_pos unit]; rfl⟩
      · rw [if_neg unit]
        exact ⟨.array fields, bind_eq_ok.2 ⟨fields, collected, rfl⟩⟩

/-- What holds of all items holds of those that others stand beside. -/
theorem forall_mem_zip {α β : Type} {items : List α} {others : List β} (holds : α → Prop)
    (same : items.length = others.length) :
    (∀ pair ∈ items.zip others, holds pair.1) ↔ ∀ item ∈ items, holds item := by
  have firsts := List.map_fst_zip (Nat.le_of_eq same)
  rw [← List.forall_mem_map (f := Prod.fst), firsts]

/-- A choice has a layout just if its variants do and its options fit. -/
theorem exists_choiceLayout_iff {items : List VariantItem} :
    (∃ layout, choiceLayout settings items = .ok layout) ↔
      items ≠ [] ∧ (∀ item ∈ items, item.Derivable) ∧
        .map ∉ settings ∧ (.asString ∈ settings → ∀ item ∈ items, item.fields = .unit) := by
  have plain : (items.all fun item => item.fields.isUnit) = true ↔
      ∀ item ∈ items, item.fields = .unit := by
    simp only [List.all_eq_true, FieldItems.isUnit_iff]
  constructor
  · rintro ⟨layout, ok⟩
    rw [choiceLayout] at ok
    rcases check_eq_ok.1 ok with ⟨unmapped, ok⟩
    rcases check_eq_ok.1 ok with ⟨present, ok⟩
    rcases bind_eq_ok.1 ok with ⟨names, named, ok⟩
    rcases check_eq_ok.1 ok with ⟨unit, ok⟩
    rcases bind_eq_ok.1 ok with ⟨variants, converted, _⟩
    have length := (forall₂_of_mapM named).length_eq
    have names := exists_mapM_iff.1 ⟨names, named⟩
    have fields := exists_mapM_iff.1 ⟨variants, converted⟩
    simp only [VariantItem.exists_variant_iff] at fields
    replace fields := (forall_mem_zip (fun item => item.fields.IsListed) length).1 fields
    refine ⟨by simpa using present, fun item member => ?_, unmapped, fun asString => ?_⟩
    · rcases VariantItem.exists_name_iff.1 (names item member) with ⟨listed, kept⟩
      exact ⟨listed, fields item member, kept⟩
    · rw [← plain]
      exact Decidable.not_not.1 fun some => unit ⟨asString, some⟩
  · rintro ⟨present, derivable, unmapped, unit⟩
    have named : ∃ names, items.mapM VariantItem.name = .ok names :=
      exists_mapM_iff.2 fun item member =>
        VariantItem.exists_name_iff.2 ⟨(derivable item member).listed, (derivable item member).kept⟩
    rcases named with ⟨names, named⟩
    have converted : ∃ variants, (items.zip names).mapM VariantItem.variant = .ok variants :=
      exists_mapM_iff.2 fun pair member =>
        VariantItem.exists_variant_iff.2 (derivable pair.1 (List.of_mem_zip member).1).fields
    rcases converted with ⟨variants, converted⟩
    have empty : ¬ items.isEmpty := by simpa using present
    have fits : ¬ (.asString ∈ settings ∧ ¬ items.all fun item => item.fields.isUnit) :=
      fun both => both.2 (plain.2 (unit both.1))
    refine ⟨if .asString ∈ settings then .byName variants
      else if items.all fun item => item.fields.isUnit then .byIndex variants
      else .tagged variants, ?_⟩
    rw [choiceLayout]
    refine check_eq_ok.2 ⟨unmapped, check_eq_ok.2 ⟨empty, bind_eq_ok.2 ⟨names, named,
      check_eq_ok.2 ⟨fits, bind_eq_ok.2 ⟨variants, converted, ?_⟩⟩⟩⟩⟩
    split
    · rfl
    · split <;> rfl

/-! ## Whole items -/

/-- Code is derived for an item just if it has a layout. -/
theorem Item.exists_expand_iff {item : Item} :
    (∃ code, item.expand = .ok code) ↔ ∃ definition, item.definition = .ok definition := by
  constructor
  · rintro ⟨code, ok⟩
    rcases bind_eq_ok.1 ok with ⟨definition, same, _⟩
    exact ⟨definition, same⟩
  · rintro ⟨definition, same⟩
    exact ⟨_, bind_eq_ok.2 ⟨definition, same, rfl⟩⟩

/-- An item has a layout just if its parameters, its attributes and its body allow for one. -/
theorem Item.exists_definition_iff {item : Item} :
    (∃ definition, item.definition = .ok definition) ↔ item.Derivable := by
  have owned : ¬ item.parameters.any Parameter.isLifetime ↔
      ∀ parameter ∈ item.parameters, parameter.isLifetime = false := by simp
  constructor
  · rintro ⟨definition, ok⟩
    rw [Item.definition] at ok
    rcases check_eq_ok.1 ok with ⟨lifetimes, ok⟩
    rcases bind_eq_ok.1 ok with ⟨settings, read, ok⟩
    refine ⟨owned.1 lifetimes, Attribute.exists_allSettings_iff.1 ⟨settings, read⟩, ?_⟩
    cases body : item.body with
    | record items =>
        rw [body] at ok
        rcases bind_eq_ok.1 ok with ⟨layout, chosen, _⟩
        have fits := exists_recordLayout_iff.1 ⟨layout, chosen⟩
        rw [Attribute.mem_allSettings read, Attribute.mem_allSettings read] at fits
        exact ⟨fits.1, fits.2.1, fits.2.2⟩
    | choice items =>
        rw [body] at ok
        rcases bind_eq_ok.1 ok with ⟨layout, chosen, _⟩
        have fits := exists_choiceLayout_iff.1 ⟨layout, chosen⟩
        rw [Attribute.mem_allSettings read, Attribute.mem_allSettings read] at fits
        exact ⟨fits.1, fits.2.1, fits.2.2.1, fits.2.2.2⟩
    | union =>
        rw [body] at ok
        cases ok
  · rintro ⟨lifetimes, listed, fits⟩
    rcases Attribute.exists_allSettings_iff.2 listed with ⟨settings, read⟩
    rw [Item.definition, if_neg (owned.2 lifetimes), read]
    cases body : item.body with
    | record items =>
        rw [body] at fits
        have chosen : ∃ layout, recordLayout settings items = .ok layout := by
          rw [exists_recordLayout_iff, Attribute.mem_allSettings read,
            Attribute.mem_allSettings read]
          exact ⟨fits.listed, fits.unnamed, fits.braced⟩
        rcases chosen with ⟨layout, chosen⟩
        exact ⟨⟨item.name, layout⟩,
          bind_eq_ok.2 ⟨settings, rfl, bind_eq_ok.2 ⟨layout, chosen, rfl⟩⟩⟩
    | choice items =>
        rw [body] at fits
        have chosen : ∃ layout, choiceLayout settings items = .ok layout := by
          rw [exists_choiceLayout_iff, Attribute.mem_allSettings read,
            Attribute.mem_allSettings read]
          exact ⟨fits.present, fits.variants, fits.unmapped, fits.plain⟩
        rcases chosen with ⟨layout, chosen⟩
        exact ⟨⟨item.name, layout⟩,
          bind_eq_ok.2 ⟨settings, rfl, bind_eq_ok.2 ⟨layout, chosen, rfl⟩⟩⟩
    | union =>
        rw [body] at fits
        exact fits.elim

/-- Code is derived for the items whose parameters, attributes and bodies allow for it, and for no
others. -/
theorem Item.expand_accepts {item : Item} :
    (∃ code, item.expand = .ok code) ↔ item.Derivable := by
  rw [exists_expand_iff, exists_definition_iff]

end MsgPack.Derive
