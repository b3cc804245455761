import Mathlib.Data.List.Forall2
import MsgPack.Derive.TypeExpression
import MsgPack.Proofs.Formatter.Coverage

/-!
# Layouts of declared choices

A declared choice is written without payload only if none of its variants has fields.  So
whether a declared type tells its data apart depends on its names alone.
-/

namespace MsgPack.Derive

/-! ## Computations that may fail -/

section

variable {ε α β : Type}

/-- A sequence succeeds where both of its parts do. -/
theorem bind_eq_ok {first : Except ε α} {next : α → Except ε β} {result : β} :
    first >>= next = .ok result ↔ ∃ found, first = .ok found ∧ next found = .ok result := by
  cases first with
  | error failure =>
      constructor
      · intro ok
        cases ok
      · rintro ⟨found, same, _⟩
        cases same
  | ok found =>
      constructor
      · intro ok
        exact ⟨found, rfl, ok⟩
      · rintro ⟨other, same, ok⟩
        cases same
        exact ok

/-- A check comes before everything else. -/
theorem check_eq_ok {refused : Prop} [Decidable refused] {failure : CompileError}
    {next : Except CompileError α} {result : α} :
    (if refused then throw failure else next) = .ok result ↔ ¬ refused ∧ next = .ok result := by
  by_cases holds : refused
  · rw [if_pos holds]
    exact iff_of_false nofun fun both => both.1 holds
  · rw [if_neg holds]
    exact (and_iff_right holds).symm

/-- A conversion of all items goes through them in order. -/
theorem forall₂_of_mapM {convert : α → Except ε β} {items : List α}
    {results : List β} (ok : items.mapM convert = .ok results) :
    List.Forall₂ (fun item result => convert item = .ok result) items results := by
  induction items generalizing results with
  | nil =>
      cases ok
      exact .nil
  | cons item items ih =>
      rw [List.mapM_cons] at ok
      obtain ⟨first, converted, ok⟩ := bind_eq_ok.1 ok
      obtain ⟨others, rest, ok⟩ := bind_eq_ok.1 ok
      cases ok
      exact .cons converted (ih rest)

/-- Every result of a conversion comes from an item. -/
theorem mem_of_mapM {convert : α → Except ε β} {items : List α} {results : List β}
    (ok : items.mapM convert = .ok results) {result : β} (member : result ∈ results) :
    ∃ item ∈ items, convert item = .ok result := by
  induction items generalizing results with
  | nil =>
      cases ok
      cases member
  | cons item items ih =>
      rw [List.mapM_cons] at ok
      rcases bind_eq_ok.1 ok with ⟨first, converted, ok⟩
      rcases bind_eq_ok.1 ok with ⟨others, rest, ok⟩
      cases ok
      rcases List.mem_cons.1 member with rfl | member
      · exact ⟨item, List.mem_cons_self, converted⟩
      · obtain ⟨other, inside, same⟩ := ih rest member
        exact ⟨other, List.mem_cons_of_mem item inside, same⟩

end

/-! ## Choices -/

/-- A variant without fields has no payload. -/
theorem VariantItem.fields_eq_none {named : VariantItem × String} {variant : Variant Code}
    (ok : VariantItem.variant named = .ok variant) (unit : named.1.fields.isUnit) :
    variant.fields = none := by
  rw [VariantItem.variant, if_pos unit] at ok
  cases ok
  rfl

/-- How the variants of a choice are laid out: by name, which may be asked for where none of them
has fields; else by number, where none has fields; and else with payloads. -/
inductive Arranged {τ : Type} (named unit : Prop) (variants : List (Variant τ)) :
    Layout τ → Prop where
  | byName (asked : named) (plain : unit) : Arranged named unit variants (.byName variants)
  | byIndex (unasked : ¬ named) (plain : unit) : Arranged named unit variants (.byIndex variants)
  | tagged (unasked : ¬ named) (paid : ¬ unit) : Arranged named unit variants (.tagged variants)

/-- The layout of a choice has its variants, with their names. -/
theorem choiceLayout_cases {settings : List Setting} {items : List VariantItem}
    {layout : Layout Code} (ok : choiceLayout settings items = .ok layout) :
    ∃ names variants, items.mapM VariantItem.name = .ok names ∧
      (items.zip names).mapM VariantItem.variant = .ok variants ∧
      Arranged (.asString ∈ settings) (∀ item ∈ items, item.fields.isUnit) variants layout := by
  rw [choiceLayout] at ok
  rcases check_eq_ok.1 ok with ⟨_, ok⟩
  rcases check_eq_ok.1 ok with ⟨_, ok⟩
  rcases bind_eq_ok.1 ok with ⟨names, named, ok⟩
  rcases check_eq_ok.1 ok with ⟨accepted, ok⟩
  rcases bind_eq_ok.1 ok with ⟨variants, converted, ok⟩
  simp only [List.all_eq_true] at accepted ok
  refine ⟨names, variants, named, converted, ?_⟩
  by_cases asked : .asString ∈ settings
  · rw [if_pos asked] at ok
    cases ok
    exact .byName asked (Decidable.not_not.1 fun paid => accepted ⟨asked, paid⟩)
  rw [if_neg asked] at ok
  by_cases plain : ∀ item ∈ items, item.fields.isUnit
  · rw [if_pos plain] at ok
    cases ok
    exact .byIndex asked plain
  · rw [if_neg plain] at ok
    cases ok
    exact .tagged asked plain

theorem plain_choiceLayout {settings : List Setting} {items : List VariantItem}
    {layout : Layout Code} (ok : choiceLayout settings items = .ok layout) : layout.Plain := by
  obtain ⟨names, variants, _, converted, arranged⟩ := choiceLayout_cases ok
  have unit (plain : ∀ item ∈ items, item.fields.isUnit) :
      ∀ variant ∈ variants, variant.fields = none := by
    intro variant member
    obtain ⟨named, inside, same⟩ := mem_of_mapM converted member
    exact VariantItem.fields_eq_none same (plain _ (List.of_mem_zip inside).1)
  cases arranged with
  | byName asked plain => exact unit plain
  | byIndex unasked plain => exact unit plain
  | tagged unasked paid => trivial

/-- A record without fields is nil; any other is a map or an array of the fields that are
declared. -/
theorem recordLayout_cases {settings : List Setting} {items : FieldItems} {layout : Layout Code}
    (ok : recordLayout settings items = .ok layout) :
    layout = .unit ∨ ∃ fields, items.fields = .ok fields ∧
      (layout = .map fields ∨ layout = .array fields) := by
  rw [recordLayout] at ok
  rcases check_eq_ok.1 ok with ⟨_, ok⟩
  by_cases unit : items.isUnit
  · rw [if_pos unit] at ok
    rcases check_eq_ok.1 ok with ⟨_, same⟩
    cases same
    exact .inl rfl
  rw [if_neg unit] at ok
  rcases bind_eq_ok.1 ok with ⟨fields, collected, ok⟩
  by_cases map : .map ∈ settings
  · rw [if_pos map] at ok
    rcases check_eq_ok.1 ok with ⟨_, same⟩
    cases same
    exact .inr ⟨fields, collected, .inl rfl⟩
  · rw [if_neg map] at ok
    cases ok
    exact .inr ⟨fields, collected, .inr rfl⟩

theorem plain_recordLayout {settings : List Setting} {items : FieldItems} {layout : Layout Code}
    (ok : recordLayout settings items = .ok layout) : layout.Plain := by
  obtain rfl | ⟨fields, _, rfl | rfl⟩ := recordLayout_cases ok <;> trivial

/-! ## Items -/

/-- What an item defines has the name of the item and the layout of its record or of its choice,
which goes by the options of the item. -/
theorem Item.definition_cases {item : Item} {definition : Definition Code}
    (ok : item.definition = .ok definition) :
    ∃ settings, Attribute.allSettings .container item.attributes = .ok settings ∧
      definition.name = item.name ∧
      ((∃ items, item.body = .record items ∧
        recordLayout settings items = .ok definition.layout) ∨
      ∃ variants, item.body = .choice variants ∧
        choiceLayout settings variants = .ok definition.layout) := by
  rw [Item.definition] at ok
  rcases check_eq_ok.1 ok with ⟨_, ok⟩
  rcases bind_eq_ok.1 ok with ⟨settings, given, ok⟩
  cases body : item.body with
  | record fields =>
      rw [body] at ok
      rcases bind_eq_ok.1 ok with ⟨layout, chosen, ok⟩
      cases ok
      exact ⟨settings, given, rfl, .inl ⟨fields, rfl, chosen⟩⟩
  | choice variants =>
      rw [body] at ok
      rcases bind_eq_ok.1 ok with ⟨layout, chosen, ok⟩
      cases ok
      exact ⟨settings, given, rfl, .inr ⟨variants, rfl, chosen⟩⟩
  | union =>
      rw [body] at ok
      cases ok

theorem Item.plain_definition {item : Item} {definition : Definition Code}
    (ok : item.definition = .ok definition) : definition.layout.Plain := by
  obtain ⟨settings, _, _, ⟨items, _, chosen⟩ | ⟨variants, _, chosen⟩⟩ := definition_cases ok
  · exact plain_recordLayout chosen
  · exact plain_choiceLayout chosen

/-- The types of the fields do not matter. -/
theorem plain_mapTypes {τ υ : Type} {layout : Layout τ} (plain : layout.Plain)
    (convert : τ → υ) : (layout.mapTypes convert).Plain := by
  have unit {variants : List (Variant τ)} (all : ∀ variant ∈ variants, variant.fields = none) :
      ∀ variant ∈ variants.map (Variant.map convert), variant.fields = none := by
    intro variant member
    rcases List.mem_map.1 member with ⟨origin, held, rfl⟩
    rw [Variant.map, all origin held, Option.map_none]
  cases layout with
  | byIndex variants => exact unit plain
  | byName variants => exact unit plain
  | _ => trivial

/-- The data of a declared type can be told apart just if the names of its layout differ. -/
theorem Item.unambiguous_iff {path : String} {item : Item} {arguments : List Schema}
    {definition : Definition Schema} (ok : item.typeDefinition path arguments = .ok definition) :
    definition.layout.Unambiguous ↔ definition.layout.Distinct := by
  rcases bind_eq_ok.1 ok with ⟨declared, same, ok⟩
  cases ok
  constructor
  · exact Layout.Unambiguous.distinct
  · exact fun distinct => ⟨distinct, plain_mapTypes (plain_definition same) _⟩

end MsgPack.Derive
