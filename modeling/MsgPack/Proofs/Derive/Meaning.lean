import MsgPack.Proofs.Derive.Acceptance
import MsgPack.Proofs.Derive.RoundTrip

/-!
# Attributes and what they mean

Of the attributes of one place only the options count that they give: not how these are distributed
over lists, in which order they stand, how often a flag is given, where commas end a list, or which
foreign attributes stand between them.  Only names override each other, so of these there must be
one at most.  For two items that differ in nothing else the same code is derived.
-/

namespace MsgPack.Derive

/-! ## Attributes that give the same options -/

namespace Attribute

variable {scope : Scope} {given : Attribute} {attributes left right : List Attribute}
variable {setting : Setting} {settings : List Setting}

/-- Attributes of one place that give the same options, and at most one name. -/
structure Alike (scope : Scope) (left right : List Attribute) : Prop where
  same : ∀ setting, Gives scope left setting ↔ Gives scope right setting
  single : ∀ name other, Gives scope left (.rename name) → Gives scope left (.rename other) →
    name = other

theorem gives_cons : Gives scope (given :: attributes) setting ↔
    (∃ settings, given.Holds scope settings ∧ setting ∈ settings) ∨
      Gives scope attributes setting := by
  simp only [Gives, List.mem_cons, exists_eq_or_imp]

/-- A foreign attribute gives nothing. -/
theorem gives_cons_foreign (foreign : given.isOwn = false) :
    Gives scope (given :: attributes) setting ↔ Gives scope attributes setting := by
  simp [gives_cons, Holds, foreign]

/-- The attributes may stand in any order. -/
theorem gives_perm (perm : left.Perm right) :
    Gives scope left setting ↔ Gives scope right setting := by
  simp only [Gives, perm.mem_iff]

/-- A list gives each of its options, at whatever place it stands there and however often. -/
theorem gives_cons_holds (holds : given.Holds scope settings) :
    Gives scope (given :: attributes) setting ↔
      setting ∈ settings ∨ Gives scope attributes setting := by
  rw [gives_cons]
  apply or_congr_left
  constructor
  · rintro ⟨listed, holds', member⟩
    rwa [holds.unique holds']
  · exact fun member => ⟨settings, holds, member⟩

/-- What a list gives may be given by two lists as well, whether or not a comma ends them. -/
theorem gives_split {first second : Attribute} {start rest : List Setting}
    (holds : given.Holds scope (start ++ rest)) (head : first.Holds scope start)
    (tail : second.Holds scope rest) :
    Gives scope (given :: attributes) setting ↔
      Gives scope (first :: second :: attributes) setting := by
  rw [gives_cons_holds holds, gives_cons_holds head, gives_cons_holds tail, List.mem_append,
    or_assoc]

end Attribute

/-! ## Names -/

namespace Setting

variable {settings others : List Setting}

/-- The name of options that give one at most is the one that they give. -/
theorem renamed?_eq_some_iff {name : String}
    (single : ∀ name other, .rename name ∈ settings → .rename other ∈ settings → name = other) :
    renamed? settings = some name ↔ .rename name ∈ settings := by
  rw [renamed?]
  constructor
  · intro found
    rcases List.exists_of_findSome?_eq_some found with ⟨setting, member, same⟩
    cases setting <;> cases same
    exact List.mem_reverse.1 member
  · intro member
    cases found : settings.reverse.findSome? _ with
    | none =>
        have missed := List.findSome?_eq_none_iff.1 found _ (List.mem_reverse.2 member)
        cases missed
    | some other =>
        rcases List.exists_of_findSome?_eq_some found with ⟨setting, inside, same⟩
        cases setting <;> cases same
        rw [single name other member (List.mem_reverse.1 inside)]

/-- The name does not depend on the order of options that give one at most. -/
theorem renamed?_congr (same : ∀ setting, setting ∈ settings ↔ setting ∈ others)
    (single : ∀ name other, .rename name ∈ settings → .rename other ∈ settings → name = other) :
    renamed? settings = renamed? others := by
  have single' : ∀ name other, .rename name ∈ others → .rename other ∈ others → name = other := by
    simpa only [same] using single
  apply Option.ext
  intro name
  rw [renamed?_eq_some_iff single, renamed?_eq_some_iff single', same]

end Setting

/-- Attributes that are alike are read as options with the same members and the same name. -/
theorem Attribute.Alike.settings {scope : Scope} {left right : List Attribute}
    (alike : Alike scope left right) (listed : ∀ given ∈ left, given.IsListed scope)
    (listed' : ∀ given ∈ right, given.IsListed scope) :
    ∃ settings others, allSettings scope left = .ok settings ∧
      allSettings scope right = .ok others ∧
      (∀ setting, setting ∈ settings ↔ setting ∈ others) ∧
      Setting.renamed? settings = Setting.renamed? others := by
  rcases exists_allSettings_iff.2 listed with ⟨settings, read⟩
  rcases exists_allSettings_iff.2 listed' with ⟨others, read'⟩
  have same : ∀ setting, setting ∈ settings ↔ setting ∈ others := by
    intro setting
    rw [mem_allSettings read, mem_allSettings read', alike.same]
  refine ⟨settings, others, read, read', same, Setting.renamed?_congr same ?_⟩
  simpa only [mem_allSettings read] using alike.single

/-- Attributes are alike if they are read as options with the same members and one name at most. -/
theorem Attribute.alike_of_settings {scope : Scope} {left right : List Attribute}
    (settings others : List Setting) (read : allSettings scope left = .ok settings)
    (read' : allSettings scope right = .ok others)
    (same : ∀ setting, setting ∈ settings ↔ setting ∈ others)
    (single : ∀ name other, .rename name ∈ settings → .rename other ∈ settings → name = other) :
    Alike scope left right where
  same setting := by rw [← mem_allSettings read, ← mem_allSettings read', same]
  single name other := by
    rw [← mem_allSettings read, ← mem_allSettings read]
    exact single name other

/-! ## Items that differ in their attributes only -/

/-- Fields of one type with attributes that are alike. -/
structure FieldItem.Alike (left right : FieldItem) : Prop where
  type : left.type = right.type
  attributes : Attribute.Alike .field left.attributes right.attributes

/-- Fields of the same names, one by one alike. -/
inductive FieldItems.Alike : FieldItems → FieldItems → Prop where
  | unit : Alike .unit .unit
  | named {left right : List (String × FieldItem)}
      (fields : List.Forall₂ (fun first second => first.1 = second.1 ∧
        first.2.Alike second.2) left right) : Alike (.named left) (.named right)
  | tuple {left right : List FieldItem} (fields : List.Forall₂ FieldItem.Alike left right) :
      Alike (.tuple left) (.tuple right)

/-- Variants of one name with attributes and fields that are alike. -/
structure VariantItem.Alike (left right : VariantItem) : Prop where
  identifier : left.identifier = right.identifier
  attributes : Attribute.Alike .field left.attributes right.attributes
  fields : left.fields.Alike right.fields

/-- Bodies of one kind with fields or variants that are alike. -/
inductive Body.Alike : Body → Body → Prop where
  | record {left right : FieldItems} (fields : left.Alike right) :
      Alike (.record left) (.record right)
  | choice {left right : List VariantItem}
      (variants : List.Forall₂ VariantItem.Alike left right) : Alike (.choice left) (.choice right)
  | union : Alike .union .union

/-- Items that differ only in their attributes and in those of their variants and fields, and
these are alike. -/
structure Item.Alike (left right : Item) : Prop where
  name : left.name = right.name
  parameters : left.parameters = right.parameters
  conditions : left.conditions = right.conditions
  attributes : Attribute.Alike .container left.attributes right.attributes
  body : left.body.Alike right.body

/-! ## Equal layouts -/

/-- Items that are converted alike one by one are converted alike. -/
theorem mapM_congr {ε α β γ : Type} {related : α → β → Prop} {convert : α → Except ε γ}
    {other : β → Except ε γ} {left : List α} {right : List β}
    (items : List.Forall₂ related left right)
    (same : ∀ first ∈ left, ∀ second ∈ right, related first second →
      convert first = other second) : left.mapM convert = right.mapM other := by
  induction items with
  | nil => rfl
  | cons first _ ih =>
      rw [List.mapM_cons, List.mapM_cons,
        same _ List.mem_cons_self _ List.mem_cons_self first, ih]
      exact fun first inside second inside' =>
        same first (List.mem_cons_of_mem _ inside) second (List.mem_cons_of_mem _ inside')

/-- Lists that are related item by item are so with the numbers of their items. -/
theorem forall₂_zipIdx {α β : Type} {related : α → β → Prop} {left : List α} {right : List β}
    (items : List.Forall₂ related left right) (start : Nat) :
    List.Forall₂ (fun first second => first.2 = second.2 ∧ related first.1 second.1)
      (left.zipIdx start) (right.zipIdx start) := by
  induction items generalizing start with
  | nil => exact .nil
  | cons first _ ih => exact .cons ⟨rfl, first⟩ (ih (start + 1))

/-- What follows a success goes on with its result. -/
theorem ok_bind {ε α β : Type} (found : α) (next : α → Except ε β) :
    Except.ok found >>= next = next found :=
  rfl

/-- Fields that are alike become the same field of a layout. -/
theorem FieldItem.Alike.field_eq {left right : String × FieldItem} (name : left.1 = right.1)
    (alike : left.2.Alike right.2) (listed : ∀ given ∈ left.2.attributes, given.IsListed .field)
    (listed' : ∀ given ∈ right.2.attributes, given.IsListed .field) :
    FieldItem.field left = FieldItem.field right := by
  rcases alike.attributes.settings listed listed' with ⟨settings, others, read, read', same, key⟩
  rw [FieldItem.field, FieldItem.field, read, read', alike.type, name]
  simp only [ok_bind, same, key]

namespace FieldItems

variable {left right : FieldItems}

theorem Alike.members (alike : left.Alike right) :
    List.Forall₂ (fun first second => first.1 = second.1 ∧ first.2.Alike second.2)
      left.members right.members := by
  cases alike with
  | unit => exact .nil
  | named fields => exact fields
  | tuple fields =>
      rw [FieldItems.members, FieldItems.members, List.forall₂_map_left_iff,
        List.forall₂_map_right_iff]
      apply (forall₂_zipIdx fields 0).imp
      rintro first second ⟨place, alike⟩
      exact ⟨by rw [place], alike⟩

theorem Alike.isUnit_eq (alike : left.Alike right) : left.isUnit = right.isUnit := by
  cases alike <;> rfl

theorem Alike.isTuple_eq (alike : left.Alike right) : left.isTuple = right.isTuple := by
  cases alike <;> rfl

/-- Fields that are alike become the same fields of a layout. -/
theorem Alike.fields_eq (alike : left.Alike right) (listed : left.IsListed)
    (listed' : right.IsListed) : left.fields = right.fields := by
  apply mapM_congr alike.members
  rintro first inside second inside' ⟨name, fields⟩
  exact fields.field_eq name (listed first inside) (listed' second inside')

end FieldItems

namespace VariantItem.Alike

variable {left right : VariantItem}

/-- Variants that are alike have one name. -/
theorem name_eq (alike : left.Alike right) (derivable : left.Derivable)
    (derivable' : right.Derivable) : left.name = right.name := by
  rcases alike.attributes.settings derivable.listed derivable'.listed with
    ⟨settings, others, read, read', same, key⟩
  rw [VariantItem.name, VariantItem.name, read, read', alike.identifier]
  simp only [ok_bind, same, key]

/-- Variants that are alike become the same variant of a layout. -/
theorem variant_eq (alike : left.Alike right) (derivable : left.Derivable)
    (derivable' : right.Derivable) (name : String) :
    VariantItem.variant (left, name) = VariantItem.variant (right, name) := by
  rw [VariantItem.variant, VariantItem.variant, alike.fields.isUnit_eq, alike.identifier,
    alike.fields.fields_eq derivable.fields derivable'.fields]

end VariantItem.Alike

/-! ## Items -/

variable {settings others : List Setting}

/-- Only the options of a record matter for its layout. -/
theorem recordLayout_congr {left right : FieldItems} (alike : left.Alike right)
    (listed : left.IsListed) (listed' : right.IsListed)
    (same : ∀ setting, setting ∈ settings ↔ setting ∈ others) :
    recordLayout settings left = recordLayout others right := by
  simp only [recordLayout, same, alike.isUnit_eq, alike.isTuple_eq,
    alike.fields_eq listed listed']

/-- Variants that are alike become the same variants, whatever their names. -/
theorem mapM_variant_congr {left right : List VariantItem}
    (alike : List.Forall₂ VariantItem.Alike left right) (derivable : ∀ item ∈ left, item.Derivable)
    (derivable' : ∀ item ∈ right, item.Derivable) (names : List String) :
    (left.zip names).mapM VariantItem.variant = (right.zip names).mapM VariantItem.variant := by
  induction alike generalizing names with
  | nil => rfl
  | cons first _ ih =>
      rw [List.forall_mem_cons] at derivable derivable'
      cases names with
      | nil => rfl
      | cons name names =>
          rw [List.zip_cons_cons, List.zip_cons_cons, List.mapM_cons, List.mapM_cons,
            first.variant_eq derivable.1 derivable'.1, ih derivable.2 derivable'.2]

/-- Only the options of a choice matter for its layout. -/
theorem choiceLayout_congr {left right : List VariantItem}
    (alike : List.Forall₂ VariantItem.Alike left right) (derivable : ∀ item ∈ left, item.Derivable)
    (derivable' : ∀ item ∈ right, item.Derivable)
    (same : ∀ setting, setting ∈ settings ↔ setting ∈ others) :
    choiceLayout settings left = choiceLayout others right := by
  have empty : left.isEmpty = right.isEmpty := by
    cases alike <;> rfl
  have unit : (left.all fun item => item.fields.isUnit) =
      right.all fun item => item.fields.isUnit := by
    clear empty derivable derivable'
    induction alike with
    | nil => rfl
    | cons first _ ih => rw [List.all_cons, List.all_cons, first.fields.isUnit_eq, ih]
  have names : left.mapM VariantItem.name = right.mapM VariantItem.name :=
    mapM_congr alike fun first inside second inside' alike =>
      alike.name_eq (derivable first inside) (derivable' second inside')
  simp only [choiceLayout, same, empty, unit, names, mapM_variant_congr alike derivable derivable']

/-- Items that are alike have one layout, if they have any. -/
theorem Item.definition_congr {left right : Item} (derivable : left.Derivable)
    (derivable' : right.Derivable) (alike : left.Alike right) :
    left.definition = right.definition := by
  rcases alike.attributes.settings derivable.listed derivable'.listed with
    ⟨settings, others, read, read', same, _⟩
  have fits := derivable.body
  have fits' := derivable'.body
  have bodies := alike.body
  rw [Item.definition, Item.definition, alike.parameters, alike.name, read, read', ok_bind, ok_bind]
  revert fits fits' bodies
  generalize left.body = body
  generalize right.body = body'
  rintro fits fits' (⟨fields⟩ | ⟨variants⟩ | _)
  · simp only [recordLayout_congr fields fits.listed fits'.listed same]
  · simp only [choiceLayout_congr variants fits.variants fits'.variants same]
  · rfl

/-- For items that differ only in how their options are written the same code is derived. -/
theorem Item.expand_congr {left right : Item} (accepted : ∃ code, left.expand = .ok code)
    (accepted' : ∃ code, right.expand = .ok code) (alike : left.Alike right) :
    left.expand = right.expand := by
  rw [exists_expand_iff, exists_definition_iff] at accepted accepted'
  have same := definition_congr accepted accepted' alike
  simp only [Item.expand, formatterCode, formattableCode, implementationHeader, whereClause,
    typeCode, same, alike.name, alike.parameters, alike.conditions]

/-- A record with one attribute at each place. -/
def Item.gathered : Item :=
  ⟨"Entry", [.options [.word "map"]], [], [],
    .record (.named [
      ("number", ⟨[.word "u8"], [.options [.word "rename", .mark '=',
        .string (Quoted.literal "n") "n", .mark ',', .word "default"]]⟩),
      ("seen", ⟨[.word "bool"], [.options [.word "skip"]]⟩)])⟩

/-- The same record with its options repeated, in another order, and in several attributes, one of
which is empty and one foreign. -/
def Item.scattered : Item :=
  ⟨"Entry", [.options [.word "map", .mark ',', .word "map", .mark ',']], [], [],
    .record (.named [
      ("number", ⟨[.word "u8"], [.options [.word "default", .mark ','], ⟨[.word "doc"], .assigned⟩,
        .renaming "n"]⟩),
      ("seen", ⟨[.word "bool"], [.options [], .options [.word "skip", .mark ',', .word "skip"]]⟩)])⟩

/-- The same code is derived for both records. -/
theorem Item.expand_scattered : gathered.Alike scattered ∧
    (∃ code, gathered.expand = .ok code) ∧ gathered.expand = scattered.expand := by
  have number : FieldItem.Alike ⟨[.word "u8"], [.options [.word "rename", .mark '=',
      .string (Quoted.literal "n") "n", .mark ',', .word "default"]]⟩ ⟨[.word "u8"],
        [.options [.word "default", .mark ','], ⟨[.word "doc"], .assigned⟩, .renaming "n"]⟩ :=
    ⟨rfl, Attribute.alike_of_settings [.rename "n", .lenient] [.lenient, .rename "n"] rfl rfl
      (by simp [or_comm]) (by simp)⟩
  have seen : FieldItem.Alike ⟨[.word "bool"], [.options [.word "skip"]]⟩ ⟨[.word "bool"],
      [.options [], .options [.word "skip", .mark ',', .word "skip"]]⟩ :=
    ⟨rfl, Attribute.alike_of_settings [.skip] [.skip, .skip] rfl rfl (by simp) (by simp)⟩
  have alike : gathered.Alike scattered :=
    { name := rfl
      parameters := rfl
      conditions := rfl
      attributes := Attribute.alike_of_settings [.map] [.map, .map] rfl rfl (by simp) (by simp)
      body := .record (.named (.cons ⟨rfl, number⟩ (.cons ⟨rfl, seen⟩ .nil))) }
  have accepted : ∃ code, gathered.expand = .ok code := ⟨_, rfl⟩
  exact ⟨alike, accepted, Item.expand_congr accepted ⟨_, rfl⟩ alike⟩

end MsgPack.Derive
