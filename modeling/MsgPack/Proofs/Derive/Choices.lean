import MsgPack.Proofs.Derive.Acceptance
import MsgPack.Proofs.Derive.Arrays
import MsgPack.Proofs.Formatter.Choices
import MsgPack.Proofs.Formatter.Extension

/-!
# Derived choices

A declared choice has the variants that are declared, in the same order, under the names that their
attributes give them.  Its formatter reads just the values that pick one of them, and variants that
are added at the end leave alone what could be read before.
-/

namespace MsgPack.Derive

open Attribute (Gives)
open Decode (Follows Framed Picks Rejects)

/-! ## Declared variants -/

/-- Whether a variant of a layout is the one that is declared, with the types of its fields
converted. -/
structure VariantItem.Becomes (convert : Code → Schema) (declared : VariantItem)
    (variant : Variant Schema) : Prop where
  identifier : variant.identifier = declared.identifier
  name : ∃ settings, Attribute.allSettings .field declared.attributes = .ok settings ∧
    variant.name = (Setting.renamed? settings).getD declared.identifier
  unit : declared.fields = .unit → variant.fields = none
  fields : declared.fields ≠ .unit → ∃ fields, variant.fields = some fields ∧
    List.Forall₂ (FieldItem.Becomes convert) declared.fields.members fields

theorem VariantItem.becomes {item : VariantItem} {name : String} {variant : Variant Code}
    (named : item.name = .ok name) (ok : VariantItem.variant (item, name) = .ok variant)
    (convert : Code → Schema) : item.Becomes convert (variant.map convert) := by
  obtain ⟨settings, given, named⟩ := bind_eq_ok.1 named
  have spelled : name = (Setting.renamed? settings).getD item.identifier := by
    have kept := (check_eq_ok.1 named).2
    cases kept
    rfl
  by_cases unit : item.fields.isUnit
  · rw [VariantItem.variant, if_pos unit] at ok
    cases ok
    exact ⟨rfl, ⟨settings, given, spelled⟩, fun _ => rfl,
      fun some => absurd (FieldItems.isUnit_iff.1 unit) some⟩
  · rw [VariantItem.variant, if_neg unit] at ok
    obtain ⟨fields, collected, ok⟩ := bind_eq_ok.1 ok
    cases ok
    refine ⟨rfl, ⟨settings, given, spelled⟩,
      fun none => absurd (FieldItems.isUnit_iff.2 none) unit, fun _ => ⟨_, rfl, ?_⟩⟩
    rw [List.forall₂_map_right_iff]
    exact (forall₂_of_mapM collected).imp fun _ _ converted => FieldItem.becomes converted _

/-- The variants of a choice are those that are declared, in the same order. -/
theorem forall₂_variants {items : List VariantItem} {names : List String}
    {variants : List (Variant Code)} (named : items.mapM VariantItem.name = .ok names)
    (converted : (items.zip names).mapM VariantItem.variant = .ok variants)
    (convert : Code → Schema) :
    List.Forall₂ (VariantItem.Becomes convert) items (variants.map (Variant.map convert)) := by
  rw [List.forall₂_map_right_iff]
  -- Names and variants are made in two passes over the same items, so both lists shrink together.
  have spelled := forall₂_of_mapM named
  have made := forall₂_of_mapM converted
  clear named converted
  induction spelled generalizing variants with
  | nil =>
      cases made
      exact .nil
  | cons named _ ih =>
      cases made with
      | cons converted others =>
          exact .cons (VariantItem.becomes named converted convert) (ih others)

/-- Variants that are declared at the end come behind the others. -/
theorem variants_append {items more : List VariantItem} {names names' : List String}
    {variants variants' : List (Variant Code)} (named : items.mapM VariantItem.name = .ok names)
    (converted : (items.zip names).mapM VariantItem.variant = .ok variants)
    (named' : (items ++ more).mapM VariantItem.name = .ok names')
    (converted' : ((items ++ more).zip names').mapM VariantItem.variant = .ok variants') :
    ∃ added, variants' = variants ++ added := by
  rw [List.mapM_append, named] at named'
  rcases bind_eq_ok.1 named' with ⟨_, same, named'⟩
  cases same
  rcases bind_eq_ok.1 named' with ⟨others, _, same⟩
  cases same
  rw [List.zip_append (forall₂_of_mapM named).length_eq, List.mapM_append, converted] at converted'
  rcases bind_eq_ok.1 converted' with ⟨_, same, converted'⟩
  cases same
  rcases bind_eq_ok.1 converted' with ⟨added, _, same⟩
  cases same
  exact ⟨added, rfl⟩

/-! ## Declared choices -/

theorem Arranged.mapTypes {τ υ : Type} {named unit : Prop} {variants : List (Variant τ)}
    {layout : Layout τ} (arranged : Arranged named unit variants layout) (convert : τ → υ) :
    Arranged named unit (variants.map (Variant.map convert)) (layout.mapTypes convert) := by
  cases arranged with
  | byName asked plain => exact .byName asked plain
  | byIndex unasked plain => exact .byIndex unasked plain
  | tagged unasked paid => exact .tagged unasked paid

theorem Arranged.record?_eq_none {τ : Type} {named unit : Prop} {variants : List (Variant τ)}
    {layout : Layout τ} (arranged : Arranged named unit variants layout) :
    layout.record? = none := by
  cases arranged <;> rfl

/-- With more variants at the end, a choice that is laid out in the same way is extended. -/
theorem Arranged.extends {τ : Type} {named unit unit' : Prop} {variants more : List (Variant τ)}
    {older newer : Layout τ} (arranged : Arranged named unit variants older)
    (grown : Arranged named unit' (variants ++ more) newer) (same : unit ↔ unit') :
    newer.Extends older := by
  cases arranged with
  | byName asked plain =>
      cases grown with
      | byName => exact .byName variants more
      | byIndex unasked | tagged unasked => exact absurd asked unasked
  | byIndex unasked plain =>
      cases grown with
      | byName asked => exact absurd asked unasked
      | byIndex => exact .byIndex variants more
      | tagged _ paid => exact absurd (same.1 plain) paid
  | tagged unasked paid =>
      cases grown with
      | byName asked => exact absurd asked unasked
      | byIndex _ plain => exact absurd (same.2 plain) paid
      | tagged => exact .tagged variants more

/-- What is declared by a choice: the names and the variants that its items have, and the layout
that follows from them. -/
theorem Item.choice_of_typeDefinition {path : String} {item : Item} {arguments : List Schema}
    {items : List VariantItem} {definition : Definition Schema} (body : item.body = .choice items)
    (declared : item.typeDefinition path arguments = .ok definition) :
    definition.name = item.name ∧ ∃ names variants, items.mapM VariantItem.name = .ok names ∧
      (items.zip names).mapM VariantItem.variant = .ok variants ∧
      Arranged (Gives .container item.attributes .asString) (∀ item ∈ items, item.fields = .unit)
        (variants.map (Variant.map (item.fieldType path arguments))) definition.layout := by
  rcases bind_eq_ok.1 declared with ⟨origin, made, ok⟩
  cases ok
  rcases definition_cases made with ⟨settings, given, same, ⟨_, record, _⟩ | ⟨_, choice, chosen⟩⟩
  · cases body.symm.trans record
  cases body.symm.trans choice
  rcases choiceLayout_cases chosen with ⟨names, variants, named, converted, arranged⟩
  simp only [Attribute.mem_allSettings given, FieldItems.isUnit_iff] at arranged
  exact ⟨same, names, variants, named, converted, arranged.mapTypes _⟩

/-- A declared choice is read from the values that pick one of its variants.  Its variants are those
that are declared; they are told apart by name if the options of the choice say so, by number if
none has fields, and else by number and payload.

A well-formed value is read just if it picks a variant: by an integer of any width that is its
number, by a string that is its name, where names differ, or by an array of two, of which one is its
number and the other one is nil, if it has no fields, or an array of just its written fields.  The
reader ends behind the value.  A number or a name of no variant is reported with the name of the
choice, and another number of elements in a payload with that of the variant.

So variants that are added at the end change nothing about what was read without them, if the choice
is still told apart in the same way: neither as a value of its own nor inside any other one. -/
theorem Item.reads_choices {σ : Type} {lookup : Lookup σ} {catalog : Catalog} {name path : String}
    {item : Item} {items : List VariantItem} {arguments : List Schema}
    {definition : Definition Schema} {bytes rest : Bytes} {reader : Reader} {memory : σ}
    (declared : item.typeDefinition path arguments = .ok definition)
    (body : item.body = .choice items) (steady : lookup.Steady)
    (defined : catalog.definition? name = some definition)
    (framed : ∀ index, ∀ field ∈ Field.written (definition.layout.fields index),
      Framed (Decode.value lookup catalog field.type))
    (distinct : ∀ variants, definition.layout = .byName variants →
      (variants.map Variant.name).Nodup)
    (single : WellFormed reader.budget 1 bytes) (unread : reader.cursor.unread = bytes ++ rest) :
    (∃ variants,
      List.Forall₂ (VariantItem.Becomes (item.fieldType path arguments)) items variants ∧
      Arranged (Gives .container item.attributes .asString)
        (∀ variant ∈ items, variant.fields = .unit) variants definition.layout) ∧
    (∀ content kept,
      ((∃ after, Decode.datum lookup catalog .builtin (.named name) ⟨reader, memory⟩ =
          .ok content ⟨after, kept⟩) ↔
        Picks lookup catalog reader.budget memory definition.layout bytes content kept) ∧
      ∀ after, Decode.datum lookup catalog .builtin (.named name) ⟨reader, memory⟩ =
        .ok content ⟨after, kept⟩ → reader.Passed bytes after) ∧
    (∀ failure, Rejects item.name definition.layout bytes failure →
      ∃ after, Decode.datum lookup catalog .builtin (.named name) ⟨reader, memory⟩ =
        .error failure ⟨after, memory⟩) ∧
    ∀ more later,
      ({ item with body := .choice (items ++ more) } : Item).typeDefinition path arguments =
        .ok later →
      ((∀ variant ∈ items, variant.fields = .unit) ↔
        ∀ variant ∈ items ++ more, variant.fields = .unit) →
      ∀ type, Follows (Decode.datum lookup (catalog.redefined name later) .builtin type)
        (Decode.datum lookup catalog .builtin type) := by
  obtain ⟨same, names, variants, named, converted, arranged⟩ :=
    choice_of_typeDefinition body declared
  refine ⟨⟨_, forall₂_variants named converted _, arranged⟩, fun content kept => ?_, ?_, ?_⟩
  · exact Decode.datum_choice_iff steady defined single unread arranged.record?_eq_none framed
      distinct
  · rw [← same]
    exact fun failure => Decode.datum_choice_error steady defined single unread
  · intro more later grown kind type
    obtain ⟨same', names', variants', named', converted', arranged'⟩ :=
      choice_of_typeDefinition rfl grown
    obtain ⟨added, rfl⟩ := variants_append named converted named' converted'
    rw [List.map_append] at arranged'
    have extended : later.Extends definition :=
      ⟨same'.trans same.symm, arranged.extends arranged' kind⟩
    exact Decode.follows_datum_extended (Catalog.extends_redefined defined extended) type

/-- A dot under another name, which has a number and a field that is never written. -/
def dotItem : VariantItem :=
  ⟨"Dot", [.renaming "dot"],
    .tuple [⟨[.word "u8"], []⟩, ⟨[.word "bool"], [.options [.word "skip"]]⟩]⟩

/-- A choice between nothing and a dot. -/
def Item.shape : Item :=
  ⟨"Shape", [], [], [], .choice [⟨"Nothing", [], .unit⟩, dotItem]⟩

/-- The fields of a dot in its layout. -/
def dotFields : List (Field Schema) :=
  [⟨"0", "0", .scalar (.int .u8), false, false⟩, ⟨"1", "1", .scalar .bool, true, false⟩]

/-- The variants of a shape in its layout. -/
def shapeLayout : List (Variant Schema) :=
  [⟨"Nothing", "Nothing", none⟩, ⟨"Dot", "dot", some dotFields⟩]

/-- The catalog of shapes. -/
def shapeCatalog : Catalog :=
  .ofDefinitions [("Shape", ⟨"Shape", .tagged shapeLayout⟩)]

/-- The catalog of shapes with one variant more. -/
def shapesGrown : Catalog :=
  shapeCatalog.redefined "Shape" ⟨"Shape", .tagged (shapeLayout ++ [⟨"Line", "Line", some []⟩])⟩

/-- Nothing is read from its number and nil, a number of no variant and a dot without elements are
refused, and a dot is still read where there is another variant behind it. -/
theorem Item.reads_choices_of_shapes :
    (∃ after, Decode.datum (.standard shapeCatalog) shapeCatalog .builtin (.named "Shape")
        ⟨.ofCursor (.ofBytes [0x92, 0x00, 0xc0]) 9, ()⟩ = .ok (.variant 0 []) ⟨after, ()⟩) ∧
    (∃ after, Decode.datum (.standard shapeCatalog) shapeCatalog .builtin (.named "Shape")
        ⟨.ofCursor (.ofBytes [0x92, 0x02, 0xc0]) 9, ()⟩ =
      .error (.invalidValue (.variantIndex 2 "Shape")) ⟨after, ()⟩) ∧
    (∃ after, Decode.datum (.standard shapeCatalog) shapeCatalog .builtin (.named "Shape")
        ⟨.ofCursor (.ofBytes [0x92, 0x01, 0x90]) 9, ()⟩ =
      .error (.countMismatch "Shape::dot" 1 0) ⟨after, ()⟩) ∧
    ∃ after, Decode.datum (.standard shapesGrown) shapesGrown .builtin (.named "Shape")
        ⟨.ofCursor (.ofBytes [0x92, 0x01, 0x91, 0x07]) 9, ()⟩ =
      .ok (.variant 1 [.atom (.int 7), .atom (.bool false)]) ⟨after, ()⟩ := by
  have two : HeaderGives Format.array? [0x92] 2 := @arrayHeader_gives 2 (by decide)
  have empty : HeaderGives Format.array? [0x90] 0 := @arrayHeader_gives 0 (by decide)
  have numbered (index : Nat) (low : index < 0x80) :
      Decode.Numbered (IntegerForm.positiveFix.encode index) index := by
    constructor
    · exact IntegerForm.stands_encode ⟨Int.natCast_nonneg index, Int.ofNat_lt.2 low⟩
    · exact Nat.lt_trans low (by decide)
  have nothing : Content.nil.Stands [0xc0] := ⟨rfl, rfl⟩
  have pair {payload : Bytes} (index : Nat) (low : index < 0x80)
      (single : WellFormed 8 1 payload) :
      WellFormed 9 1 ([0x92] ++ (IntegerForm.positiveFix.encode index ++ payload)) :=
    two.wellFormed (((numbered index low).stands.leaf.wellFormed 8).append single)
  have reads (bytes : Bytes) (single : WellFormed 9 1 bytes) :=
    @reads_choices Unit (.standard shapeCatalog) shapeCatalog "Shape" "" shape _ []
      ⟨"Shape", .tagged shapeLayout⟩ bytes [] (.ofCursor (.ofBytes bytes) 9) () rfl rfl
      (Lookup.described_standard shapeCatalog).steady rfl
      (fun _ field _ => Decode.framed_value (Lookup.described_standard shapeCatalog) _ field.type)
      nofun single (by rw [List.append_nil]; exact Cursor.unread_ofBytes _)
  have unpaid (index : Nat) (low : index < 0x80) :=
    reads _ (pair index low (nothing.leaf.wellFormed 8))
  refine ⟨?_, ?_, ?_, ?_⟩
  · obtain ⟨_, exactly, _⟩ := unpaid 0 (by decide)
    exact (exactly _ ()).1.2 (.tagged two (numbered 0 (by decide)) rfl (.empty rfl nothing))
  · obtain ⟨_, _, refuses, _⟩ := unpaid 2 (by decide)
    exact refuses _ (.number two (numbered 2 (by decide)) (by decide))
  · obtain ⟨_, _, refuses, _⟩ := reads _ (pair 1 (by decide) (empty.wellFormed .done))
    have other : 0 ≠ (Field.written dotFields).length := by decide
    have rejects : Rejects "Shape" (.tagged shapeLayout) ([0x92] ++ (_ ++ ([0x90] ++ []))) _ :=
      .count two (numbered 1 (by decide)) rfl rfl empty other
    exact refuses _ rejects
  · obtain ⟨_, _, _, grows⟩ := unpaid 0 (by decide)
    have paid {items : List VariantItem} (held : dotItem ∈ items) :
        ¬ ∀ variant ∈ items, variant.fields = .unit :=
      fun unit => nomatch unit dotItem held
    rw [shapesGrown, Catalog.standard_redefined rfl]
    exact ⟨_, grows [⟨"Line", [], .named []⟩] _ rfl
      (iff_of_false (paid (by simp)) (paid (by simp))) (.named "Shape") rfl⟩

end MsgPack.Derive
