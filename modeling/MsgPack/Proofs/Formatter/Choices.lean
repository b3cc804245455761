import MsgPack.Proofs.Formatter.ArrayFields
import MsgPack.Proofs.Formatter.Returning

/-!
# Choices and the values that pick a variant

A choice without payloads is picked by the number or by the name of a variant, and nothing else.
One with payloads is picked by an array of two: the number of a variant, and nil if the variant has
no fields or else an array of exactly its written fields.  Unlike a record, a variant tolerates
neither missing nor extra elements, although its fields are read in the same way.
-/

namespace MsgPack

/-- Two rows of as many values, of which one begins where the other one does, are the same. -/
theorem WellFormed.same {deep levels count : Nat} {front row rest others : Bytes}
    (first : WellFormed deep count front) (given : WellFormed levels count row)
    (joined : front ++ rest = row ++ others) : front = row ∧ rest = others := by
  rcases first.of_front (Nat.add_zero count ▸ given) joined with ⟨_, tail, same, empty⟩
  rw [empty.eq_nil, List.nil_append] at same
  rw [same] at joined
  exact ⟨List.append_cancel_right joined, same⟩

/-- In a row, what is behind a value that holds no others is a row. -/
theorem Leaf.behind {levels count : Nat} {first row : Bytes} (leaf : Leaf first)
    (given : WellFormed levels (count + 1) (first ++ row)) : WellFormed levels count row := by
  have whole : first ++ row = first ++ row ++ [] := (List.append_nil _).symm
  rcases WellFormed.of_leaf leaf whole given with ⟨tail, same, given⟩
  rwa [same, List.append_nil]

namespace HeaderGives

variable {header items : Bytes} {levels count : Nat}

theorem opens_array (gives : HeaderGives Format.array? header count) : Opens header count := by
  have opens := gives.opens fun _ _ code known => Format.announcement_of_array known code
  rwa [Nat.mul_one] at opens

/-- The items of an array are nested one level less deep than the array. -/
theorem inside (gives : HeaderGives Format.array? header count)
    (given : WellFormed levels 1 (header ++ items)) :
    ∃ below, levels = below + 1 ∧ WellFormed below count items := by
  have whole : header ++ items = header ++ items ++ [] := (List.append_nil _).symm
  rcases WellFormed.of_opens gives.opens_array whole given with
    ⟨below, row, tail, rfl, same, nested, empty⟩
  rw [empty.eq_nil, List.nil_append, List.append_nil] at same
  exact ⟨below, rfl, same ▸ nested⟩

/-- A row of values behind the header that announces it is an array. -/
theorem wellFormed (gives : HeaderGives Format.array? header count)
    (row : WellFormed levels count items) : WellFormed (levels + 1) 1 (header ++ items) := by
  rw [← List.append_nil (header ++ items)]
  exact .opened gives.opens_array row .done

/-- A certain count is read from any header that gives it, where that many values follow. -/
theorem takesBefore (gives : HeaderGives Format.array? header count)
    (row : WellFormed levels count items) (typeName : String) :
    Read.TakesBefore items (Read.arrayOf count typeName) header () := by
  intro reader rest unread
  refine (Read.accepts_arrayOf count typeName).complete ⟨gives, ?_⟩ unread
  rw [List.length_append]
  exact Nat.le_add_right_of_le row.count_le_length

end HeaderGives

namespace Decode

open Session

variable {σ α β : Type} {lookup : Lookup σ} {catalog : Catalog} {budget : Nat} {memory kept : σ}
variable {name : String} {variants : List (Variant Schema)} {variant : Variant Schema}
variable {bytes others rest : Bytes} {index : Nat} {values : List Datum}

/-! ## Numbers -/

/-- Bytes of an integer, in whatever form it is written, that fits into 32 bits. -/
structure Numbered (bytes : Bytes) (index : Nat) : Prop where
  stands : (Content.integer index).Stands bytes
  narrow : index < 0x100000000

theorem Numbered.takes (numbered : Numbered bytes index) :
    Read.Takes 0 (Read.int .u32) bytes index := by
  have contained : IntRange.u32.Contains index := by
    constructor
    · exact Int.natCast_nonneg _
    · exact Int.le_of_lt_add_one (Int.ofNat_lt.2 numbered.narrow)
  exact .of_accepts (Read.accepts_int .u32) fun _ => ⟨numbered.stands, contained⟩

theorem numbered_of_int {reader after : Reader} {number : Int}
    (ok : Read.int .u32 reader = .ok number after) :
    ∃ bytes, Numbered bytes number.toNat ∧ reader.Passed bytes after := by
  rcases (Read.accepts_int .u32).sound ok with ⟨bytes, ⟨stands, contained⟩, passed⟩
  have natural : (number.toNat : Int) = number := Int.toNat_of_nonneg contained.1
  have high : number ≤ 0xffffffff := contained.2
  exact ⟨bytes, ⟨natural.symm ▸ stands, by omega⟩, passed⟩

/-! ## What picks a variant -/

/-- The payload of a variant: nil if it has no fields, and else an array of the values of those
that are written. -/
inductive Pays (lookup : Lookup σ) (catalog : Catalog) (budget : Nat) (memory : σ)
    (variant : Variant Schema) : Bytes → List Datum → σ → Prop where
  | empty {bytes : Bytes} (plain : variant.fields = none) (nothing : Content.nil.Stands bytes) :
      Pays lookup catalog budget memory variant bytes [] memory
  | filled {fields : List (Field Schema)} {header : Bytes} {elements : List Bytes}
      {contents : List Datum} {kept : σ} (given : variant.fields = some fields)
      (counted : HeaderGives Format.array? header (Field.written fields).length)
      (read : Elements lookup catalog (budget - 1) ((Field.written fields).map Field.type) elements
        memory contents kept) :
      Pays lookup catalog budget memory variant (header ++ elements.flatten)
        (filled catalog fields contents) kept

/-- A value that picks a variant of a choice, and what is read from it. -/
inductive Picks (lookup : Lookup σ) (catalog : Catalog) (budget : Nat) (memory : σ) :
    Layout Schema → Bytes → Datum → σ → Prop where
  | byIndex {variants : List (Variant Schema)} {variant : Variant Schema} {bytes : Bytes}
      {index : Nat} (numbered : Numbered bytes index) (held : variants[index]? = some variant) :
      Picks lookup catalog budget memory (.byIndex variants) bytes (.variant index []) memory
  | byName {variants : List (Variant Schema)} {variant : Variant Schema} {bytes : Bytes}
      {index : Nat} (stands : (Content.string (Utf8.encode variant.name)).Stands bytes)
      (held : variants[index]? = some variant) :
      Picks lookup catalog budget memory (.byName variants) bytes (.variant index []) memory
  | tagged {variants : List (Variant Schema)} {variant : Variant Schema}
      {header number payload : Bytes} {index : Nat} {values : List Datum} {kept : σ}
      (two : HeaderGives Format.array? header 2) (numbered : Numbered number index)
      (held : variants[index]? = some variant)
      (pays : Pays lookup catalog (budget - 1) memory variant payload values kept) :
      Picks lookup catalog budget memory (.tagged variants) (header ++ (number ++ payload))
        (.variant index values) kept

section

variable {fields : List (Field Schema)} {elements : List Bytes} {contents : List Datum}

theorem Elements.row {types : List Schema}
    (read : Elements lookup catalog budget types elements memory contents kept) :
    WellFormed elements.flatten.length types.length elements.flatten := by
  induction read with
  | nil => exact .done
  | cons single _ _ ih =>
      rw [List.flatten_cons, List.length_append, List.length_cons, Nat.add_comm _ 1]
      exact (single.mono (Nat.le_add_right ..)).append (ih.mono (Nat.le_add_left ..))

/-- An array that has just the elements of the written fields. -/
theorem arrives_iff (exact_ : elements.length = (Field.written fields).length) :
    Arrives lookup catalog budget fields elements memory contents kept ↔
      Elements lookup catalog budget ((Field.written fields).map Field.type) elements memory
        contents kept := by
  have types : (Field.written fields).take elements.length = Field.written fields :=
    List.take_of_length_le (Nat.le_of_eq exact_.symm)
  have taken : elements.take (Field.written fields).length = elements :=
    List.take_of_length_le (Nat.le_of_eq exact_)
  have left : elements.drop (Field.written fields).length = [] :=
    List.drop_eq_nil_of_le (Nat.le_of_eq exact_)
  constructor
  · rintro ⟨present, _⟩
    rwa [types, taken] at present
  · intro read
    refine ⟨?_, ?_⟩
    · rwa [types, taken]
    · rw [left]
      exact fun _ none => absurd none List.not_mem_nil

end

/-- A payload is one value. -/
theorem Pays.wellFormed (pays : Pays lookup catalog budget memory variant bytes values kept) :
    ∃ levels, WellFormed levels 1 bytes := by
  cases pays with
  | empty plain nothing => exact ⟨0, nothing.leaf.wellFormed 0⟩
  | filled given counted read =>
      have row := read.row
      rw [List.length_map] at row
      exact ⟨_, counted.wellFormed row⟩

/-- What picks a variant is one value. -/
theorem Picks.wellFormed {layout : Layout Schema} {content : Datum}
    (picks : Picks lookup catalog budget memory layout bytes content kept) :
    ∃ levels, WellFormed levels 1 bytes := by
  cases picks with
  | byIndex numbered held => exact ⟨0, numbered.stands.leaf.wellFormed 0⟩
  | byName stands held => exact ⟨0, stands.leaf.wellFormed 0⟩
  | tagged two numbered held pays =>
      rcases pays.wellFormed with ⟨levels, single⟩
      exact ⟨_, two.wellFormed ((numbered.stands.leaf.wellFormed levels).append single)⟩

/-! ## Picking a variant -/

namespace Gets

theorem andThen {first : Decode σ α} {next : α → Decode σ β} {found : α} {result : β}
    {between : σ} (head : Gets first budget memory bytes found between)
    (tail : Gets (next found) budget between [] result kept) :
    Gets (first >>= next) budget memory bytes result kept := by
  rw [← List.append_nil bytes]
  exact head.bind tail

/-- A read without the lookup that goes by what follows its bytes. -/
theorem liftThen {first : Read α} {next : α → Decode σ β} {found : α} {result : β}
    (head : Read.TakesBefore others first bytes found)
    (tail : Gets (next found) budget memory others result kept) :
    Gets (Session.lift first >>= next) budget memory (bytes ++ others) result kept := by
  intro reader rest room unread
  rw [List.append_assoc] at unread
  rcases head reader rest unread with ⟨middle, ok, passed⟩
  rcases tail middle rest (passed.budget.trans room) (passed.unread_eq unread) with
    ⟨after, done, through⟩
  exact ⟨after, bind_eq_ok.2 ⟨found, _, lift_eq_ok.2 ⟨ok, rfl⟩, done⟩, passed.trans through⟩

/-- A read without the lookup that needs no levels. -/
theorem of_takes {read : Read α} {result : α} (takes : Read.Takes 0 read bytes result) :
    Gets (Session.lift read : Decode σ α) budget memory bytes result memory :=
  .lift fun reader rest _ unread => takes reader rest unread (Nat.zero_le _)

end Gets

/-- With all its elements a variant is complete. -/
theorem construct_of_elements {fields : List (Field Schema)} {elements : List Bytes}
    {contents : List Datum} {typeName : String}
    (read : Elements lookup catalog budget ((Field.written fields).map Field.type) elements memory
      contents kept) :
    construct catalog typeName fields (placed fields contents) =
      .ok (filled catalog fields contents) := by
  have length := read.length_eq.2
  rw [List.length_map] at length
  apply construct_placed
  rw [length, List.drop_length]
  exact fun _ none => absurd none List.not_mem_nil

/-- The payload of a variant is read, if the reader may open it. -/
theorem Pays.gets (pays : Pays lookup catalog budget memory variant bytes values kept)
    (deep : WellFormed budget 1 bytes) (name : String) :
    Gets (payload lookup catalog (datum lookup catalog) name variant) budget memory bytes values
      kept := by
  cases pays with
  | empty plain nothing =>
      have none : Read.Takes 0 Read.nil bytes () :=
        .of_accepts Read.single_nil.accepts fun _ => ⟨_, nothing, rfl⟩
      simp only [payload, plain]
      exact (Gets.of_takes none).andThen (.pure [])
  | @filled fields _ elements contents _ given counted read =>
      rcases counted.inside deep with ⟨below, rfl, row⟩
      rw [Nat.add_sub_cancel] at read
      have length := read.length_eq.1
      rw [List.length_map] at length
      have slots := ((arrives_iff length).2 read).gets_slotsOfArray readsValues_datum
      rw [length] at slots
      simp only [payload, given]
      apply Gets.liftThen (counted.takesBefore row _)
      apply slots.andThen
      rw [construct_of_elements read]
      exact .pure _

/-- The variant with a number is known. -/
theorem gets_variantOf (held : variants[index]? = some variant) :
    Gets (lift (Read.ofExcept (variantOf name variants (index : Int).toNat)) :
      Decode σ (Variant Schema)) budget memory [] variant memory := by
  rw [variantOf, Int.toNat_natCast, held]
  exact .pure variant

/-- What picks a variant is read as this variant. -/
theorem Picks.gets {definition : Definition Schema} {content : Datum}
    (picks : Picks lookup catalog budget memory definition.layout bytes content kept)
    (distinct : ∀ variants, definition.layout = .byName variants →
      (variants.map Variant.name).Nodup)
    (deep : WellFormed budget 1 bytes) :
    Gets (defined lookup catalog (datum lookup catalog) definition) budget memory bytes content
      kept := by
  generalize same : definition.layout = layout at picks
  cases picks with
  | byIndex numbered held =>
      simp only [defined, same]
      exact (Gets.of_takes numbered.takes).andThen ((gets_variantOf held).andThen (.pure _))
  | byName stands held =>
      have text := Read.Takes.of_accepts Read.accepts_string fun _ => stands
      simp only [defined, same]
      apply (Gets.of_takes text).andThen
      rw [findIdx?_eq_some (distinct _ same) held]
      exact .pure _
  | tagged two numbered held pays =>
      rcases two.inside deep with ⟨below, rfl, row⟩
      rw [Nat.add_sub_cancel] at pays
      have payload := pays.gets (numbered.stands.leaf.behind row) definition.name
      simp only [defined, same]
      apply Gets.liftThen (two.takesBefore row _)
      apply Gets.nested
      apply (Gets.of_takes numbered.takes).bind
      exact (gets_variantOf held).bind (payload.mapped _)

/-! ## Nothing else picks a variant -/

/-- The payload of a variant was read from one. -/
theorem pays_of_payload {reader after : Reader}
    (framed : ∀ fields, variant.fields = some fields → ∀ field ∈ Field.written fields,
      Framed (value lookup catalog field.type))
    (ok : payload lookup catalog (datum lookup catalog) name variant ⟨reader, memory⟩ =
      .ok values ⟨after, kept⟩) :
    ∃ bytes, Pays lookup catalog reader.budget memory variant bytes values kept ∧
      reader.Passed bytes after := by
  cases given : variant.fields with
  | none =>
      simp only [payload, given] at ok
      rcases bind_eq_ok.1 ok with ⟨_, ⟨middle, _⟩, lifted, done⟩
      cases done
      rcases lift_eq_ok.1 lifted with ⟨read, rfl⟩
      rcases Read.single_nil.accepts.sound read with ⟨bytes, ⟨_, stands, rfl⟩, passed⟩
      exact ⟨bytes, .empty given stands, passed⟩
  | some fields =>
      simp only [payload, given] at ok
      rcases bind_eq_ok.1 ok with ⟨_, ⟨middle, _⟩, lifted, ok⟩
      rcases lift_eq_ok.1 lifted with ⟨counts, rfl⟩
      rcases bind_eq_ok.1 ok with ⟨found, ⟨last, _⟩, slots, ok⟩
      rcases lift_eq_ok.1 ok with ⟨made, rfl⟩
      rcases (Read.accepts_arrayOf _ _).sound counts with ⟨header, ⟨counted, _⟩, passed⟩
      rcases nested_eq_ok.1 slots with ⟨room, _⟩
      rcases Nat.exists_eq_succ_of_ne_zero (Nat.ne_of_gt room) with ⟨below, room⟩
      rcases arrives_of_slotsOfArray readsValues_datum room (framed fields given) slots with
        ⟨elements, contents, length, arrives, rfl, through⟩
      have read := (arrives_iff length).1 arrives
      rw [construct_of_elements read] at made
      cases made
      rw [passed.budget] at room
      refine ⟨header ++ elements.flatten, .filled given counted ?_, passed.trans through⟩
      rw [room]
      exact read

/-- A variant was found by its number, and nothing was read. -/
theorem held_of_variantOf {reader after : Reader}
    (ok : (lift (Read.ofExcept (variantOf name variants index)) : Decode σ (Variant Schema))
      ⟨reader, memory⟩ = .ok variant ⟨after, kept⟩) :
    variants[index]? = some variant ∧ reader = after ∧ memory = kept := by
  rw [variantOf] at ok
  cases held : variants[index]? with
  | none =>
      rw [held] at ok
      cases ok
  | some other =>
      rw [held] at ok
      cases ok
      exact ⟨rfl, rfl, rfl⟩

/-- A variant with its payload was read from its number and what pays for it. -/
theorem pays_of_tagged {reader after : Reader} {content : Datum}
    (framed : ∀ index, ∀ field ∈ Field.written ((Layout.tagged variants).fields index),
      Framed (value lookup catalog field.type))
    (ok : tagged lookup catalog (datum lookup catalog) name variants ⟨reader, memory⟩ =
      .ok content ⟨after, kept⟩) :
    ∃ number index variant payload values, Numbered number index ∧
      variants[index]? = some variant ∧
      Pays lookup catalog reader.budget memory variant payload values kept ∧
      content = .variant index values ∧ reader.Passed (number ++ payload) after := by
  rcases bind_eq_ok.1 ok with ⟨number, ⟨first, _⟩, lifted, ok⟩
  rcases lift_eq_ok.1 lifted with ⟨read, rfl⟩
  rcases numbered_of_int read with ⟨bytes, numbered, passed⟩
  rcases bind_eq_ok.1 ok with ⟨variant, ⟨second, _⟩, lifted, ok⟩
  rcases held_of_variantOf lifted with ⟨held, rfl, rfl⟩
  rcases bind_eq_ok.1 ok with ⟨values, ⟨last, _⟩, paid, done⟩
  cases done
  have fields (fields : List (Field Schema)) (given : variant.fields = some fields) :
      ∀ field ∈ Field.written fields, Framed (value lookup catalog field.type) := by
    have each := framed number.toNat
    rwa [Layout.fields_eq_of_variant held, given] at each
  rcases pays_of_payload fields paid with ⟨payload, pays, through⟩
  rw [passed.budget] at pays
  exact ⟨bytes, _, variant, payload, values, numbered, held, pays, rfl, passed.trans through⟩

/-- A variant was read from what picks it. -/
theorem picks_of_defined {definition : Definition Schema} {content : Datum}
    {reader after : Reader} (choice : definition.layout.record? = none)
    (framed : ∀ index, ∀ field ∈ Field.written (definition.layout.fields index),
      Framed (value lookup catalog field.type))
    (ok : defined lookup catalog (datum lookup catalog) definition ⟨reader, memory⟩ =
      .ok content ⟨after, kept⟩) :
    ∃ bytes, Picks lookup catalog reader.budget memory definition.layout bytes content kept ∧
      reader.Passed bytes after := by
  cases layout : definition.layout with
  | unit | array | map =>
      rw [layout] at choice
      cases choice
  | byIndex variants =>
      simp only [defined, layout] at ok
      rcases bind_eq_ok.1 ok with ⟨number, ⟨middle, _⟩, lifted, ok⟩
      rcases lift_eq_ok.1 lifted with ⟨read, rfl⟩
      rcases bind_eq_ok.1 ok with ⟨variant, ⟨last, _⟩, lifted, done⟩
      rcases held_of_variantOf lifted with ⟨held, rfl, rfl⟩
      cases done
      rcases numbered_of_int read with ⟨bytes, numbered, passed⟩
      exact ⟨bytes, .byIndex numbered held, passed⟩
  | byName variants =>
      simp only [defined, layout] at ok
      rcases bind_eq_ok.1 ok with ⟨text, ⟨middle, _⟩, lifted, ok⟩
      rcases lift_eq_ok.1 lifted with ⟨read, rfl⟩
      rcases Read.accepts_string.sound read with ⟨bytes, stands, passed⟩
      cases found : variants.findIdx? fun variant => variant.name = text with
      | none =>
          rw [found] at ok
          cases ok
      | some index =>
          rw [found] at ok
          cases ok
          rcases List.findIdx?_eq_some_iff_getElem.1 found with ⟨inside, same, _⟩
          have name : variants[index].name = text := by simpa using same
          exact ⟨bytes, .byName (name.symm ▸ stands) (List.getElem?_eq_getElem inside), passed⟩
  | tagged variants =>
      simp only [defined, layout] at ok
      rw [layout] at framed
      rcases bind_eq_ok.1 ok with ⟨_, ⟨middle, _⟩, lifted, ok⟩
      rcases lift_eq_ok.1 lifted with ⟨counts, rfl⟩
      rcases (Read.accepts_arrayOf _ _).sound counts with ⟨header, ⟨two, _⟩, passed⟩
      rcases nested_eq_ok.1 ok with ⟨room, inside, _, ok, same⟩
      cases same
      rcases pays_of_tagged framed ok with
        ⟨number, index, variant, payload, values, numbered, held, pays, rfl, whole⟩
      rw [Reader.budget_entered, passed.budget] at pays
      exact ⟨header ++ (number ++ payload), .tagged two numbered held pays,
        passed.trans ⟨whole.unread, whole.position, rfl, whole.maxDepth⟩⟩

/-! ## Values that pick none -/

/-- A value of the right shape that picks no variant, and the reason why: its number or its name is
that of none, or its payload has another number of elements than the variant has written fields. -/
inductive Rejects (name : String) : Layout Schema → Bytes → Error → Prop where
  | byIndex {variants : List (Variant Schema)} {bytes : Bytes} {index : Nat}
      (numbered : Numbered bytes index) (beyond : variants.length ≤ index) :
      Rejects name (.byIndex variants) bytes (.invalidValue (.variantIndex index name))
  | byName {variants : List (Variant Schema)} {bytes : Bytes} {text : String}
      (stands : (Content.string (Utf8.encode text)).Stands bytes)
      (unknown : ∀ variant ∈ variants, variant.name ≠ text) :
      Rejects name (.byName variants) bytes (.invalidValue (.variantName text name))
  | number {variants : List (Variant Schema)} {header number payload : Bytes} {index : Nat}
      (two : HeaderGives Format.array? header 2) (numbered : Numbered number index)
      (beyond : variants.length ≤ index) :
      Rejects name (.tagged variants) (header ++ (number ++ payload))
        (.invalidValue (.variantIndex index name))
  | count {variants : List (Variant Schema)} {variant : Variant Schema}
      {fields : List (Field Schema)} {header number inner elements : Bytes} {index count : Nat}
      (two : HeaderGives Format.array? header 2) (numbered : Numbered number index)
      (held : variants[index]? = some variant) (given : variant.fields = some fields)
      (counted : HeaderGives Format.array? inner count)
      (other : count ≠ (Field.written fields).length) :
      Rejects name (.tagged variants) (header ++ (number ++ (inner ++ elements)))
        (.countMismatch (variant.qualifiedName name) (Field.written fields).length count)

/-- A computation fails on these bytes, whatever follows them, where exactly so many structures may
be opened, and the memory of the lookup stays as it was. -/
def GivesUp (read : Decode σ α) (budget : Nat) (memory : σ) (bytes : Bytes) (failure : Error) :
    Prop :=
  ∀ (reader : Reader) (rest : Bytes), reader.budget = budget →
    reader.cursor.unread = bytes ++ rest →
      ∃ after, read ⟨reader, memory⟩ = .error failure ⟨after, memory⟩

namespace GivesUp

variable {failure : Error}

theorem throw (failure : Error) :
    GivesUp (MonadExcept.throw failure : Decode σ α) budget memory bytes failure :=
  fun reader _ _ _ => ⟨reader, rfl⟩

theorem head {first : Decode σ α} {next : α → Decode σ β}
    (gives : GivesUp first budget memory bytes failure) :
    GivesUp (first >>= next) budget memory bytes failure := by
  intro reader rest room unread
  rcases gives reader rest room unread with ⟨after, error⟩
  exact ⟨after, bind_of_error error next⟩

/-- After something was read, the computation fails on what comes next. -/
theorem tail {first : Decode σ α} {next : α → Decode σ β} {found : α}
    (head : Gets first budget memory bytes found memory)
    (gives : GivesUp (next found) budget memory others failure) :
    GivesUp (first >>= next) budget memory (bytes ++ others) failure := by
  intro reader rest room unread
  rw [List.append_assoc] at unread
  rcases head reader _ room unread with ⟨middle, ok, passed⟩
  rcases gives middle rest (passed.budget.trans room) (passed.unread_eq unread) with
    ⟨after, error⟩
  exact ⟨after, (bind_of_ok ok next).trans error⟩

theorem behindNothing {first : Decode σ α} {next : α → Decode σ β} {found : α}
    (head : Gets first budget memory [] found memory)
    (gives : GivesUp (next found) budget memory bytes failure) :
    GivesUp (first >>= next) budget memory bytes failure :=
  tail head gives

theorem liftThen {first : Read α} {next : α → Decode σ β} {found : α}
    (head : Read.TakesBefore others first bytes found)
    (gives : GivesUp (next found) budget memory others failure) :
    GivesUp (Session.lift first >>= next) budget memory (bytes ++ others) failure := by
  intro reader rest room unread
  rw [List.append_assoc] at unread
  rcases head reader rest unread with ⟨middle, ok, passed⟩
  rcases gives middle rest (passed.budget.trans room) (passed.unread_eq unread) with
    ⟨after, error⟩
  exact ⟨after, (bind_of_ok (lift_eq_ok.2 ⟨ok, rfl⟩) next).trans error⟩

theorem nested {inner : Decode σ α} (gives : GivesUp inner budget memory bytes failure) :
    GivesUp (nested inner) (budget + 1) memory bytes failure := by
  intro reader rest room unread
  have below : reader.entered.budget = budget := by
    rw [Reader.budget_entered, room, Nat.add_sub_cancel]
  rcases gives reader.entered rest below unread with ⟨inside, error⟩
  have opens : ¬ reader.maxDepth ≤ reader.depth := by
    rw [Reader.budget] at room
    omega
  rw [Reader.entered] at error
  simp only [Decode.nested, Read.enterNested, if_neg opens, error]
  exact ⟨_, rfl⟩

end GivesUp

/-- A number beyond the variants is refused. -/
theorem givesUp_variantOf (name : String) (beyond : variants.length ≤ index) :
    GivesUp (lift (Read.ofExcept (variantOf name variants (index : Int).toNat)) :
      Decode σ (Variant Schema)) budget memory bytes
        (.invalidValue (.variantIndex index name)) := by
  rw [variantOf, Int.toNat_natCast, List.getElem?_eq_none beyond]
  exact .throw _

/-- An array with another count than is expected is refused. -/
theorem givesUp_arrayOf {header row : Bytes} {levels count length : Nat} (typeName : String)
    (counted : HeaderGives Format.array? header count) (given : WellFormed levels count row)
    (other : count ≠ length) :
    GivesUp (lift (Read.arrayOf length typeName) : Decode σ Unit) budget memory (header ++ row)
      (.countMismatch typeName length count) := by
  intro reader rest _ unread
  rw [List.append_assoc] at unread
  have enough : count ≤ (row ++ rest).length := by
    rw [List.length_append]
    exact Nat.le_add_right_of_le given.count_le_length
  rcases Read.accepts_arrayHeader.complete ⟨counted, enough⟩ unread with ⟨after, ok, _⟩
  refine ⟨after, ?_⟩
  rw [Read.arrayOf, lift, bind_of_ok ok, if_neg other]
  rfl

/-- A payload with another number of elements than the variant has written fields is refused. -/
theorem givesUp_payload {header row : Bytes} {levels count : Nat} {fields : List (Field Schema)}
    (name : String) (given : variant.fields = some fields)
    (counted : HeaderGives Format.array? header count) (elements : WellFormed levels count row)
    (other : count ≠ (Field.written fields).length) :
    GivesUp (payload lookup catalog (datum lookup catalog) name variant) budget memory
      (header ++ row)
      (.countMismatch (variant.qualifiedName name) (Field.written fields).length count) := by
  simp only [payload, given]
  exact (givesUp_arrayOf _ counted elements other).head

/-- What picks no variant is refused with the reason why. -/
theorem Rejects.givesUp {definition : Definition Schema} {failure : Error}
    (rejects : Rejects definition.name definition.layout bytes failure)
    (deep : WellFormed budget 1 bytes) :
    GivesUp (defined lookup catalog (datum lookup catalog) definition) budget memory bytes
      failure := by
  generalize same : definition.layout = layout at rejects
  cases rejects with
  | byIndex numbered beyond =>
      simp only [defined, same]
      rw [← List.append_nil bytes]
      exact .tail (.of_takes numbered.takes) (givesUp_variantOf _ beyond).head
  | @byName variants _ text stands unknown =>
      have read := Read.Takes.of_accepts Read.accepts_string fun _ => stands
      have missed : variants.findIdx? (fun variant => variant.name = text) = none := by
        simpa [List.findIdx?_eq_none_iff] using unknown
      simp only [defined, same]
      rw [← List.append_nil bytes]
      apply GivesUp.tail (.of_takes read)
      simp only [missed]
      exact .throw _
  | number two numbered beyond =>
      rcases two.inside deep with ⟨below, rfl, row⟩
      simp only [defined, same]
      apply GivesUp.liftThen (two.takesBefore row _)
      exact .nested (.tail (.of_takes numbered.takes) (givesUp_variantOf _ beyond).head)
  | count two numbered held given counted other =>
      rcases two.inside deep with ⟨_, rfl, row⟩
      rcases counted.inside (numbered.stands.leaf.behind row) with ⟨_, rfl, elements⟩
      simp only [defined, same]
      apply GivesUp.liftThen (two.takesBefore row _)
      apply GivesUp.nested
      apply GivesUp.tail (.of_takes numbered.takes)
      exact .behindNothing (gets_variantOf held)
        (givesUp_payload definition.name given counted elements other).head

/-! ## Definitions of choices -/

section

variable {definition : Definition Schema} {content : Datum} {reader : Reader}
variable (steady : lookup.Steady) (defined : catalog.definition? name = some definition)
variable (single : WellFormed reader.budget 1 bytes) (unread : reader.cursor.unread = bytes ++ rest)

include steady defined single unread

/-- A well-formed value is read as a variant just if it is one that picks it. -/
theorem datum_choice_iff (choice : definition.layout.record? = none)
    (framed : ∀ index, ∀ field ∈ Field.written (definition.layout.fields index),
      Framed (value lookup catalog field.type))
    (distinct : ∀ variants, definition.layout = .byName variants →
      (variants.map Variant.name).Nodup) :
    ((∃ after, datum lookup catalog .builtin (.named name) ⟨reader, memory⟩ =
        .ok content ⟨after, kept⟩) ↔
      Picks lookup catalog reader.budget memory definition.layout bytes content kept) ∧
    ∀ after, datum lookup catalog .builtin (.named name) ⟨reader, memory⟩ =
      .ok content ⟨after, kept⟩ → reader.Passed bytes after := by
  rw [datum_named steady defined]
  have sound {after : Reader} (ok : Decode.defined lookup catalog (datum lookup catalog) definition
      ⟨reader, memory⟩ = .ok content ⟨after, kept⟩) :
      Picks lookup catalog reader.budget memory definition.layout bytes content kept ∧
        reader.Passed bytes after := by
    -- What was read and what is given are one value each, and begin at the same place.
    rcases picks_of_defined choice framed ok with ⟨front, picks, passed⟩
    rcases picks.wellFormed with ⟨levels, given⟩
    rcases given.same single (passed.unread.symm.trans unread) with ⟨rfl, _⟩
    exact ⟨picks, passed⟩
  refine ⟨⟨?_, ?_⟩, fun after ok => (sound ok).2⟩
  · rintro ⟨after, ok⟩
    exact (sound ok).1
  · intro picks
    rcases picks.gets distinct single reader rest rfl unread with ⟨after, ok, _⟩
    exact ⟨after, ok⟩

/-- A value that picks no variant is refused with the reason why. -/
theorem datum_choice_error {failure : Error}
    (rejects : Rejects definition.name definition.layout bytes failure) :
    ∃ after, datum lookup catalog .builtin (.named name) ⟨reader, memory⟩ =
      .error failure ⟨after, memory⟩ := by
  rw [datum_named steady defined]
  exact rejects.givesUp single reader rest rfl unread

end

end Decode

end MsgPack
