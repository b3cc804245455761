import MsgPack.Proofs.Datum.Reads

/-!
# Typed reads read one value

Whatever its type, a value is read from one content.  This holds for every source of
formatters that gives out only those that follow from the description of a type: with codecs
of their own, types may be read in any way at all.

The cases are those of the description of a type; what lies one level deeper is read by
induction on the budget of levels.  A typeless value is the one place where the payload of
an extension is itself read as contents; the check of its declared length makes it end where
the extension does.

A type overruns its reader by the level of a pair that is read without one of its own, if its
values may hold such a pair.
-/

namespace MsgPack

namespace Schema

mutual

/-- How many levels deeper than its reader was told a value of a type may be, where it is known
of which names the types may be so. -/
def overrun (overruns : String → Bool) : Schema → Nat
  | scalar single => single.overrun
  | typeless => 0
  | option item | boxed item | shared item | sequence _ item | array _ item | grid item =>
      item.overrun overruns
  | map _ key value => max (key.overrun overruns) (value.overrun overruns)
  | tuple items => overrunItems overruns items
  | named name => (overruns name).toNat

/-- The same of a value of one of some types. -/
def overrunItems (overruns : String → Bool) : List Schema → Nat
  | [] => 0
  | item :: items => max (item.overrun overruns) (overrunItems overruns items)

end

variable {overruns : String → Bool}

theorem overrun_le_overrunItems {type : Schema} {types : List Schema} (member : type ∈ types) :
    type.overrun overruns ≤ overrunItems overruns types := by
  induction types with
  | nil => cases member
  | cons first types ih =>
      rw [overrunItems]
      rcases List.mem_cons.1 member with rfl | others
      · exact Nat.le_max_left _ _
      · exact Nat.le_trans (ih others) (Nat.le_max_right _ _)

mutual

theorem overrun_le_one : ∀ type : Schema, type.overrun overruns ≤ 1
  | scalar single => by
      rw [overrun]
      exact single.overrun_le_one
  | typeless => by
      rw [overrun]
      exact Nat.zero_le 1
  | option item | boxed item | shared item | sequence _ item | array _ item | grid item => by
      rw [overrun]
      exact overrun_le_one item
  | map _ key value => by
      rw [overrun]
      exact Nat.max_le.2 ⟨overrun_le_one key, overrun_le_one value⟩
  | tuple items => by
      rw [overrun]
      exact overrunItems_le_one items
  | named name => by
      rw [overrun]
      exact (overruns name).toNat_le

theorem overrunItems_le_one : ∀ types : List Schema, overrunItems overruns types ≤ 1
  | [] => by
      rw [overrunItems]
      exact Nat.zero_le 1
  | type :: types => by
      rw [overrunItems]
      exact Nat.max_le.2 ⟨overrun_le_one type, overrunItems_le_one types⟩

end

end Schema

/-- Whether the definitions of a catalog bear out which names may overrun: a name does if the
type of one of its fields does. -/
def Catalog.Overruns (catalog : Catalog) (overruns : String → Bool) : Prop :=
  ∀ name definition, catalog.definition? name = some definition → ∀ index,
    ∀ field ∈ definition.layout.fields index,
      field.type.overrun overruns ≤ (overruns name).toNat

/-- Nothing is wrong about names that are all said to overrun. -/
theorem Catalog.overruns_all (catalog : Catalog) : catalog.Overruns fun _ => true :=
  fun _ _ _ _ field _ => field.type.overrun_le_one

/-- Whether a content carries the name of its type. -/
def Content.carriesName : Content → Bool
  | extension typeCode _ => typeCode = ExtensionCode.typeless
  | _ => false

namespace Decode

open Session

variable {σ α β : Type} {margin : Nat}

/-! ## Formatters found -/

/-- What a lookup of described formatters finds is one. -/
theorem reads_findThen {lookup : Lookup σ} (described : lookup.Described) {type : Schema}
    {count : Nat} {next : Formatter → Decode σ α}
    (each : ∀ formatter, formatter.Described → Reads margin count (next formatter)) :
    Reads margin count (find lookup type >>= next) := by
  apply (reads_find lookup type).afterOf
  rintro formatter ⟨session, after, ok⟩
  exact each formatter (described_of_find described ok)

variable {lookup : Lookup σ} {inner : Formatter → Schema → Decode σ Datum}
variable {overrun : Schema → Nat} {limit : Nat}

section Inside

variable (described : lookup.Described)
  (inside : ∀ formatter type, Formatter.Described formatter →
    Reads (overrun type + 1) 1 (inner formatter type))

include described inside

theorem reads_found {type : Schema} (le : overrun type ≤ limit) :
    Reads (limit + 1) 1 (found lookup inner type) :=
  reads_findThen described fun formatter known =>
    (inside formatter type known).mono (Nat.succ_le_succ le)

/-! ## Collections -/

theorem reads_collection (type : Schema) :
    Reads (overrun type + 1) 1 (collection lookup inner type) := by
  apply reads_arrayThen
  intro count
  apply reads_findThen described
  intro formatter known
  have items := (inside formatter type known).times count
  rw [Nat.mul_one] at items
  exact items.nested

theorem reads_array (length : Nat) (type : Schema) :
    Reads (overrun type + 1) 1 (array lookup inner length type) := by
  apply (reads_collection described inside type).andThen
  intro items
  split
  · exact .pure _
  · exact .throw _ 0

theorem reads_grid (type : Schema) :
    Reads (overrun type + 1) 1 (grid lookup inner type) := by
  apply reads_arrayOfThen
  have parts : Reads (overrun type + 1) 3 (do
      let rows ← lift (Read.size .usize)
      let columns ← lift (Read.size .usize)
      return (rows.toNat, columns.toNat, ← collection lookup inner type)) :=
    (reads_size .usize).bind fun rows => (reads_size .usize).bind fun columns =>
      (reads_collection described inside type).mapped _
  apply parts.nested.andThen
  rintro ⟨rows, columns, items⟩
  exact (reads_ofExcept _).mapped _

theorem reads_entries (keyType valueType : Schema) :
    Reads (max (overrun keyType) (overrun valueType) + 1) 1
      (entries lookup inner keyType valueType) := by
  apply reads_mapThen
  intro count
  apply reads_findThen described
  intro keys known
  apply reads_findThen described
  intro values known'
  have first := (inside keys keyType known).mono (Nat.succ_le_succ (Nat.le_max_left _
    (overrun valueType)))
  have second := (inside values valueType known').mono (Nat.succ_le_succ (Nat.le_max_right
    (overrun keyType) _))
  have entry : Reads (max (overrun keyType) (overrun valueType) + 1) 2 (do
      let key ← inner keys keyType
      return (key, ← inner values valueType)) :=
    first.bind fun key => second.mapped _
  exact (entry.times count).nested

theorem reads_each {types : List Schema} (le : ∀ type ∈ types, overrun type ≤ limit) :
    Reads (limit + 1) types.length (each lookup inner types) := by
  induction types with
  | nil => exact .pure []
  | cons type types ih =>
      rw [List.forall_mem_cons] at le
      rw [List.length_cons, Nat.add_comm types.length]
      exact (reads_found described inside le.1).bind fun item => (ih le.2).mapped _

/-! ## Typeless values -/

/-- The name of a type and a value of it are two contents. -/
theorem reads_named (le : ∀ type, overrun type ≤ limit) (registry : Option Nat) :
    Reads (limit + 1) (1 + 1) (named lookup inner registry) := by
  apply reads_string.bind
  intro name
  apply (reads_names lookup registry).afterOf
  rintro known ⟨session, after, ok⟩
  cases stands : known.byName? name with
  | none => exact .throw _ 1
  | some handle =>
      obtain ⟨type, left⟩ := described.of_keeps (keeps_of_names ok) handle (.inl ⟨name, stands⟩)
      apply (reads_note lookup registry handle.type).after
      intro _
      have delegated : Reads (limit + 1) 1 (follow (found lookup inner) handle.delegates.read) := by
        rw [left]
        exact (reads_found described inside (le type)).mapped _
      exact delegated.mapped _

end Inside

/-- A read inside the payload of an extension, which must end where the payload does.  However
deep it is nested inside, the extension holds no other contents. -/
theorem reads_sealed {inner : Decode σ α} {within count : Nat} (reads : Reads within count inner)
    (accept : α → β) (refuse : α → Nat → Nat → Error) :
    Reads (margin + 1) 1 (do
      let header ← lift Read.extensionHeader
      let start ← lift Read.position
      let found ← inner
      let taken := (← lift Read.position) - start
      if taken = header.length then return accept found
      else throw (refuse found header.length taken)) := by
  intro reader after memory kept result ok
  rcases bind_eq_ok.1 ok with ⟨header, ⟨opened, _⟩, lifted, ok⟩
  rcases lift_eq_ok.1 lifted with ⟨headed, rfl⟩
  rcases bind_eq_ok.1 ok with ⟨_, _, placed, ok⟩
  cases placed
  rcases bind_eq_ok.1 ok with ⟨found, ⟨inside, between⟩, read, ok⟩
  rcases bind_eq_ok.1 ok with ⟨_, _, placed, ok⟩
  cases placed
  obtain ⟨start, gives, passed⟩ := Read.accepts_extensionHeader.sound headed
  obtain ⟨contents, payload, counted, spelled, passed', answers, _⟩ := reads read
  rw [passed.budget] at answers
  have taken : inside.position - opened.position = payload.length := by
    rw [passed'.position, Nat.add_sub_cancel_left]
  rcases header with ⟨typeCode, length⟩
  rw [taken] at ok
  by_cases whole : payload.length = length
  · rw [if_pos whole] at ok
    cases ok
    subst whole
    have stands : (Content.extension typeCode payload).Stands (start ++ payload) :=
      (Content.stands_extension _ _ _).2 ⟨start, rfl, gives⟩
    refine ⟨[.extension typeCode payload], start ++ payload, rfl, stands.spells,
      passed.trans passed', ⟨?_, ?_⟩, stands.leaf.shallow (Nat.succ_pos _)⟩
    · intro other bytes rest spelled' room unread
      rcases Spells.extension_iff.1 spelled' with ⟨start', rfl, gives'⟩
      rw [List.append_assoc] at unread
      obtain ⟨opened', headed', passed⟩ := Read.accepts_extensionHeader.complete gives' unread
      rw [← passed.budget] at room
      obtain ⟨after, read', passed'⟩ := answers.whole spelled room (passed.unread_eq unread)
      have taken' : after.position - opened'.position = payload.length := by
        rw [passed'.position, Nat.add_sub_cancel_left]
      refine ⟨after, bind_eq_ok.2 ⟨_, _, lift_eq_ok.2 ⟨headed', rfl⟩, bind_eq_ok.2 ⟨_, _, rfl,
        bind_eq_ok.2 ⟨_, _, read', bind_eq_ok.2 ⟨_, _, rfl, ?_⟩⟩⟩⟩, passed.trans passed'⟩
      rw [if_pos taken']
      rfl
    · intro other bytes spelled' room ends
      rcases Spells.extension_iff.1 spelled' with ⟨start', rfl, gives'⟩
      rcases ends.split with early | ⟨rest, unread, late⟩
      · exact (starves_lift memory (Read.starves_extensionHeader gives' early)).head _
      · obtain ⟨opened', headed', passed⟩ := Read.accepts_extensionHeader.complete gives' unread
        rw [← passed.budget] at room
        have starves := answers.cut spelled room (late opened' passed)
        exact .tail (lift_eq_ok.2 ⟨headed', rfl⟩) (.tail rfl (starves.head _))
  · rw [if_neg whole] at ok
    cases ok

theorem carriesName_eq :
    carriesName = Read.peekCode >>= fun code =>
      if (Format.ofCode code).kind = .extension then do
        return decide ((← Read.peekExtensionHeader).typeCode = ExtensionCode.typeless)
      else return false := by
  simp only [carriesName, Read.peekKind, Read.peekFormat, bind_assoc, pure_bind]

/-- A look at the header of an extension leaves the reader as it is. -/
theorem after_peekExtensionHeader {reader after : Reader} {found : Read.ExtensionHeader}
    (ok : Read.peekExtensionHeader reader = .ok found after) : after = reader := by
  unfold Read.peekExtensionHeader at ok
  split at ok
  · cases ok
    rfl
  · cases ok

/-- A look at the header of an extension finds it, wherever the reader ends after it. -/
theorem peekExtensionHeader_eq {reader : Reader} {header rest : Bytes}
    {found : Read.ExtensionHeader} (gives : ExtensionGives header found)
    (unread : reader.cursor.unread = header ++ rest) :
    Read.peekExtensionHeader reader = .ok found reader := by
  obtain ⟨after, ok, _⟩ := Read.accepts_extensionHeader.complete gives unread
  simp only [Read.peekExtensionHeader, ok]

theorem starves_peekExtensionHeader {reader : Reader} {header : Bytes}
    {found : Read.ExtensionHeader} (gives : ExtensionGives header found)
    (ends : reader.EndsWithin header) : Starves Read.peekExtensionHeader reader := by
  obtain ⟨needed, remaining, after, error⟩ := Read.starves_extensionHeader gives ends
  refine ⟨needed, remaining, reader, ?_⟩
  simp only [Read.peekExtensionHeader, error]

/-- The header of an extension is enough to see whether it carries the name of a type, and a
code is enough to see it of anything else. -/
theorem looks_carriesName : Looks carriesName fun content found => found = content.carriesName where
  still := by
    intro reader after found ok
    rw [carriesName_eq] at ok
    rcases bind_eq_ok.1 ok with ⟨code, middle, peeked, looked⟩
    obtain ⟨_, _, rfl⟩ := Read.unread_of_peekCode peeked
    split at looked
    · rcases bind_eq_ok.1 looked with ⟨header, middle', seen, answered⟩
      cases answered
      exact after_peekExtensionHeader seen
    · cases looked
      rfl
  whole := by
    intro content bytes rest reader spelled unread
    rw [carriesName_eq]
    obtain ⟨code, following, rfl, kind⟩ := spelled.starts
    rw [bind_of_ok (Read.peekCode_eq unread), kind]
    cases content with
    | extension typeCode payload =>
        rcases Spells.extension_iff.1 spelled with ⟨header, split, gives⟩
        rw [split, List.append_assoc] at unread
        refine ⟨_, bind_of_ok (peekExtensionHeader_eq gives unread) _, rfl⟩
    | _ => exact ⟨false, rfl, rfl⟩
  cut := by
    intro content bytes reader spelled ends
    rw [carriesName_eq]
    obtain ⟨code, following, rfl, kind⟩ := spelled.starts
    rcases ends.cons_cases with done | ⟨others, unread⟩
    · exact .inl ((Read.starves_peekCode done).head _)
    · have peeked := Read.peekCode_eq unread
      cases content with
      | extension typeCode payload =>
          rcases Spells.extension_iff.1 spelled with ⟨header, split, gives⟩
          rw [split] at ends
          rcases ends.split with early | ⟨rest, all, _⟩
          · refine .inl (.tail peeked ?_)
            rw [kind]
            exact (starves_peekExtensionHeader gives early).head _
          · refine .inr ⟨_, ?_, rfl⟩
            rw [bind_of_ok peeked, kind]
            exact bind_of_ok (peekExtensionHeader_eq gives all) _
      | _ =>
          refine .inr ⟨false, ?_, rfl⟩
          rw [bind_of_ok peeked, kind]
          rfl

section Inside

variable (described : lookup.Described)
  (inside : ∀ formatter type, Formatter.Described formatter →
    Reads (overrun type + 1) 1 (inner formatter type))

include described inside

theorem reads_typeless (le : ∀ type, overrun type ≤ limit) (registry : Option Nat) :
    Reads (margin + 1) 1 (typeless lookup inner registry) := by
  apply reads_lookThen looks_carriesName
  · intro carries
    cases carries with
    | true =>
        exact reads_sealed (reads_named described inside le registry).nested
          (fun found => Datum.typeless found.2.1 found.2.2)
          fun found declared taken => .invalidValue (.typelessLength found.1.name declared taken)
    | false => exact reads_value.mapped _
  · rintro content found other rfl rfl
    rfl

/-! ## Records -/

theorem reads_slots {fields : List (Field Schema)}
    (le : ∀ field ∈ fields, overrun field.type ≤ limit) (available : Nat) :
    Reads (limit + 1) (min available (Field.written fields).length)
      (slots lookup inner available fields) := by
  induction fields generalizing available with
  | nil =>
      rw [Field.written, List.filter_nil, List.length_nil, Nat.min_zero]
      exact .pure []
  | cons field fields ih =>
      rw [List.forall_mem_cons] at le
      rw [slots]
      by_cases skipped : field.skip = true
      · have same : Field.written (field :: fields) = Field.written fields := by
          simp only [Field.written, List.filter_cons, skipped, Bool.not_true, Bool.false_eq_true,
            if_false]
        rw [if_pos (by simp only [skipped, Bool.true_or]), same]
        exact (ih le.2 available).mapped _
      · cases available with
        | zero =>
            rw [if_pos (by simp)]
            have others := ih le.2 0
            rw [Nat.zero_min] at others ⊢
            exact others.mapped _
        | succ available =>
            have same : Field.written (field :: fields) = field :: Field.written fields := by
              simp only [Field.written, List.filter_cons, skipped, Bool.not_false, if_true]
            rw [if_neg (by simp [skipped]), same, List.length_cons, Nat.succ_min_succ,
              Nat.succ_eq_one_add]
            apply (reads_found described inside le.1).bind
            intro value
            exact (ih le.2 available).mapped _

theorem reads_slotsOfArray {fields : List (Field Schema)}
    (le : ∀ field ∈ fields, overrun field.type ≤ limit) (count : Nat) :
    Reads limit count (slotsOfArray lookup inner fields count) := by
  have both := (reads_slots described inside le count).bind fun values =>
    (reads_skip.discard (count - (Field.written fields).length)).mapped fun _ => values
  have total : min count (Field.written fields).length +
      (count - (Field.written fields).length) = count := by omega
  rw [total] at both
  simp only [slotsOfArray, lift_discard]
  exact both.nested

/-- The key and the value of an entry are two contents, also where the value is skipped. -/
theorem reads_assignment {fields : List (Field Schema)}
    (le : ∀ field ∈ fields, overrun field.type ≤ limit) :
    Reads (limit + 1) (1 + 1) (assignment lookup inner fields) := by
  apply reads_string.bind
  intro key
  cases known : fieldOf? fields key with
  | none => exact reads_skip.mapped _
  | some placed =>
      have member := List.fst_mem_of_mem_zipIdx (List.mem_of_find?_eq_some known)
      exact (reads_found described inside (le _ member)).mapped _

theorem reads_slotsOfMap {fields : List (Field Schema)}
    (le : ∀ field ∈ fields, overrun field.type ≤ limit) :
    Reads (limit + 1) 1 (slotsOfMap lookup inner fields) := by
  apply reads_mapThen
  intro count
  exact ((reads_assignment described inside le).times count).nested.mapped _

/-! ## Choices -/

theorem reads_payload (catalog : Catalog) (name : String) {variant : Variant Schema}
    (le : ∀ field ∈ variant.fields.getD [], overrun field.type ≤ limit) :
    Reads (limit + 1) 1 (payload lookup catalog inner name variant) := by
  unfold payload
  cases known : variant.fields with
  | none => exact reads_nil.mapped _
  | some fields =>
      rw [known, Option.getD_some] at le
      apply reads_arrayOfThen
      apply (reads_slotsOfArray described inside le _).andThen
      intro values
      exact reads_ofExcept _

theorem reads_tagged (catalog : Catalog) (name : String) {variants : List (Variant Schema)}
    (le : ∀ index, ∀ field ∈ (Layout.tagged variants).fields index, overrun field.type ≤ limit) :
    Reads (limit + 1) (1 + 1) (tagged lookup catalog inner name variants) := by
  apply (reads_int .u32).bind
  intro index
  apply (reads_ofExcept _).afterOf
  rintro variant ⟨session, after, chosen⟩
  have known : variants[index.toNat]? = some variant := by
    rw [variantOf] at chosen
    split at chosen
    · cases chosen
      assumption
    · cases chosen
  have each := le index.toNat
  simp only [Layout.fields, Layout.variants, known, Option.bind_some] at each
  exact (reads_payload described inside catalog name each).mapped _

/-! ## Any type -/

theorem reads_defined (catalog : Catalog) {definition : Definition Schema}
    (le : ∀ index, ∀ field ∈ definition.layout.fields index, overrun field.type ≤ limit) :
    Reads (limit + 1) 1 (defined lookup catalog inner definition) := by
  unfold defined
  dsimp only
  cases known : definition.layout with
  | unit => exact reads_nil.mapped _
  | array fields =>
      apply reads_arrayThen
      intro count
      rw [known] at le
      apply (reads_slotsOfArray described inside (le 0) count).andThen
      intro values
      exact (reads_ofExcept _).mapped _
  | map fields =>
      rw [known] at le
      apply (reads_slotsOfMap described inside (le 0)).andThen
      intro values
      exact (reads_ofExcept _).mapped _
  | byIndex variants =>
      apply (reads_int .u32).andThen
      intro index
      exact (reads_ofExcept _).mapped _
  | byName variants =>
      apply reads_string.andThen
      intro chosen
      cases variants.findIdx? fun variant => variant.name = chosen with
      | some index => exact .pure _
      | none => exact .throw _ 0
  | tagged variants =>
      rw [known] at le
      apply reads_arrayOfThen
      exact (reads_tagged described inside catalog definition.name le).nested

/-- A described formatter reads one content, if the description of the type does. -/
theorem reads_formatted (le : ∀ type, overrun type ≤ 1) {shaped : Decode σ Datum}
    (reads : Reads (limit + 1) 1 shaped) {formatter : Formatter} (known : formatter.Described) :
    Reads (limit + 1) 1 (formatted lookup inner shaped formatter) := by
  cases formatter with
  | builtin => exact reads
  | codec _ | custom _ => exact known.elim
  | typeless registry => exact reads_typeless described inside le (some registry)

end Inside

section Overruns

variable {catalog : Catalog} {overruns : String → Bool}

theorem reads_shaped (borne : catalog.Overruns overruns) (described : lookup.Described)
    (inside : ∀ formatter type, Formatter.Described formatter →
      Reads (type.overrun overruns + 1) 1 (inner formatter type)) :
    ∀ type, Reads (type.overrun overruns + 1) 1 (shaped lookup catalog inner type)
  | .scalar scalar => (reads_scalar scalar).mapped _
  | .typeless => reads_typeless described inside Schema.overrun_le_one none
  | .option type => by
      rw [Schema.overrun]
      apply reads_tryNilThen
      · exact .pure _
      · apply reads_findThen described
        intro formatter known
        exact (reads_formatted described inside Schema.overrun_le_one
          (reads_shaped borne described inside type) known).mapped _
  | .boxed type | .shared type =>
      reads_findThen described fun _ known =>
        reads_formatted described inside Schema.overrun_le_one
          (reads_shaped borne described inside type) known
  | .sequence kind type => (reads_collection described inside type).mapped _
  | .array length type => reads_array described inside length type
  | .grid type => reads_grid described inside type
  | .map kind keyType valueType => (reads_entries described inside keyType valueType).mapped _
  | .tuple types => by
      rw [shaped, Schema.overrun]
      apply reads_arrayOfThen
      exact (reads_each described inside fun type member =>
        Schema.overrun_le_overrunItems member).nested.mapped _
  | .named name => by
      rw [shaped, Schema.overrun]
      cases known : catalog.definition? name with
      | some definition => exact reads_defined described inside catalog (borne name _ known)
      | none => exact .throw _ 1

/-- A described formatter reads one content, however many levels may be opened. -/
theorem reads_within (borne : catalog.Overruns overruns) (described : lookup.Described)
    (budget : Nat) (formatter : Formatter) (type : Schema) (known : formatter.Described) :
    Reads (type.overrun overruns + 1) 1 (within lookup catalog budget formatter type) := by
  induction budget generalizing formatter type with
  | zero =>
      have inside (_ : Formatter) (type : Schema) (_ : Formatter.Described ‹_›) :
          Reads (type.overrun overruns + 1) 1 (lift Read.tooDeep : Decode σ Datum) :=
        reads_tooDeep 1
      exact reads_formatted described inside Schema.overrun_le_one
        (reads_shaped borne described inside type) known
  | succ budget ih =>
      exact reads_formatted described ih Schema.overrun_le_one
        (reads_shaped borne described ih type) known

/-- A value of any type is read from one content, which is nested deeper than the reader may go
by no more than the type overruns. -/
theorem reads_overrun (borne : catalog.Overruns overruns) (described : lookup.Described)
    (type : Schema) : Reads (type.overrun overruns + 1) 1 (value lookup catalog type) :=
  reads_findThen described fun formatter known =>
    .withBudget fun budget => reads_within borne described budget formatter type known

end Overruns

/-- A value of any type is read from one content. -/
theorem reads_typed (described : lookup.Described) (catalog : Catalog) (type : Schema) :
    Reads 2 1 (value lookup catalog type) :=
  (reads_overrun catalog.overruns_all described type).mono
    (Nat.succ_le_succ type.overrun_le_one)

end Decode

end MsgPack
