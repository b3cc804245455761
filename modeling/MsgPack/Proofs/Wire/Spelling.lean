import MsgPack.Proofs.Value.Nesting

/-!
# What values say and how they are spelled

The wire has many spellings for one value: ten forms of integers, and headers of several
widths.  The *content* of a value is what all its spellings have in common.  Text is kept as
its bytes, which need not be valid, and an integer as its number, so that whether it was
written as signed is not part of it.

A row of contents is spelled by bytes that are as many values in a row.  The bytes determine
the contents, and also where the row ends, whatever comes after it.
-/

namespace MsgPack

/-- What a value of the wire says. -/
inductive Content where
  | nil
  | bool (truth : Bool)
  | integer (number : Int)
  | float32 (bits : UInt32)
  | float64 (bits : UInt64)
  | string (bytes : Bytes)
  | binary (bytes : Bytes)
  | extension (typeCode : Int8) (payload : Bytes)
  | array (items : List Content)
  /-- The keys and the values of a map, taking turns. -/
  | map (members : List Content)

namespace Content

/-- The kind of the values that say this. -/
def kind : Content → Kind
  | nil => .nil
  | bool _ => .boolean
  | integer _ => .integer
  | float32 _ | float64 _ => .float
  | string _ => .string
  | binary _ => .binary
  | extension _ _ => .extension
  | array _ => .array
  | map _ => .map

/-- The bytes that follow a code where a content stands that holds no others. -/
def After (content : Content) (code : UInt8) (bytes : Bytes) : Prop :=
  match content with
  | nil => Format.ofCode code = .nil ∧ bytes = []
  | bool truth => (Format.ofCode code).boolean? = some truth ∧ bytes = []
  | integer number => ∃ form, (Format.ofCode code).integer? = some form ∧
      bytes.length = form.payloadLength ∧ number = (form.value code bytes).toInt
  | float32 bits => Format.ofCode code = .float32 ∧ bytes.length = 4 ∧
      bits = UInt32.ofNat (BigEndian.decode bytes)
  | float64 bits => Format.ofCode code = .float64 ∧ bytes.length = 8 ∧
      bits = UInt64.ofNat (BigEndian.decode bytes)
  | string text => ∃ form start, (Format.ofCode code).string? = some form ∧
      bytes = start ++ text ∧ form.Gives code start text.length
  | binary data => ∃ form start, (Format.ofCode code).binary? = some form ∧
      bytes = start ++ data ∧ form.Gives code start data.length
  | extension typeCode payload => ∃ form start, (Format.ofCode code).extension? = some form ∧
      bytes = start ++ payload ∧ form.Gives start ⟨typeCode, payload.length⟩
  | array _ | map _ => False

/-- The bytes of a content that holds no others. -/
def Stands (content : Content) : Bytes → Prop
  | [] => False
  | code :: bytes => content.After code bytes

end Content

/-- Bytes that spell a row of contents. -/
inductive Spells : List Content → Bytes → Prop where
  | done : Spells [] []
  /-- A content that holds no others, and the contents after it. -/
  | leaf {content : Content} {contents : List Content} {code : UInt8} {bytes rest : Bytes}
      (first : content.After code bytes) (others : Spells contents rest) :
      Spells (content :: contents) (code :: bytes ++ rest)
  /-- An array with its items, and the contents after it. -/
  | array {items contents : List Content} {header inside rest : Bytes}
      (counted : HeaderGives Format.array? header items.length) (nested : Spells items inside)
      (others : Spells contents rest) :
      Spells (.array items :: contents) (header ++ inside ++ rest)
  /-- A map with its keys and values, and the contents after it. -/
  | map {members contents : List Content} {count : Nat} {header inside rest : Bytes}
      (counted : HeaderGives Format.map? header count) (paired : members.length = count * 2)
      (nested : Spells members inside) (others : Spells contents rest) :
      Spells (.map members :: contents) (header ++ inside ++ rest)

/-! ## Headers -/

/-- A length ends where its form says, whatever comes after it. -/
theorem LengthForm.Gives.unique {form : LengthForm} {code : UInt8}
    {bytes other rest following : Bytes} {length length' : Nat}
    (gives : form.Gives code bytes length) (gives' : form.Gives code other length')
    (same : bytes ++ rest = other ++ following) : bytes = other ∧ length = length' := by
  cases form with
  | fixed mask =>
      rcases gives with ⟨rfl, rfl⟩
      rcases gives' with ⟨rfl, rfl⟩
      exact ⟨rfl, rfl⟩
  | sized width =>
      rcases gives with ⟨whole, rfl⟩
      rcases gives' with ⟨whole', rfl⟩
      obtain ⟨rfl, _⟩ := List.append_inj same (whole.trans whole'.symm)
      exact ⟨rfl, rfl⟩

/-- After a code there is one payload only, with its length in front of it. -/
theorem LengthForm.payload_unique {form? : Format → Option LengthForm} {code : UInt8}
    {bytes payload payload' : Bytes}
    (after : ∃ form start, form? (Format.ofCode code) = some form ∧ bytes = start ++ payload ∧
      form.Gives code start payload.length)
    (after' : ∃ form start, form? (Format.ofCode code) = some form ∧ bytes = start ++ payload' ∧
      form.Gives code start payload'.length) : payload = payload' := by
  rcases after with ⟨form, start, known, rfl, gives⟩
  rcases after' with ⟨form', start', known', same, gives'⟩
  cases known.symm.trans known'
  obtain ⟨rfl, _⟩ := gives.unique gives' same
  exact List.append_cancel_left same

theorem ExtensionForm.Gives.unique {form : ExtensionForm} {bytes other rest following : Bytes}
    {header header' : Read.ExtensionHeader} (gives : form.Gives bytes header)
    (gives' : form.Gives other header') (same : bytes ++ rest = other ++ following) :
    bytes = other ∧ header = header' := by
  rcases header with ⟨typeCode, length⟩
  rcases header' with ⟨typeCode', length'⟩
  rcases gives with ⟨start, typeByte, rfl, rfl, gives⟩
  rcases gives' with ⟨start', typeByte', rfl, rfl, gives'⟩
  rw [List.append_assoc, List.append_assoc] at same
  cases form with
  | fixed size =>
      rcases gives with ⟨rfl, rfl⟩
      rcases gives' with ⟨rfl, rfl⟩
      cases same
      exact ⟨rfl, rfl⟩
  | sized width =>
      rcases gives with ⟨whole, rfl⟩
      rcases gives' with ⟨whole', rfl⟩
      obtain ⟨rfl, tails⟩ := List.append_inj same (whole.trans whole'.symm)
      cases tails
      exact ⟨rfl, rfl⟩

theorem HeaderGives.length_pos {form? : Format → Option LengthForm} {header : Bytes}
    {length : Nat} (gives : HeaderGives form? header length) : 0 < header.length := by
  rcases gives with ⟨code, bytes, _, rfl, _⟩
  exact Nat.succ_pos _

/-- A header ends where it says, whatever comes after it. -/
theorem HeaderGives.unique {form? : Format → Option LengthForm}
    {header other rest following : Bytes} {length length' : Nat}
    (gives : HeaderGives form? header length) (gives' : HeaderGives form? other length')
    (same : header ++ rest = other ++ following) : header = other ∧ length = length' := by
  rcases gives with ⟨code, bytes, form, rfl, known, given⟩
  rcases gives' with ⟨code', bytes', form', rfl, known', given'⟩
  rw [List.cons_append, List.cons_append] at same
  injection same with first same
  subst first
  cases known.symm.trans known'
  obtain ⟨rfl, rfl⟩ := given.unique given' same
  exact ⟨rfl, rfl⟩

/-- The bytes of the header of an extension, and what they give. -/
def ExtensionGives (bytes : Bytes) (header : Read.ExtensionHeader) : Prop :=
  ∃ code following form, bytes = code :: following ∧
    (Format.ofCode code).extension? = some form ∧ form.Gives following header

/-! ## Leaves -/

namespace Content

/-- A content stands as a header that gives a length and a payload of that length, if this is
what may come after a code. -/
theorem stands_headed {form? : Format → Option LengthForm} {content : Content} {payload : Bytes}
    (after : ∀ code bytes, content.After code bytes ↔ ∃ form start,
      form? (Format.ofCode code) = some form ∧ bytes = start ++ payload ∧
        form.Gives code start payload.length) (bytes : Bytes) :
    content.Stands bytes ↔
      ∃ header, bytes = header ++ payload ∧ HeaderGives form? header payload.length := by
  cases bytes with
  | nil =>
      refine iff_of_false id ?_
      rintro ⟨_, same, _, _, _, rfl, _⟩
      cases same
  | cons code bytes =>
      rw [Stands, after]
      constructor
      · rintro ⟨form, start, known, rfl, gives⟩
        exact ⟨code :: start, rfl, code, start, form, rfl, known, gives⟩
      · rintro ⟨_, same, code', start, form, rfl, known, gives⟩
        cases same
        exact ⟨form, start, known, rfl, gives⟩

theorem stands_string (bytes payload : Bytes) : (string payload).Stands bytes ↔
    ∃ header, bytes = header ++ payload ∧ HeaderGives Format.string? header payload.length :=
  stands_headed (fun _ _ => Iff.rfl) bytes

theorem stands_binary (bytes payload : Bytes) : (binary payload).Stands bytes ↔
    ∃ header, bytes = header ++ payload ∧ HeaderGives Format.binary? header payload.length :=
  stands_headed (fun _ _ => Iff.rfl) bytes

theorem stands_extension (typeCode : Int8) (bytes payload : Bytes) :
    (extension typeCode payload).Stands bytes ↔
      ∃ header, bytes = header ++ payload ∧
        ExtensionGives header ⟨typeCode, payload.length⟩ := by
  cases bytes with
  | nil =>
      refine iff_of_false id ?_
      rintro ⟨_, same, _, _, _, rfl, _⟩
      cases same
  | cons code bytes =>
      constructor
      · rintro ⟨form, start, known, rfl, gives⟩
        exact ⟨code :: start, rfl, code, start, form, rfl, known, gives⟩
      · rintro ⟨_, same, code', start, form, rfl, known, gives⟩
        cases same
        exact ⟨form, start, known, rfl, gives⟩

end Content

namespace Content.After

variable {content other : Content} {code : UInt8} {bytes : Bytes}

theorem kind (after : content.After code bytes) :
    (Format.ofCode code).kind = content.kind := by
  cases content with
  | nil => rw [after.1]; rfl
  | bool truth => exact (Format.boolean?_isSome _).1 (after.1 ▸ rfl)
  | integer number =>
      rcases after with ⟨_, known, _⟩
      exact (Format.integer?_isSome _).1 (known ▸ rfl)
  | float32 bits => rw [after.1]; rfl
  | float64 bits => rw [after.1]; rfl
  | string text =>
      rcases after with ⟨_, _, known, _⟩
      exact (Format.string?_isSome _).1 (known ▸ rfl)
  | binary data =>
      rcases after with ⟨_, _, known, _⟩
      exact (Format.binary?_isSome _).1 (known ▸ rfl)
  | extension typeCode payload =>
      rcases after with ⟨_, _, known, _⟩
      exact (Format.extension?_isSome _).1 (known ▸ rfl)
  | array items => exact after.elim
  | map members => exact after.elim

theorem kind_ne (after : content.After code bytes) :
    content.kind ≠ .array ∧ content.kind ≠ .map := by
  cases content with
  | array items => exact after.elim
  | map members => exact after.elim
  | _ => exact ⟨Kind.noConfusion, Kind.noConfusion⟩

/-- What stands after the code makes a leaf with it. -/
theorem leaf (after : content.After code bytes) : Leaf (code :: bytes) := by
  cases content with
  | nil =>
      rcases after with ⟨format, rfl⟩
      rw [Leaf.cons_iff, format]
      rfl
  | bool truth =>
      rcases after with ⟨known, rfl⟩
      rw [Leaf.cons_iff, Format.announcement_of_boolean known]
      rfl
  | integer number =>
      rcases after with ⟨form, known, whole, _⟩
      rw [Leaf.cons_iff, Format.announcement_of_integer known]
      exact whole
  | float32 bits =>
      rw [Leaf.cons_iff, after.1]
      exact after.2.1
  | float64 bits =>
      rw [Leaf.cons_iff, after.1]
      exact after.2.1
  | string text =>
      rcases after with ⟨form, start, known, rfl, gives⟩
      exact (Leaf.iff_of_length (Format.announcement_of_string known code)).2
        ⟨start, text, rfl, gives⟩
  | binary data =>
      rcases after with ⟨form, start, known, rfl, gives⟩
      exact (Leaf.iff_of_length (Format.announcement_of_binary known code)).2
        ⟨start, data, rfl, gives⟩
  | extension typeCode payload =>
      rcases after with ⟨form, start, known, rfl, gives⟩
      exact (Leaf.iff_of_extension (Format.announcement_of_extension known code)).2
        ⟨_, start, payload, rfl, gives, rfl⟩
  | array items => exact after.elim
  | map members => exact after.elim

theorem length_of_fixed {size : Nat} (after : content.After code bytes)
    (announced : (Format.ofCode code).announcement code = .fixed size) : bytes.length = size := by
  have leaf := after.leaf
  rw [Leaf.cons_iff, announced] at leaf
  exact leaf

/-- Bytes say one thing only. -/
theorem unique (after : content.After code bytes) (after' : other.After code bytes) :
    content = other := by
  have kinds := after.kind.symm.trans after'.kind
  cases content with
  | nil =>
      cases other <;> try cases kinds
      rfl
  | bool truth =>
      cases other <;> try cases kinds
      cases after.1.symm.trans after'.1
      rfl
  | integer number =>
      cases other <;> try cases kinds
      rcases after with ⟨form, known, _, rfl⟩
      rcases after' with ⟨form', known', _, rfl⟩
      cases known.symm.trans known'
      rfl
  | float32 bits =>
      cases other <;> try cases kinds
      · rw [after.2.2, after'.2.2]
      · cases after.1.symm.trans after'.1
  | float64 bits =>
      cases other <;> try cases kinds
      · cases after.1.symm.trans after'.1
      · rw [after.2.2, after'.2.2]
  | string text =>
      cases other <;> try cases kinds
      rw [LengthForm.payload_unique after after']
  | binary data =>
      cases other <;> try cases kinds
      rw [LengthForm.payload_unique after after']
  | extension typeCode payload =>
      cases other <;> try cases kinds
      rcases after with ⟨form, start, known, rfl, gives⟩
      rcases after' with ⟨form', start', known', same, gives'⟩
      cases known.symm.trans known'
      obtain ⟨rfl, headers⟩ := gives.unique gives' same
      obtain ⟨rfl, _⟩ := Read.ExtensionHeader.mk.inj headers
      rw [List.append_cancel_left same]
  | array items => exact after.elim
  | map members => exact after.elim

end Content.After

/-! ## Rows -/

namespace Spells

variable {contents others : List Content} {bytes rest : Bytes}

/-- A row of contents that is not empty starts with a code of the kind of its first. -/
theorem starts {content : Content} (spelled : Spells (content :: contents) bytes) :
    ∃ code following, bytes = code :: following ∧
      (Format.ofCode code).kind = content.kind := by
  cases spelled with
  | leaf first others => exact ⟨_, _, rfl, first.kind⟩
  | array counted nested others =>
      rcases counted with ⟨code, _, form, rfl, known, _⟩
      exact ⟨code, _, rfl, (Format.array?_isSome _).1 (known ▸ rfl)⟩
  | map counted paired nested others =>
      rcases counted with ⟨code, _, form, rfl, known, _⟩
      exact ⟨code, _, rfl, (Format.map?_isSome _).1 (known ▸ rfl)⟩

theorem kind {content : Content} {code : UInt8}
    (spelled : Spells (content :: contents) (code :: bytes)) :
    (Format.ofCode code).kind = content.kind := by
  obtain ⟨_, _, same, kind⟩ := spelled.starts
  cases same
  exact kind

/-- A floating point number starts with the code of its format. -/
theorem float_format {content : Content} {code : UInt8} {following : Bytes}
    (spelled : Spells (content :: contents) bytes) (same : bytes = code :: following) :
    (∀ bits, content = .float32 bits → Format.ofCode code = .float32) ∧
      ∀ bits, content = .float64 bits → Format.ofCode code = .float64 := by
  cases spelled with
  | leaf first further =>
      injection same with start
      subst start
      constructor
      · rintro bits rfl
        exact first.1
      · rintro bits rfl
        exact first.1
  | array => exact ⟨fun _ other => (nomatch other), fun _ other => (nomatch other)⟩
  | map => exact ⟨fun _ other => (nomatch other), fun _ other => (nomatch other)⟩

/-- All spellings of a floating point number have one format. -/
theorem format_eq {content : Content} {code code' : UInt8} {following : Bytes}
    (spelled : Spells (content :: contents) (code :: bytes))
    (spelled' : Spells (content :: others) (code' :: following))
    (float : (Format.ofCode code).kind = .float) : Format.ofCode code = Format.ofCode code' := by
  rw [spelled.kind] at float
  obtain ⟨single, double⟩ := spelled.float_format rfl
  obtain ⟨single', double'⟩ := spelled'.float_format rfl
  cases content with
  | float32 bits => exact (single bits rfl).trans (single' bits rfl).symm
  | float64 bits => exact (double bits rfl).trans (double' bits rfl).symm
  | _ => cases float

theorem append (spelled : Spells contents bytes) (further : Spells others rest) :
    Spells (contents ++ others) (bytes ++ rest) := by
  induction spelled with
  | done => exact further
  | leaf first _ ih =>
      rw [List.append_assoc]
      exact leaf first ih
  | array counted nested _ _ ih =>
      rw [List.append_assoc]
      exact array counted nested ih
  | map counted paired nested _ _ ih =>
      rw [List.append_assoc]
      exact map counted paired nested ih

/-- An extension is spelled by a header and its payload. -/
theorem extension_iff {typeCode : Int8} {payload : Bytes} :
    Spells [.extension typeCode payload] bytes ↔ ∃ header, bytes = header ++ payload ∧
      ExtensionGives header ⟨typeCode, payload.length⟩ := by
  rw [← Content.stands_extension]
  constructor
  · intro spelled
    cases spelled with
    | leaf first others =>
        cases others
        rw [List.append_nil]
        exact first
  · intro stands
    cases bytes with
    | nil => exact stands.elim
    | cons code bytes =>
        have first : (Content.extension typeCode payload).After code bytes := stands
        have row := leaf first done
        rwa [List.append_nil] at row

/-- An array is spelled by a header and its items. -/
theorem array_iff {items : List Content} : Spells [.array items] bytes ↔ ∃ header inside,
    bytes = header ++ inside ∧ HeaderGives Format.array? header items.length ∧
      Spells items inside := by
  constructor
  · intro spelled
    cases spelled with
    | leaf first _ => exact first.elim
    | array counted nested others =>
        cases others
        exact ⟨_, _, List.append_nil _, counted, nested⟩
  · rintro ⟨header, inside, rfl, counted, nested⟩
    have row := array counted nested done
    rwa [List.append_nil] at row

/-- A map is spelled by a header, and its keys and values in turn. -/
theorem map_iff {members : List Content} : Spells [.map members] bytes ↔ ∃ count header inside,
    bytes = header ++ inside ∧ HeaderGives Format.map? header count ∧
      members.length = count * 2 ∧ Spells members inside := by
  constructor
  · intro spelled
    cases spelled with
    | leaf first _ => exact first.elim
    | map counted paired nested others =>
        cases others
        exact ⟨_, _, _, List.append_nil _, counted, paired, nested⟩
  · rintro ⟨count, header, inside, rfl, counted, paired, nested⟩
    have row := map counted paired nested done
    rwa [List.append_nil] at row

/-- The bytes of a row come apart where the row does. -/
theorem of_append (spelled : Spells (contents ++ others) bytes) :
    ∃ start following, bytes = start ++ following ∧ Spells contents start ∧
      Spells others following := by
  induction contents generalizing bytes with
  | nil => exact ⟨[], bytes, rfl, done, spelled⟩
  | cons content contents ih =>
      cases spelled with
      | leaf first further =>
          obtain ⟨start, following, rfl, within, after⟩ := ih further
          exact ⟨_, following, (List.append_assoc ..).symm, leaf first within, after⟩
      | array counted nested further =>
          obtain ⟨start, following, rfl, within, after⟩ := ih further
          exact ⟨_, following, (List.append_assoc ..).symm, array counted nested within, after⟩
      | map counted paired nested further =>
          obtain ⟨start, following, rfl, within, after⟩ := ih further
          exact ⟨_, following, (List.append_assoc ..).symm, map counted paired nested within,
            after⟩

/-- Rows that begin alike begin with contents of one kind. -/
theorem kind_eq {content content' : Content} {other following : Bytes}
    (spelled : Spells (content :: contents) bytes) (spelled' : Spells (content' :: others) other)
    (same : bytes ++ rest = other ++ following) : content.kind = content'.kind := by
  obtain ⟨code, _, rfl, kind⟩ := spelled.starts
  obtain ⟨code', _, rfl, kind'⟩ := spelled'.starts
  injection same with first
  rw [← kind, ← kind', first]

/-- The bytes of so many contents determine them, and end where they say. -/
theorem unique {other following : Bytes} (spelled : Spells contents bytes)
    (spelled' : Spells others other) (counts : contents.length = others.length)
    (same : bytes ++ rest = other ++ following) : contents = others ∧ bytes = other := by
  induction spelled generalizing others other rest following with
  | done =>
      cases others with
      | nil =>
          cases spelled'
          exact ⟨rfl, rfl⟩
      | cons content others => cases counts
  | leaf first further ih =>
      cases others with
      | nil => cases counts
      | cons content others =>
          have kinds := (leaf first further).kind_eq spelled' same
          cases spelled' with
          | leaf first' further' =>
              rw [List.append_assoc, List.append_assoc] at same
              have joined := first.leaf.unique first'.leaf same
              rw [← joined] at same
              cases joined
              obtain ⟨rfl, rfl⟩ := ih further' (Nat.succ.inj counts)
                (List.append_cancel_left same)
              rw [first.unique first']
              exact ⟨rfl, rfl⟩
          | array => exact absurd kinds first.kind_ne.1
          | map => exact absurd kinds first.kind_ne.2
  | array counted nested further inside ih =>
      cases others with
      | nil => cases counts
      | cons content others =>
          have kinds := (array counted nested further).kind_eq spelled' same
          cases spelled' with
          | leaf first' => exact absurd kinds.symm first'.kind_ne.1
          | array counted' nested' further' =>
              simp only [List.append_assoc] at same
              obtain ⟨rfl, lengths⟩ := counted.unique counted' same
              replace same := List.append_cancel_left same
              obtain ⟨rfl, rfl⟩ := inside nested' lengths same
              obtain ⟨rfl, rfl⟩ := ih further' (Nat.succ.inj counts)
                (List.append_cancel_left same)
              exact ⟨rfl, rfl⟩
          | map => cases kinds
  | map counted paired nested further inside ih =>
      cases others with
      | nil => cases counts
      | cons content others =>
          have kinds := (map counted paired nested further).kind_eq spelled' same
          cases spelled' with
          | leaf first' => exact absurd kinds.symm first'.kind_ne.2
          | array => cases kinds
          | map counted' paired' nested' further' =>
              simp only [List.append_assoc] at same
              obtain ⟨rfl, rfl⟩ := counted.unique counted' same
              replace same := List.append_cancel_left same
              obtain ⟨rfl, rfl⟩ := inside nested' (paired.trans paired'.symm) same
              obtain ⟨rfl, rfl⟩ := ih further' (Nat.succ.inj counts)
                (List.append_cancel_left same)
              exact ⟨rfl, rfl⟩

/-- Every content has at least one byte. -/
theorem length_le (spelled : Spells contents bytes) : contents.length ≤ bytes.length := by
  induction spelled with
  | done => exact Nat.le_refl 0
  | leaf first further ih =>
      simp only [List.length_append, List.length_cons]
      omega
  | array counted nested further inside ih =>
      have present := counted.length_pos
      simp only [List.length_append, List.length_cons]
      omega
  | map counted paired nested further inside ih =>
      have present := counted.length_pos
      simp only [List.length_append, List.length_cons]
      omega

/-- What spells contents is well-formed, and cannot be nested deeper than it is long. -/
theorem wellFormed (spelled : Spells contents bytes) :
    WellFormed bytes.length contents.length bytes := by
  have opened {count inner : Nat} {header inside rest : Bytes} (opens : Opens header inner)
      (nested : WellFormed inside.length inner inside)
      (further : WellFormed rest.length count rest) :
      WellFormed (header ++ inside ++ rest).length (count + 1) (header ++ inside ++ rest) := by
    have present := opens.length_pos
    obtain ⟨below, levels⟩ : ∃ below, (header ++ inside ++ rest).length = below + 1 :=
      Nat.exists_eq_add_one.2 (by simp only [List.length_append]; omega)
    have room := levels
    simp only [List.length_append] at room
    rw [levels]
    exact .opened opens (nested.mono (by omega)) (further.mono (by omega))
  induction spelled with
  | done => exact .done
  | @leaf content contents code bytes rest first further ih =>
      have longer : rest.length ≤ (code :: bytes ++ rest).length := by
        rw [List.length_append]
        exact Nat.le_add_left _ _
      rw [List.length_cons, Nat.add_comm]
      exact (first.leaf.wellFormed _).append (ih.mono longer)
  | array counted nested further inside ih =>
      have opens := counted.opens fun _ _ code known => Format.announcement_of_array known code
      rw [Nat.mul_one] at opens
      exact opened opens inside ih
  | map counted paired nested further inside ih =>
      have opens := counted.opens fun _ _ code known => Format.announcement_of_map known code
      rw [← paired] at opens
      exact opened opens inside ih

end Spells

/-- A content that holds no others is a row of one. -/
theorem Content.Stands.spells {content : Content} {bytes : Bytes} (stands : content.Stands bytes) :
    Spells [content] bytes := by
  cases bytes with
  | nil => exact stands.elim
  | cons code bytes =>
      have row := Spells.leaf stands .done
      rwa [List.append_nil] at row

theorem Content.Stands.leaf {content : Content} {bytes : Bytes} (stands : content.Stands bytes) :
    Leaf bytes := by
  cases bytes with
  | nil => exact stands.elim
  | cons code bytes => exact Content.After.leaf stands

/-- A content that holds no others holds none in any spelling. -/
theorem Content.Stands.of_spells {content : Content} {bytes other : Bytes}
    (stands : content.Stands bytes) (spelled : Spells [content] other) : content.Stands other := by
  cases bytes with
  | nil => exact stands.elim
  | cons code bytes =>
      cases spelled with
      | leaf first others =>
          cases others
          rw [List.append_nil]
          exact first
      | array => exact stands.elim
      | map => exact stands.elim

end MsgPack
