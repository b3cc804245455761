import MsgPack.Derive.Implementation
import MsgPack.Proofs.Derive.Layout
import MsgPack.Proofs.Formatter.Returning

/-!
# Derived formatters there and back

Every item that code is derived for defines a type, and the formatter of this type reads back what
it has written: a record or a variant comes back if the values of its written fields do.  Deriving
does not compare names, so it has to be asked that those of the layout differ.
-/

namespace MsgPack.Derive

/-- An item that code is derived for defines a type. -/
theorem Item.defines {item : Item} {code : Code} (accepted : item.expand = .ok code)
    (path : String) (arguments : List Schema) :
    ∃ definition, item.typeDefinition path arguments = .ok definition := by
  obtain ⟨declared, same, _⟩ := bind_eq_ok.1 accepted
  rw [Item.typeDefinition, same]
  exact ⟨_, rfl⟩

/-- Of any item that code is derived for, a record or a variant comes back if the values of its
written fields do and the names of the layout differ; a field that is never written comes back with
the initial value of its type.  It can be written just if the values can be and if the counts and
the names have at most 32 bits of length.  The lookup may give any formatters for the types of the
fields, as long as none of them leaves a reader at another depth. -/
theorem Item.comesBack {σ : Type} {lookup : Lookup σ} {catalog : Catalog} {good : σ → Prop}
    {levels : Nat} {name : String} {item : Item} {code : Code}
    (accepted : item.expand = .ok code) (path : String) (arguments : List Schema)
    (steady : lookup.Steady) (own : lookup.Gives good (.named name) .builtin) (index : Nat)
    (values : List Datum) (fits : Datum × Field Schema → Prop) :
    ∃ definition, item.typeDefinition path arguments = .ok definition ∧
      (definition.layout.Distinct → catalog.definition? name = some definition →
        definition.layout.Holds index →
        values.length = (definition.layout.fields index).length →
        (∀ placed ∈ values.zip (definition.layout.fields index), placed.2.skip = false →
          ComesBack lookup catalog good levels placed.2.type placed.1 placed.1 (fits placed)) →
        ComesBack lookup catalog good (levels + definition.layout.depth index) (.named name)
          (definition.layout.datum index values)
          (definition.layout.datum index
            ((values.zip (definition.layout.fields index)).map fun placed =>
              if placed.2.skip then placed.2.type.initial catalog.initial else placed.1))
          (definition.layout.Writable index ∧
            ∀ placed ∈ Datum.written values (definition.layout.fields index), fits placed)) := by
  obtain ⟨definition, declared⟩ := Item.defines accepted path arguments
  refine ⟨definition, declared, fun distinct defined held whole each => ?_⟩
  have unambiguous := (Item.unambiguous_iff declared).2 distinct
  exact comesBack_defined steady defined own unambiguous held whole each

/-! ## Items there and back -/

/-- The options in the parentheses of an attribute. -/
def Attribute.options (tokens : Code) : Attribute :=
  ⟨[.word "msgpack"], .listed tokens⟩

/-- Another name for a field or a variant. -/
def Attribute.renaming (name : String) : Attribute :=
  options [.word "rename", .mark '=', .string (Quoted.literal name) name]

/-- The catalog of the type that an item without parameters declares. -/
def Item.declared (item : Item) : Catalog :=
  { Catalog.empty with definition? := fun _ => (item.typeDefinition "" []).toOption }

/-- A record with a field under another name and one that is never written. -/
def Item.entry : Item :=
  ⟨"Entry", [.options [.word "map"]], [], [],
    .record (.named [("number", ⟨[.word "u8"], [.renaming "n"]⟩),
      ("seen", ⟨[.word "bool"], [.options [.word "skip"]]⟩)])⟩

/-- A number comes back under its other name, and the field that is never written as false. -/
theorem Item.comesBack_entry :
    ComesBack (.standard entry.declared) entry.declared (fun _ => True) 1 (.named "Entry")
      (.record [.atom (.int 7), .atom (.bool true)])
      (.record [.atom (.int 7), .atom (.bool false)]) True := by
  obtain ⟨code, accepted⟩ : ∃ code, entry.expand = .ok code := ⟨_, rfl⟩
  have steady := (Lookup.described_standard entry.declared).steady
  have own (type : Schema) (known : entry.declared.formatter? type = some .builtin) :
      (Lookup.standard entry.declared).Gives (fun _ => True) type .builtin :=
    fun memory _ => ⟨known, trivial⟩
  obtain ⟨definition, declared, back⟩ := Item.comesBack accepted "" [] steady
    (own (.named "Entry") rfl) 0 [.atom (.int 7), .atom (.bool true)] fun _ => True
  cases declared
  have distinct : ["n"].Nodup := by decide
  have short : Value.FitsLength (Utf8.encode "n").length := by decide
  have number : ComesBack (.standard entry.declared) entry.declared (fun _ => True) 0
      (.scalar (.int .u8)) (.atom (.int 7)) (.atom (.int 7)) True :=
    comesBack_scalar trivial ⟨by decide, by decide⟩ (own _ rfl) nofun
  have entry := back distinct rfl trivial rfl fun placed member kept => by
    rcases List.mem_cons.1 member with rfl | hidden
    · exact number
    · rw [List.mem_singleton.1 hidden] at kept
      cases kept
  apply entry.congr
  refine iff_of_true ⟨⟨by decide, fun field member => ?_⟩, fun _ _ => trivial⟩ trivial
  rw [List.mem_singleton.1 member]
  exact short

/-! ## Items that do not come back -/

/-- A choice with two variants of one name. -/
def Item.letter : Item :=
  ⟨"Letter", [.options [.word "as_string"]], [], [],
    .choice [⟨"A", [], .unit⟩, ⟨"B", [.renaming "A"], .unit⟩]⟩

/-- A record with two fields of one key. -/
def Item.pair : Item :=
  ⟨"Pair", [.options [.word "map"]], [], [],
    .record (.named [("a", ⟨[.word "u8"], []⟩), ("b", ⟨[.word "u8"], [.renaming "a"]⟩)])⟩

/-- A record with a field of a type that another formatter is responsible for. -/
def Item.holder : Item :=
  ⟨"Holder", [], [], [], .record (.tuple [⟨[.word "Silent"], []⟩])⟩

/-- A codec that writes and reads no bytes. -/
def silentCodec : Codec :=
  ⟨fun _ => pure (), pure (.atom .unit)⟩

/-- The formatters that types bring, but for one type a codec without bytes. -/
def silentLookup (catalog : Catalog) : Lookup Unit :=
  { Lookup.standard catalog with
    find := fun type memory =>
      if type = .named "Silent" then (some (.codec silentCodec), memory)
      else (catalog.formatter? type, memory) }

/-- Where two variants share a name, the second is read as the first.  Where two fields share a
key, both values are taken for the first field, and the second is missing.  And a count of values
that take no bytes is larger than what is left to read. -/
theorem Item.accepted_without_return :
    ((∃ code, letter.expand = .ok code) ∧
      serialize letter.declared (.named "Letter") (.variant 1 []) = .ok [0xa1, 0x41] ∧
      deserialize letter.declared (.named "Letter") [0xa1, 0x41] = .ok (.variant 0 [])) ∧
    ((∃ code, pair.expand = .ok code) ∧
      serialize pair.declared (.named "Pair") (.record [.atom (.int 7), .atom (.int 8)]) =
        .ok [0x82, 0xa1, 0x61, 0x07, 0xa1, 0x61, 0x08] ∧
      deserialize pair.declared (.named "Pair") [0x82, 0xa1, 0x61, 0x07, 0xa1, 0x61, 0x08] =
        .error (.missingField "a" "Pair")) ∧
    (∃ code, holder.expand = .ok code) ∧
      Write.run (Session.withMemory () (Encode.value (silentLookup holder.declared) holder.declared
        (.named "Holder") (.record [.atom .unit]))) = .ok [0x91] ∧
      (Decode.run (silentLookup holder.declared) holder.declared (.named "Silent") (.ofBytes [])
        ()).1 = .ok (.atom .unit) ∧
      (Decode.run (silentLookup holder.declared) holder.declared (.named "Holder") (.ofBytes [0x91])
        ()).1 = .error (.insufficientData 1 0) :=
  ⟨⟨⟨_, rfl⟩, rfl, rfl⟩, ⟨⟨_, rfl⟩, rfl, rfl⟩, ⟨_, rfl⟩, rfl, rfl, rfl⟩

end MsgPack.Derive
