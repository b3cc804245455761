import MsgPack.Formatter.Encode
import MsgPack.Proofs.Formatter.Session
import MsgPack.Proofs.Value.Encoding

/-!
# Writing whole values

A computation that writes with the help of a lookup *emits* so many values if, whenever it
succeeds, what it has appended are the bytes of so many values, each in its shortest form.

This goes through sequences, and the header of an array or a map makes one value of those
that follow it.  The computations of formatters are put together from values in this way.
-/

namespace MsgPack.Encode

open Session

variable {σ α β : Type}

/-- Where a computation succeeds, it has appended the bytes of so many values. -/
def Emits (count : Nat) (write : Encode σ α) : Prop :=
  ∀ ⦃writer after : Writer⦄ ⦃memory kept : σ⦄ ⦃result : α⦄,
    write ⟨writer, memory⟩ = .ok result ⟨after, kept⟩ →
      ∃ values : List Value, values.length = count ∧ Value.FitsItems values ∧
        after.toList = writer.toList ++ Value.encodingItems values

namespace Emits

/-! ## Sequences -/

/-- A sequence emits the values of its parts.  The second part may rely on what the first
can give. -/
theorem bindOf {first : Encode σ α} {next : α → Encode σ β} {start others : Nat}
    (head : Emits start first)
    (tail : ∀ found, (∃ session after, first session = .ok found after) →
      Emits others (next found)) : Emits (start + others) (first >>= next) := by
  intro writer after memory kept result ok
  rcases bind_eq_ok.1 ok with ⟨found, ⟨middle, between⟩, first, second⟩
  obtain ⟨front, counted, fits, appended⟩ := head first
  obtain ⟨back, counted', fits', appended'⟩ := tail found ⟨_, _, first⟩ second
  refine ⟨front ++ back, ?_, Value.fitsItems_append fits fits', ?_⟩
  · rw [List.length_append, counted, counted']
  · rw [appended', appended, Value.encodingItems_append, List.append_assoc]

theorem bind {first : Encode σ α} {next : α → Encode σ β} {start others : Nat}
    (head : Emits start first) (tail : ∀ found, Emits others (next found)) :
    Emits (start + others) (first >>= next) :=
  head.bindOf fun found _ => tail found

/-- What writes nothing may come before. -/
theorem after {first : Encode σ α} {next : α → Encode σ β} {count : Nat}
    (head : Emits 0 first) (tail : ∀ found, Emits count (next found)) :
    Emits count (first >>= next) := by
  rw [← Nat.zero_add count]
  exact head.bind tail

/-- A computation that leaves the writer alone. -/
theorem still {write : Encode σ α} (alone : ∀ {writer after : Writer} {memory kept : σ}
    {result : α}, write ⟨writer, memory⟩ = .ok result ⟨after, kept⟩ → after = writer) :
    Emits 0 write := by
  intro writer after memory kept result ok
  obtain rfl := alone ok
  exact ⟨[], rfl, trivial, (List.append_nil _).symm⟩

protected theorem pure (result : α) : Emits 0 (pure result : Encode σ α) := by
  apply still
  intro writer after memory kept found ok
  cases ok
  rfl

protected theorem throw (failure : Error) (count : Nat) :
    Emits count (throw failure : Encode σ α) :=
  fun _ _ _ _ _ ok => by cases ok

end Emits

/-- No datum is written as a value of another type. -/
theorem emits_anotherType (type : Schema) (count : Nat) :
    Emits count (anotherType type : Encode σ Unit) :=
  .throw _ count

/-! ## Questions to the lookup -/

theorem emits_names (lookup : Lookup σ) (registry : Option Nat) :
    Emits 0 (names lookup registry : Encode σ TypeRegistry) := by
  apply Emits.still
  intro writer after memory kept registry ok
  cases ok
  rfl

theorem emits_note (lookup : Lookup σ) (registry : Option Nat) (type : Schema) :
    Emits 0 (note lookup registry type : Encode σ Unit) := by
  apply Emits.still
  intro writer after memory kept result ok
  cases ok
  rfl

/-- What a lookup of described formatters finds is one. -/
theorem emits_findThen {lookup : Lookup σ} (described : lookup.Described) {type : Schema}
    {count : Nat} {next : Formatter → Encode σ α}
    (each : ∀ formatter, formatter.Described → Emits count (next formatter)) :
    Emits count (find lookup type >>= next) := by
  have finds : Emits 0 (find lookup type : Encode σ Formatter) := by
    apply Emits.still
    intro writer after memory kept formatter ok
    cases (find_eq_ok.1 ok).2
    rfl
  rw [← Nat.zero_add count]
  apply finds.bindOf
  rintro formatter ⟨session, after, ok⟩
  exact each formatter (described_of_find described ok)

/-! ## Values -/

/-- Writing a value emits it. -/
theorem emits_value (value : Value) : Emits 1 (lift value.write : Encode σ Unit) := by
  intro writer after memory kept result ok
  rcases lift_eq_ok.1 ok with ⟨written, _⟩
  by_cases fits : value.Fits
  · rw [Value.write_of_fits fits] at written
    cases written
    refine ⟨[value], rfl, ⟨fits, trivial⟩, ?_⟩
    rw [Writer.toList_append, Value.encodingItems, Value.encodingItems, List.append_nil]
  · exact absurd written (Value.fails_of_not_fits fits).not_ok

theorem emits_of_eq {write : Write Unit} (value : Value) (same : write = value.write) :
    Emits 1 (lift write : Encode σ Unit) := by
  rw [same]
  exact emits_value value

/-- The header of a count that is written appends its shortest form. -/
theorem header_eq_ok {what : String} {encode : Nat → Bytes} {count : Nat} {writer after : Writer}
    (ok : Write.header what encode count writer = .ok () after) :
    Value.FitsLength count ∧ after = writer.append (encode count) := by
  by_cases fits : Value.FitsLength count
  · rw [Write.header_of_fits fits] at ok
    cases ok
    exact ⟨fits, rfl⟩
  · exact absurd ok (Write.fails_header fits).not_ok

/-- The header of an array and as many values are one value. -/
theorem emits_arrayThen {count : Nat} {rest : Encode σ Unit} (inside : Emits count rest) :
    Emits 1 (do lift (Write.arrayHeader count); rest) := by
  intro writer after memory kept result ok
  rcases bind_eq_ok.1 ok with ⟨_, ⟨middle, between⟩, first, second⟩
  obtain ⟨fits, rfl⟩ := header_eq_ok (lift_eq_ok.1 first).1
  obtain ⟨items, rfl, fitsItems, appended⟩ := inside second
  refine ⟨[.array items], rfl, ⟨⟨fits, fitsItems⟩, trivial⟩, ?_⟩
  rw [appended, Writer.toList_append, Value.encodingItems, Value.encodingItems, List.append_nil,
    Value.encoding, List.append_assoc]

/-- The header of a map and twice as many values are one value. -/
theorem emits_mapThen {count : Nat} {rest : Encode σ Unit} (inside : Emits (count * 2) rest) :
    Emits 1 (do lift (Write.mapHeader count); rest) := by
  intro writer after memory kept result ok
  rcases bind_eq_ok.1 ok with ⟨_, ⟨middle, between⟩, first, second⟩
  obtain ⟨fits, rfl⟩ := header_eq_ok (lift_eq_ok.1 first).1
  obtain ⟨items, paired, fitsItems, appended⟩ := inside second
  obtain ⟨entries, rfl, fitsEntries, same⟩ := Value.exists_entries paired fitsItems
  refine ⟨[.map entries], rfl, ⟨⟨fits, fitsEntries⟩, trivial⟩, ?_⟩
  rw [appended, Writer.toList_append, Value.encodingItems, Value.encodingItems, List.append_nil,
    Value.encoding, same, List.append_assoc]

/-! ## Fields -/

/-- A field that is written is written first, a field that is not is passed over. -/
theorem fieldValues_cons {lookup : Lookup σ} {catalog : Catalog} (keyed : Bool) (value : Datum)
    (values : List Datum) (field : Field Schema) (fields : List (Field Schema)) :
    fieldValues lookup catalog keyed (value :: values) (field :: fields) =
      if field.skip then fieldValues lookup catalog keyed values fields
      else
        (do
          if keyed then lift (Write.str field.key)
          datum lookup catalog value (← find lookup field.type) field.type) >>= fun _ =>
            fieldValues lookup catalog keyed values fields := by
  rw [fieldValues]
  cases field.skip <;> cases keyed <;> simp

/-! ## Typeless values -/

/-- A payload of its own leaves the writer alone. -/
theorem emits_intoPayload (write : Encode σ Unit) : Emits 0 (intoPayload write) := by
  apply Emits.still
  intro writer after memory kept payload ok
  simp only [intoPayload] at ok
  split at ok
  · cases ok
    rfl
  · cases ok

/-- A typeless value is one value, whatever is inside it. -/
theorem emits_typeless (lookup : Lookup σ) (registry : Option Nat) (type : Schema)
    (content : Datum) (whole : Part σ) (parts : List (Part σ)) :
    Emits 1 (typeless lookup registry type content whole parts) := by
  unfold typeless
  split
  · exact emits_value _
  · apply (emits_names lookup registry).after
    intro registered
    split
    · exact .throw _ 1
    · apply (emits_note lookup registry type).after
      intro _
      apply (emits_intoPayload _).after
      intro payload
      exact emits_value (.extension ExtensionCode.typeless payload)

end MsgPack.Encode
