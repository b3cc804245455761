import MsgPack.Collection.Stack
import MsgPack.Proofs.Collection.Occurrences
import MsgPack.Proofs.Formatter.Standard
import MsgPack.Proofs.Reader.Grammar
import MsgPack.Proofs.Wire.Emission

/-!
# One array for many types

The collections that are written as arrays of their items are written as the same array: a list in
any representation, a set in the order of insertion, an array or a tuple of as many items of one
type, and a stack from the top down.  So the array that one of them was written as is read as any
other of them.  What tells them apart is how the items are collected, and when the number of items
is checked: by an array when they are read, by a tuple before.
-/

namespace MsgPack

/-! ## Stacks -/

namespace Stack

variable {α : Type} {stack : Stack α} {items : List α}

/-- Popping a stack until it is empty gives these items. -/
inductive Pops : Stack α → List α → Prop where
  | done {stack : Stack α} (empty : stack.isEmpty) : Pops stack []
  | next {stack : Stack α} {item : α} {items : List α} (top : stack.peek? = some item)
      (others : Pops stack.pop items) : Pops stack (item :: items)

/-- A stack gives its items from the top down. -/
theorem pops_iff : stack.Pops items ↔ stack.fromTop = items := by
  constructor
  · intro pops
    induction pops with
    | done empty => exact List.reverse_eq_nil_iff.2 (List.isEmpty_iff.1 empty)
    | next top others ih =>
        rw [fromTop_pop] at ih
        rw [← head?_fromTop] at top
        rw [← List.cons_head?_tail top, ih]
  · intro given
    induction items generalizing stack with
    | nil => exact .done (List.isEmpty_iff.2 (List.reverse_eq_nil_iff.1 given))
    | cons item items ih =>
        refine .next ?_ (ih ?_)
        · rw [← head?_fromTop, given, List.head?_cons]
        · rw [fromTop_pop, given, List.tail_cons]

/-- What is pushed last is popped first. -/
theorem pops_ofPushes (items : List α) : (ofPushes items.reverse).Pops items :=
  pops_iff.2 (List.reverse_reverse items)

end Stack

/-! ## Writing -/

section Writing

open Session

variable {catalog : Catalog} {type : Schema} {items : List Datum}

/-- A value of a type that brings a formatter is written with it. -/
theorem Write.datum_of_brings {given : Schema} (brings : (catalog.formatter? given).isSome)
    (content : Datum) : Write.datum catalog given content =
      withMemory () (Encode.datum (.standard catalog) catalog content .builtin given) := by
  rw [Write.datum, Encode.value, withMemory_bind, withMemory_find, Catalog.known, if_pos brings]
  rfl

/-- Items behind their number, if their type brings a formatter. -/
def Write.row (catalog : Catalog) (type : Schema) (items : List Datum) : Write Unit := do
  catalog.known type
  Write.arrayHeader items.length
  withMemory () (Encode.items (.standard catalog) catalog items .builtin type)

theorem Write.row_eq (catalog : Catalog) (type : Schema) (items : List Datum) :
    withMemory () (do
      let formatter ← find (.standard catalog) type
      lift (Write.arrayHeader items.length)
      Encode.items (.standard catalog) catalog items formatter type) =
    Write.row catalog type items := by
  simp only [withMemory_bind, withMemory_find, withMemory_lift, bind_assoc, pure_bind, Write.row]

theorem Write.datum_sequence (kind : SequenceKind) (items : List Datum) :
    Write.datum catalog (.sequence kind type) (.list items) =
      Write.row catalog type (kind.elements items) := by
  rw [Write.datum_of_brings rfl, ← Write.row_eq, Encode.datum_sequence]

theorem Write.datum_array (length : Nat) (items : List Datum) :
    Write.datum catalog (.array length type) (.list items) = Write.row catalog type items := by
  rw [Write.datum_of_brings rfl, ← Write.row_eq]
  rfl

/-- Items of one type that brings a formatter are written in the same way whether or not it is
asked for with each of them. -/
theorem Encode.tuple_replicate (brings : (catalog.formatter? type).isSome) (items : List Datum) :
    withMemory () (Encode.tuple (.standard catalog) catalog items
        (List.replicate items.length type)) =
      withMemory () (Encode.items (.standard catalog) catalog items .builtin type) := by
  induction items with
  | nil => rfl
  | cons item items ih =>
      simp only [List.length_cons, List.replicate_succ, Encode.tuple, Encode.items_cons,
        withMemory_bind, withMemory_find, Catalog.known, if_pos brings, pure_bind, ih]

theorem Write.datum_tuple (items : List Datum) :
    Write.datum catalog (.tuple (List.replicate items.length type)) (.list items) = (do
      Write.arrayHeader items.length
      withMemory () (Encode.tuple (.standard catalog) catalog items
        (List.replicate items.length type))) := by
  have shaped : withMemory () (Encode.datum (.standard catalog) catalog (.list items) .builtin
      (.tuple (List.replicate items.length type))) = withMemory () (do
        lift (Write.arrayHeader (List.replicate items.length type).length)
        Encode.tuple (.standard catalog) catalog items (List.replicate items.length type)) := rfl
  rw [Write.datum_of_brings rfl, shaped, withMemory_bind, withMemory_lift, List.length_replicate]

theorem serialize_tuple (arity : 1 ≤ items.length ∧ items.length ≤ 8) :
    serialize catalog (.tuple (List.replicate items.length type)) (.list items) =
      serialize catalog (.sequence .list type) (.list items) := by
  rw [serialize, serialize, Write.datum_tuple, Write.datum_sequence, Write.row]
  by_cases brings : (catalog.formatter? type).isSome
  · rw [Encode.tuple_replicate brings, Catalog.known, if_pos brings, pure_bind]
    rfl
  · -- A tuple has written its header when it fails, but the bytes are lost with the failure.
    have header : Write.arrayHeader items.length = Write.emit (arrayHeader items.length) :=
      Write.header_of_fits (by omega)
    obtain ⟨first, others, rfl⟩ := List.exists_cons_of_length_pos arity.1
    simp only [List.length_cons, List.replicate_succ, Encode.tuple, withMemory_bind,
      withMemory_find, Catalog.known, if_neg brings] at header ⊢
    rw [header]
    rfl

end Writing

/-! ## Reading -/

section Reading

open Session

variable {catalog : Catalog} {type : Schema} {items : List Datum} {reader after : Reader}

/-- As many results are collected as the loop has turns. -/
theorem Loop.length_of_times {ρ α : Type} {item : EStateM Error ρ α} {count : Nat}
    {found : List α} {state after : ρ} (ok : Loop.times count item state = .ok found after) :
    found.length = count := by
  induction count generalizing state found with
  | zero =>
      cases ok
      rfl
  | succ count ih =>
      rw [Loop.times_succ] at ok
      obtain ⟨first, middle, _, ok⟩ := bind_eq_ok.1 ok
      obtain ⟨others, last, rest, ok⟩ := bind_eq_ok.1 ok
      cases ok
      rw [List.length_cons, ih rest]

/-- What reads an item inside of a collection. -/
def Read.itemOf (catalog : Catalog) (type : Schema) (budget : Nat) : Read Datum :=
  withMemory () (Decode.inside catalog budget .builtin type)

/-- Items behind their number, if their type brings a formatter. -/
def Read.row (catalog : Catalog) (type : Schema) (budget : Nat) : Read (List Datum) := do
  let count ← Read.arrayHeader
  catalog.known type
  Read.nested (Loop.times count (Read.itemOf catalog type budget))

theorem Read.row_eq (budget : Nat) :
    withMemory () (Decode.collection (.standard catalog) (Decode.inside catalog budget) type) =
      Read.row catalog type budget := by
  simp only [Decode.collection, withMemory_bind, withMemory_lift, withMemory_find,
    withMemory_nested, withMemory_times, bind_assoc, pure_bind, Read.row, Read.itemOf]

/-- A value of a type that brings a formatter is read as its description says. -/
theorem Read.datum_of_brings {given : Schema} (brings : (catalog.formatter? given).isSome)
    (reader : Reader) : Read.datum catalog given reader =
      withMemory () (Decode.shaped (.standard catalog) catalog
        (Decode.inside catalog reader.budget) given) reader := by
  rw [Read.datum_eq]
  dsimp only
  rw [Decode.within_builtin, Catalog.known, if_pos brings, pure_bind]

theorem Read.datum_sequence (kind : SequenceKind) (reader : Reader) :
    Read.datum catalog (.sequence kind type) reader =
      (return Datum.list (kind.build (catalog.sortKey type)
        (← Read.row catalog type reader.budget))) reader := by
  rw [Read.datum_of_brings rfl, ← Read.row_eq]
  rw [Decode.shaped, withMemory_bind]
  rfl

theorem Read.datum_array (length : Nat) (reader : Reader) :
    Read.datum catalog (.array length type) reader = (Read.row catalog type reader.budget >>=
      fun items => (if items.length = length then pure (Datum.list items)
        else throw (.countMismatch (Schema.array length type).typeName length items.length) :
          Read Datum)) reader := by
  rw [Read.datum_of_brings rfl, ← Read.row_eq]
  rw [Decode.shaped, Decode.array, withMemory_bind]
  simp only [withMemory_ite]
  rfl

/-- Items of one type that brings a formatter are read in the same way whether or not it is asked
for with each of them. -/
theorem Decode.each_replicate (brings : (catalog.formatter? type).isSome) (budget count : Nat) :
    withMemory () (Decode.each (.standard catalog) (Decode.inside catalog budget)
        (List.replicate count type)) =
      Loop.times count (Read.itemOf catalog type budget) := by
  induction count with
  | zero => rfl
  | succ count ih =>
      simp only [List.replicate_succ, Decode.each, Decode.found, withMemory_bind, withMemory_find,
        withMemory_pure, Catalog.known, if_pos brings, pure_bind, ih, Loop.times_succ, Read.itemOf]

theorem Read.datum_tuple (brings : (catalog.formatter? type).isSome) (arity : Nat)
    (reader : Reader) :
    Read.datum catalog (.tuple (List.replicate arity type)) reader = (do
      Read.arrayOf arity (Schema.tuple (List.replicate arity type)).typeName
      return Datum.list (← Read.nested
        (Loop.times arity (Read.itemOf catalog type reader.budget)))) reader := by
  rw [Read.datum_of_brings rfl]
  simp only [Decode.shaped, withMemory_bind, withMemory_lift, withMemory_nested, withMemory_pure,
    List.length_replicate, Decode.each_replicate brings]

/-- Items that were read stand behind their number, and their type brings a formatter. -/
theorem Read.of_row_eq_ok {budget : Nat}
    (ok : Read.row catalog type budget reader = .ok items after) :
    (catalog.formatter? type).isSome ∧ ∃ inside,
      Read.arrayHeader reader = .ok items.length inside ∧
        Read.nested (Loop.times items.length (Read.itemOf catalog type budget)) inside =
          .ok items after := by
  obtain ⟨count, inside, header, ok⟩ := bind_eq_ok.1 ok
  by_cases brings : (catalog.formatter? type).isSome
  · rw [Catalog.known, if_pos brings, pure_bind] at ok
    obtain ⟨_, _, collected, _⟩ := Read.of_nested_eq_ok ok
    obtain rfl := Loop.length_of_times collected
    exact ⟨brings, inside, header, ok⟩
  · rw [Catalog.known, if_neg brings] at ok
    cases ok

end Reading

/-! ## Interchange -/

/-- The types whose values are written as an array of items of one type, each with the value that
these items are of it. -/
inductive Interchange (catalog : Catalog) (type : Schema) (items : List Datum) :
    Schema → Datum → Prop where
  | list : Interchange catalog type items (.sequence .list type) (.list items)
  | deque : Interchange catalog type items (.sequence .deque type) (.list items)
  | linkedList : Interchange catalog type items (.sequence .linkedList type) (.list items)
  | slice : Interchange catalog type items (.sequence .slice type) (.list items)
  | array : Interchange catalog type items (.array items.length type) (.list items)
  | tuple (arity : 1 ≤ items.length ∧ items.length ≤ 8) :
      Interchange catalog type items (.tuple (List.replicate items.length type)) (.list items)
  | indexSet (apart : items.Pairwise fun left right =>
      catalog.sortKey type left ≠ catalog.sortKey type right) :
      Interchange catalog type items (.sequence .indexSet type)
        (.list (SequenceKind.indexSet.build (catalog.sortKey type) items))
  | stack {stack : Stack Datum} (pops : stack.Pops items) :
      Interchange catalog type items (.sequence .stack type) (.list stack.items)

/-- How a reader ends for the other types where it reads a list with these items. -/
structure ReadsAlike (catalog : Catalog) (type : Schema) (reader : Reader) (items : List Datum)
    (after : Reader) : Prop where
  deque : Read.datum catalog (.sequence .deque type) reader = .ok (.list items) after
  linkedList : Read.datum catalog (.sequence .linkedList type) reader = .ok (.list items) after
  slice : Read.datum catalog (.sequence .slice type) reader = .ok (.list items) after
  stack : ∃ stack : Stack Datum, stack.Pops items ∧
    Read.datum catalog (.sequence .stack type) reader = .ok (.list stack.items) after
  indexSet : Read.datum catalog (.sequence .indexSet type) reader =
    .ok (.list (Keyed.firsts (catalog.sortKey type) items)) after
  array : ∀ length, Read.datum catalog (.array length type) reader =
    if length = items.length then .ok (.list items) after
    else .error (.countMismatch (Schema.array length type).typeName length items.length) after
  tuple : ∀ arity, 1 ≤ arity → arity ≤ 8 → ∃ inside,
    Read.arrayHeader reader = .ok items.length inside ∧
      Read.datum catalog (.tuple (List.replicate arity type)) reader =
        if arity = items.length then .ok (.list items) after
        else .error (.countMismatch (Schema.tuple (List.replicate arity type)).typeName arity
          items.length) inside

section Interchange

variable {catalog : Catalog} {type target : Schema} {content : Datum} {items : List Datum}
variable {reader after : Reader}

/-- What may stand for a list is written as the list is. -/
theorem Interchange.serialize_eq (change : Interchange catalog type items target content) :
    serialize catalog target content =
      serialize catalog (.sequence .list type) (.list items) := by
  have sequence {kind : SequenceKind} {content : List Datum}
      (given : kind.elements content = items) :
      serialize catalog (.sequence kind type) (.list content) =
        serialize catalog (.sequence .list type) (.list items) := by
    rw [serialize, serialize, Write.datum_sequence, Write.datum_sequence, given]
    rfl
  cases change with
  | list => rfl
  | deque | linkedList | slice => exact sequence rfl
  | array =>
      rw [serialize, serialize, Write.datum_array, Write.datum_sequence]
      rfl
  | tuple arity => exact serialize_tuple arity
  | indexSet apart =>
      have admitted : SequenceKind.indexSet.Admits (catalog.sortKey type) items := apart
      exact sequence admitted.build_elements
  | stack pops => exact sequence (Stack.pops_iff.1 pops)

/-- A list that was read is one of items behind their number. -/
theorem Read.row_of_list (ok : Read.datum catalog (.sequence .list type) reader =
    .ok (.list items) after) : Read.row catalog type reader.budget reader = .ok items after := by
  rw [Read.datum_sequence] at ok
  obtain ⟨found, _, row, ok⟩ := bind_eq_ok.1 ok
  rw [SequenceKind.build_list] at ok
  cases ok
  exact row

/-- What reads a list reads anything that may stand for it. -/
theorem Read.readsAlike_of_list (ok : Read.datum catalog (.sequence .list type) reader =
    .ok (.list items) after) : ReadsAlike catalog type reader items after := by
  have row := Read.row_of_list ok
  have sequence {kind : SequenceKind} {content : List Datum}
      (built : kind.build (catalog.sortKey type) items = content) :
      Read.datum catalog (.sequence kind type) reader = .ok (.list content) after := by
    rw [Read.datum_sequence, bind_of_ok row, built]
    rfl
  refine ⟨sequence (SequenceKind.build_deque items), sequence (SequenceKind.build_linkedList items),
    sequence (SequenceKind.build_slice items), ?stack, sequence ?indexSet, ?array, ?tuple⟩
  case stack =>
    exact ⟨.ofPushes items.reverse, Stack.pops_ofPushes items,
      sequence (SequenceKind.build_stack items)⟩
  case indexSet =>
    rw [SequenceKind.build_indexSet, Keyed.foldl_addLast]
  case array =>
    intro length
    rw [Read.datum_array, bind_of_ok row]
    by_cases same : length = items.length
    · rw [if_pos same, if_pos same.symm]
      rfl
    · rw [if_neg same, if_neg (Ne.symm same)]
      rfl
  case tuple =>
    intro arity _ _
    obtain ⟨brings, inside, header, inner⟩ := Read.of_row_eq_ok row
    refine ⟨inside, header, ?_⟩
    rw [Read.datum_tuple brings, Read.arrayOf]
    simp only [bind_assoc]
    rw [bind_of_ok header]
    by_cases same : arity = items.length
    · subst same
      rw [if_pos rfl, if_pos rfl, pure_bind, bind_of_ok inner]
      rfl
    · rw [if_neg same, if_neg (Ne.symm same)]
      rfl

end Interchange

/-- Lists, arrays, tuples, sets and stacks of the same items are interchangeable: they are written
as the same bytes, and bytes that are read as a list are read as any of the others. -/
theorem sequences_interchange (catalog : Catalog) (type : Schema) :
    (∀ (items : List Datum) (target : Schema) (content : Datum),
      Interchange catalog type items target content →
        serialize catalog target content =
          serialize catalog (.sequence .list type) (.list items)) ∧
    ∀ (reader after : Reader) (items : List Datum),
      Read.datum catalog (.sequence .list type) reader = .ok (.list items) after →
        ReadsAlike catalog type reader items after :=
  ⟨fun _ _ _ change => change.serialize_eq, fun _ _ _ ok => Read.readsAlike_of_list ok⟩

/-- A stack from which one is popped before two, and the bytes of both. -/
theorem sequences_interchange_of_two :
    let type : Schema := .scalar (.int .u8)
    let one : Datum := .atom (.int 1)
    let two : Datum := .atom (.int 2)
    (serialize .empty (.sequence .stack type) (.list (Stack.ofPushes [two, one]).items) =
        serialize .empty (.sequence .list type) (.list [one, two]) ∧
      serialize .empty (.sequence .list type) (.list [one, two]) = .ok [0x92, 1, 2]) ∧
    ∃ after, ReadsAlike .empty type (.ofBytes [0x92, 1, 2]) [one, two] after := by
  intro type one two
  obtain ⟨written, read⟩ := sequences_interchange .empty type
  refine ⟨⟨written [one, two] _ _ (.stack (Stack.pops_ofPushes [one, two])), ?bytes⟩, ?after,
    read (.ofBytes [0x92, 1, 2]) _ [one, two] ?ok⟩
  case bytes => decide +kernel
  case ok => rfl

end MsgPack
