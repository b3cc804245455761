import MsgPack.Proofs.Collection.Grid
import MsgPack.Proofs.Formatter.Answers
import MsgPack.Proofs.Formatter.Recursion

/-!
# Two-dimensional arrays on the wire

A two-dimensional array is written as an array of three items: its dimensions, and a list of its
items.  Each of the three is read as what it is, and they make a two-dimensional array just if
there are as many items as cells.
-/

namespace MsgPack

/-- A number that has the width of an address is not negative. -/
theorem Read.size_nonneg {reader after : Reader} {number : Int}
    (ok : Read.size .usize reader = .ok number after) : 0 ≤ number := by
  obtain ⟨integer, middle, _, fitted⟩ := bind_eq_ok.1 ok
  unfold Read.fit at fitted
  cases fits : integer.fit? .usize with
  | none =>
      rw [fits] at fitted
      cases fitted
  | some number =>
      rw [fits] at fitted
      cases fitted
      exact (Integer.fit?_eq_some_iff.1 fits).2.1

/-- An array of a certain length is announced just so. -/
theorem Read.arrayOf_eq_ok_iff {length : Nat} {typeName : String} {reader after : Reader} :
    Read.arrayOf length typeName reader = .ok () after ↔
      Read.arrayHeader reader = .ok length after := by
  unfold Read.arrayOf
  rw [bind_eq_ok]
  constructor
  · rintro ⟨count, middle, header, checked⟩
    split at checked
    · rename_i same
      cases checked
      rwa [← same]
    · cases checked
  · intro header
    exact ⟨length, after, header, by rw [if_pos rfl]; rfl⟩

theorem Read.ofExcept_eq_ok_iff {α : Type} {checked : Except Error α} {reader after : Reader}
    {result : α} : Read.ofExcept checked reader = .ok result after ↔
      checked = .ok result ∧ after = reader := by
  cases checked with
  | ok found =>
      constructor
      · intro ok
        cases ok
        exact ⟨rfl, rfl⟩
      · rintro ⟨ok, rfl⟩
        cases ok
        rfl
  | error failure => exact iff_of_false (fun ok => nomatch ok) fun ok => nomatch ok.1

namespace Decode

open Session

variable {σ : Type} {lookup : Lookup σ} {catalog : Catalog} {type : Schema}

/-- A list is read as the items of an array. -/
theorem datum_list (steady : lookup.Steady) (catalog : Catalog) (type : Schema) :
    datum lookup catalog .builtin (.sequence .list type) = (do
      return .list (← collection lookup (datum lookup catalog) type)) := by
  have delegates :
      Delegates lookup .outside (layer lookup catalog .builtin (.sequence .list type)) :=
    delegates_shaped _
  rw [datum_eq steady delegates, layer, formatted, shaped]
  simp only [SequenceKind.build_list]

theorem datum_grid (steady : lookup.Steady) (catalog : Catalog) (type : Schema) :
    datum lookup catalog .builtin (.grid type) = grid lookup (datum lookup catalog) type := by
  have delegates : Delegates lookup .outside (layer lookup catalog .builtin (.grid type)) :=
    delegates_shaped _
  rw [datum_eq steady delegates]
  rfl

/-- What is read for a two-dimensional array, one after the other: the header of an array of three
items, and inside it two dimensions and a list. -/
inductive GridParts (lookup : Lookup σ) (catalog : Catalog) (type : Schema) :
    (session after : Session Reader σ) → (rows columns : Nat) → (items : List Datum) → Prop where
  | intro {reader opened first second last : Reader} {memory kept : σ} {rows columns : Nat}
      {items : List Datum} (header : Read.arrayHeader reader = .ok 3 opened)
      (room : 0 < opened.budget)
      (height : Read.size .usize opened.entered = .ok (rows : Int) first)
      (width : Read.size .usize first = .ok (columns : Int) second)
      (data : datum lookup catalog .builtin (.sequence .list type) ⟨second, memory⟩ =
        .ok (.list items) ⟨last, kept⟩) :
      GridParts lookup catalog type ⟨reader, memory⟩ ⟨{ last with depth := opened.depth }, kept⟩
        rows columns items

variable {session after last : Session Reader σ} {rows columns rows' columns' : Nat}
  {items items' : List Datum}

/-- The parts are determined by where they are read. -/
theorem GridParts.unique (parts : GridParts lookup catalog type session after rows columns items)
    (parts' : GridParts lookup catalog type session last rows' columns' items') :
    rows = rows' ∧ columns = columns' ∧ items = items' := by
  cases parts with
  | intro header room height width data =>
      cases parts' with
      | intro header' room' height' width' data' =>
          cases header.symm.trans header'
          injection height.symm.trans height' with rows_eq first
          subst first
          injection width.symm.trans width' with columns_eq second
          subst second
          cases data.symm.trans data'
          exact ⟨Int.ofNat.inj rows_eq, Int.ofNat.inj columns_eq, rfl⟩

/-- A two-dimensional array is read just if its parts are and fit together. -/
theorem datum_grid_eq_ok_iff (steady : lookup.Steady) {content : Datum} :
    datum lookup catalog .builtin (.grid type) session = .ok content after ↔
      ∃ rows columns items built, GridParts lookup catalog type session after rows columns items ∧
        Grid.ofItems (Schema.grid type).typeName rows columns items = .ok built ∧
        content = .grid built.rows built.columns built.items := by
  rcases session with ⟨reader, memory⟩
  rw [datum_grid steady, grid]
  constructor
  · intro ok
    obtain ⟨_, ⟨opened, _⟩, headed, ok⟩ := bind_eq_ok.1 ok
    obtain ⟨header, rfl⟩ := lift_eq_ok.1 headed
    obtain ⟨⟨rows, columns, items⟩, ⟨closed, kept⟩, inside, ok⟩ := bind_eq_ok.1 ok
    obtain ⟨room, last, _, inside, same⟩ := nested_eq_ok.1 inside
    cases same
    obtain ⟨tall, ⟨first, _⟩, measured, inside⟩ := bind_eq_ok.1 inside
    obtain ⟨height, rfl⟩ := lift_eq_ok.1 measured
    obtain ⟨wide, ⟨second, _⟩, measured, inside⟩ := bind_eq_ok.1 inside
    obtain ⟨width, rfl⟩ := lift_eq_ok.1 measured
    obtain ⟨list, middle, listed, inside⟩ := bind_eq_ok.1 inside
    cases inside
    obtain ⟨built, ⟨ending, _⟩, checked, ok⟩ := bind_eq_ok.1 ok
    obtain ⟨fitted, rfl⟩ := lift_eq_ok.1 checked
    cases ok
    obtain ⟨made, rfl⟩ := Read.ofExcept_eq_ok_iff.1 fitted
    rw [← Int.toNat_of_nonneg (Read.size_nonneg height)] at height
    rw [← Int.toNat_of_nonneg (Read.size_nonneg width)] at width
    have data : datum lookup catalog .builtin (.sequence .list type) ⟨second, memory⟩ =
        .ok (.list items) ⟨last, kept⟩ := by
      rw [datum_list steady]
      exact bind_eq_ok.2 ⟨items, _, listed, rfl⟩
    exact ⟨_, _, _, built, .intro (Read.arrayOf_eq_ok_iff.1 header) room height width data, made,
      rfl⟩
  · rintro ⟨rows, columns, items, built, parts, made, rfl⟩
    cases parts with
    | @intro _ opened first second last _ kept _ _ _ header room height width data =>
        rw [datum_list steady] at data
        obtain ⟨list, middle, listed, same⟩ := bind_eq_ok.1 data
        cases same
        refine bind_eq_ok.2 ⟨(), ⟨opened, memory⟩, ?_, ?_⟩
        · exact lift_eq_ok.2 ⟨Read.arrayOf_eq_ok_iff.2 header, rfl⟩
        refine bind_eq_ok.2 ⟨(rows, columns, items), _, nested_eq_ok.2 ⟨room, last, kept, ?_, rfl⟩,
          ?_⟩
        · refine bind_eq_ok.2 ⟨rows, ⟨first, memory⟩, lift_eq_ok.2 ⟨height, rfl⟩, ?_⟩
          refine bind_eq_ok.2 ⟨columns, ⟨second, memory⟩, lift_eq_ok.2 ⟨width, rfl⟩, ?_⟩
          exact bind_eq_ok.2 ⟨items, _, listed, rfl⟩
        · refine bind_eq_ok.2 ⟨built, _, lift_eq_ok.2 ⟨?_, rfl⟩, rfl⟩
          exact Read.ofExcept_eq_ok_iff.2 ⟨made, rfl⟩

/-- A two-dimensional array that is made or read, and written into, has exactly the cells that its
dimensions say, each its own item, found without overflow.  Items fill an array, and the parts that
are read make one, just if the number of cells has at most 64 bits and is the number of items. -/
theorem grid_exact (steady : lookup.Steady) (catalog : Catalog) (type : Schema) :
    (∀ (α : Type) (grid : Grid α), grid.Made → grid.Sound) ∧
    (∀ (α : Type) (typeName : String) (rows columns : Nat) (items : List α),
      (∃ grid, Grid.ofItems typeName rows columns items = .ok grid) ↔
        rows * columns < 0x10000000000000000 ∧ items.length = rows * columns) ∧
    (∀ session content after,
      datum lookup catalog .builtin (.grid type) session = .ok content after →
        ∃ grid : Grid Datum, grid.Made ∧ content = .grid grid.rows grid.columns grid.items ∧
          GridParts lookup catalog type session after grid.rows grid.columns grid.items) ∧
    ∀ session after rows columns items,
      GridParts lookup catalog type session after rows columns items →
        ((∃ content last, datum lookup catalog .builtin (.grid type) session = .ok content last) ↔
          rows * columns < 0x10000000000000000 ∧ items.length = rows * columns) := by
  refine ⟨fun _ _ => Grid.Made.sound, fun _ _ _ _ _ => Grid.exists_ofItems_iff, ?_, ?_⟩
  · intro session content after ok
    obtain ⟨rows, columns, items, built, parts, made, rfl⟩ := (datum_grid_eq_ok_iff steady).1 ok
    obtain ⟨rfl, rfl, rfl⟩ := Grid.of_ofItems_eq_ok made
    exact ⟨built, .items made, rfl, parts⟩
  · intro session after rows columns items parts
    rw [← Grid.exists_ofItems_iff]
    constructor
    · rintro ⟨content, last, ok⟩
      obtain ⟨rows', columns', items', built, parts', made, _⟩ :=
        (datum_grid_eq_ok_iff steady).1 ok
      obtain ⟨rfl, rfl, rfl⟩ := parts.unique parts'
      exact ⟨built, made⟩
    · rintro ⟨built, made⟩
      exact ⟨_, after, (datum_grid_eq_ok_iff steady).2
        ⟨rows, columns, items, built, parts, made, rfl⟩⟩

/-- Two rows of one cell each, read and written into. -/
theorem grid_exact_column :
    ∃ (grid next : Grid Datum) (last : Session Reader Unit),
      datum (.standard .empty) .empty .builtin (.grid (.scalar (.int .u8)))
        ⟨.ofCursor (.ofBytes [0x93, 0x02, 0x01, 0x92, 0x05, 0x06]) 2, ()⟩ =
          .ok (.grid grid.rows grid.columns grid.items) last ∧
      grid.set? 1 0 (.atom (.int 7)) = some next ∧
      next.get? 1 0 = some (.atom (.int 7)) ∧ next.get? 0 0 = grid.get? 0 0 := by
  have steady := (Lookup.described_standard .empty).steady
  obtain ⟨sound, _, reads, _⟩ := grid_exact steady .empty (.scalar (.int .u8))
  let reader : Reader := .ofCursor (.ofBytes [0x93, 0x02, 0x01, 0x92, 0x05, 0x06]) 2
  obtain ⟨last, ok⟩ : ∃ last, datum (.standard .empty) .empty .builtin
      (.grid (.scalar (.int .u8))) ⟨reader, ()⟩ =
        .ok (.grid 2 1 [.atom (.int 5), .atom (.int 6)]) last := ⟨_, rfl⟩
  obtain ⟨grid, made, same, _⟩ := reads _ _ _ ok
  obtain ⟨rows, columns, _⟩ := Datum.grid.inj same
  have inside : 1 < grid.rows ∧ 0 < grid.columns := by omega
  obtain ⟨next, written⟩ := ((sound _ grid made).writes 1 0 (.atom (.int 7))).1.2 inside
  obtain ⟨_, _, cells⟩ := ((sound _ grid made).writes 1 0 (.atom (.int 7))).2 next written
  exact ⟨grid, next, last, same ▸ ok, written, cells 1 0, cells 0 0⟩

end Decode

end MsgPack
