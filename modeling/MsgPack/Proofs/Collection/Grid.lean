import MsgPack.Collection.Grid

/-!
# Cells of two-dimensional arrays

However a two-dimensional array is made, and whatever is written into its cells, it has as many
items as its dimensions say, and their number has at most 64 bits.  So the place of a cell can be
computed in as many bits, lies among the items just if the cell lies inside the dimensions, and
is the place of no other cell.
-/

namespace MsgPack.Grid

variable {α : Type}

/-! ## Places -/

variable {grid next : Grid α} {row column row' column' : Nat}

/-- The cell is known from its place. -/
theorem place_div_mod (inside : grid.Inside row column) :
    grid.place row column / grid.columns = row ∧
      grid.place row column % grid.columns = column := by
  have wide : 0 < grid.columns := Nat.zero_lt_of_lt inside.2
  rw [place, Nat.add_comm]
  constructor
  · rw [Nat.add_mul_div_right _ _ wide, Nat.div_eq_of_lt inside.2, Nat.zero_add]
  · rw [Nat.add_mul_mod_self_right, Nat.mod_eq_of_lt inside.2]

/-- Different cells have different places. -/
theorem place_injective (inside : grid.Inside row column) (inside' : grid.Inside row' column')
    (same : grid.place row column = grid.place row' column') : row = row' ∧ column = column' := by
  obtain ⟨rows, columns⟩ := place_div_mod inside
  obtain ⟨rows', columns'⟩ := place_div_mod inside'
  rw [same] at rows columns
  exact ⟨rows.symm.trans rows', columns.symm.trans columns'⟩

theorem get?_eq (grid : Grid α) (row column : Nat) :
    grid.get? row column =
      if grid.Inside row column then grid.items[grid.place row column]? else none := by
  unfold get?
  split
  · rename_i inside
    rw [List.getElem?_eq_getElem (place_lt_length inside), List.get_eq_getElem]
  · rfl

theorem get?_isSome_iff : (grid.get? row column).isSome ↔ grid.Inside row column := by
  unfold get?
  split
  · rename_i inside
    exact iff_of_true rfl inside
  · rename_i outside
    exact iff_of_false Bool.false_ne_true outside

/-! ## Writing -/

/-- An item is written just into a cell inside the dimensions, and the array keeps them. -/
theorem set?_eq_some_iff {item : α} : grid.set? row column item = some next ↔
    grid.Inside row column ∧ next.rows = grid.rows ∧ next.columns = grid.columns ∧
      next.items = grid.items.set (grid.place row column) item := by
  unfold set?
  split
  · rename_i inside
    rcases next with ⟨rows, columns, items, length⟩
    simp [inside, eq_comm]
  · rename_i outside
    simp [outside]

/-- What is written into a cell is found there, and in the other cells what was there. -/
theorem get?_of_set? {item : α} (written : grid.set? row column item = some next)
    (row' column' : Nat) : next.get? row' column' =
      if row' = row ∧ column' = column then some item else grid.get? row' column' := by
  obtain ⟨inside, rows, columns, items⟩ := set?_eq_some_iff.1 written
  have same : next.Inside row' column' ↔ grid.Inside row' column' := by
    rw [Inside, Inside, rows, columns]
  have place_eq : next.place row' column' = grid.place row' column' := by
    rw [place, place, columns]
  rw [get?_eq, get?_eq, items, place_eq, List.getElem?_set]
  by_cases here : row' = row ∧ column' = column
  · obtain ⟨rfl, rfl⟩ := here
    rw [if_pos (same.2 inside), if_pos rfl, if_pos (place_lt_length inside), if_pos ⟨rfl, rfl⟩]
  · rw [if_neg here]
    by_cases inside' : grid.Inside row' column'
    · have apart : grid.place row column ≠ grid.place row' column' := fun place =>
        here (place_injective inside' inside place.symm)
      rw [if_pos (same.2 inside'), if_pos inside', if_neg apart]
    · rw [if_neg (mt same.1 inside'), if_neg inside']

/-! ## Making -/

/-- Items fill an array just if there are as many as cells, and not too many for 64 bits. -/
theorem exists_ofItems_iff {typeName : String} {rows columns : Nat} {items : List α} :
    (∃ grid, ofItems typeName rows columns items = .ok grid) ↔
      rows * columns < 0x10000000000000000 ∧ items.length = rows * columns := by
  unfold ofItems
  split
  · rename_i beyond
    exact iff_of_false (fun ⟨_, ok⟩ => nomatch ok) fun fits => absurd fits.1 (Nat.not_lt.2 beyond)
  · rename_i bounded
    split
    · rename_i complete
      exact iff_of_true ⟨_, rfl⟩ ⟨Nat.lt_of_not_le bounded, complete⟩
    · rename_i apart
      exact iff_of_false (fun ⟨_, ok⟩ => nomatch ok) fun fits => apart fits.2

theorem of_ofItems_eq_ok {typeName : String} {rows columns : Nat} {items : List α}
    (ok : ofItems typeName rows columns items = .ok grid) :
    grid.rows = rows ∧ grid.columns = columns ∧ grid.items = items := by
  unfold ofItems at ok
  split at ok
  · cases ok
  · split at ok
    · cases ok
      exact ⟨rfl, rfl, rfl⟩
    · cases ok

/-- The arrays that can be made: of items that fill them, of a function whose cells have a number
of at most 64 bits, and by writing into cells. -/
inductive Made : Grid α → Prop where
  | items {typeName : String} {rows columns : Nat} {items : List α} {grid : Grid α}
      (ok : ofItems typeName rows columns items = .ok grid) : Made grid
  | cells {rows columns : Nat} (cell : Nat → Nat → α)
      (fits : rows * columns < 0x10000000000000000) : Made (ofFn rows columns cell)
  | written {grid next : Grid α} {row column : Nat} {item : α} (made : Made grid)
      (ok : grid.set? row column item = some next) : Made next

/-- The number of cells of an array that can be made has at most 64 bits. -/
theorem Made.fits (made : grid.Made) : grid.rows * grid.columns < 0x10000000000000000 := by
  induction made with
  | items ok =>
      obtain ⟨rows, columns, _⟩ := of_ofItems_eq_ok ok
      rw [rows, columns]
      exact (exists_ofItems_iff.1 ⟨_, ok⟩).1
  | cells _ fits => exact fits
  | written _ ok ih =>
      obtain ⟨_, rows, columns, _⟩ := set?_eq_some_iff.1 ok
      rwa [rows, columns]

/-! ## Cells -/

/-- What holds of an array with as many items as cells. -/
structure Sound (grid : Grid α) : Prop where
  count : grid.items.length = grid.rows * grid.columns
  /-- Exactly the cells inside the dimensions have items. -/
  isSome_iff : ∀ row column,
    (grid.get? row column).isSome ↔ row < grid.rows ∧ column < grid.columns
  /-- The place of such a cell is computed without overflow, and its item is found there. -/
  bounded : ∀ row column, row < grid.rows → column < grid.columns →
    row * grid.columns + column < 0x10000000000000000 ∧
      grid.get? row column = grid.items[row * grid.columns + column]?
  /-- Different cells are different items. -/
  apart : ∀ row column row' column', row < grid.rows → column < grid.columns →
    row' < grid.rows → column' < grid.columns →
      row * grid.columns + column = row' * grid.columns + column' → row = row' ∧ column = column'
  /-- A cell is written if it lies inside the dimensions, and then no other cell is changed. -/
  writes : ∀ row column item,
    ((∃ next, grid.set? row column item = some next) ↔ row < grid.rows ∧ column < grid.columns) ∧
    ∀ next, grid.set? row column item = some next →
      next.rows = grid.rows ∧ next.columns = grid.columns ∧
      ∀ row' column', next.get? row' column' =
        if row' = row ∧ column' = column then some item else grid.get? row' column'

theorem Made.sound (made : grid.Made) : grid.Sound where
  count := grid.length_items
  isSome_iff := fun _ _ => get?_isSome_iff
  bounded := by
    intro row column high wide
    have inside : grid.Inside row column := ⟨high, wide⟩
    have below := place_lt_length inside
    rw [grid.length_items] at below
    refine ⟨Nat.lt_trans below made.fits, ?_⟩
    rw [get?_eq, if_pos inside]
    rfl
  apart := fun _ _ _ _ high wide high' wide' => place_injective ⟨high, wide⟩ ⟨high', wide'⟩
  writes := by
    intro row column item
    constructor
    · constructor
      · rintro ⟨next, written⟩
        exact (set?_eq_some_iff.1 written).1
      · intro inside
        exact ⟨_, if_pos inside⟩
    · intro next written
      obtain ⟨_, rows, columns, _⟩ := set?_eq_some_iff.1 written
      exact ⟨rows, columns, get?_of_set? written⟩

end MsgPack.Grid
