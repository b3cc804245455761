import MsgPack.Error

/-!
# Two-dimensional arrays

Items in rows and columns, kept row by row.  The dimensions are given, also where one of
them is zero, and the number of items is always their product.  A cell is found at its row
times the number of columns plus its column; inside the dimensions that is a place of the
list, and different cells have different places.
-/

namespace MsgPack

/-- A two-dimensional array. -/
structure Grid (α : Type) where
  rows : Nat
  columns : Nat
  /-- The items, row by row. -/
  items : List α
  length_items : items.length = rows * columns

namespace Grid

variable {α : Type}

/-! ## Construction -/

/-- The array with these dimensions and items, if there are as many items as cells and
their number has at most 64 bits. -/
def ofItems (typeName : String) (rows columns : Nat) (items : List α) :
    Except Error (Grid α) :=
  if 0x10000000000000000 ≤ rows * columns then .error (.invalidValue (.dimensions rows columns))
  else if complete : items.length = rows * columns then .ok ⟨rows, columns, items, complete⟩
  else .error (.countMismatch typeName (rows * columns) items.length)

/-- The array whose cells hold what a function gives for them. -/
def ofFn (rows columns : Nat) (cell : Nat → Nat → α) : Grid α where
  rows := rows
  columns := columns
  items := (List.range rows).flatMap fun row => (List.range columns).map (cell row)
  length_items := by simp [List.length_flatMap, List.map_const']

/-! ## Cells -/

/-- Whether a cell lies inside the dimensions. -/
def Inside (grid : Grid α) (row column : Nat) : Prop :=
  row < grid.rows ∧ column < grid.columns

instance (grid : Grid α) (row column : Nat) : Decidable (grid.Inside row column) :=
  inferInstanceAs (Decidable (_ ∧ _))

/-- The place of a cell in the list of items. -/
def place (grid : Grid α) (row column : Nat) : Nat :=
  row * grid.columns + column

/-- A cell inside the dimensions has an item. -/
theorem place_lt_length {grid : Grid α} {row column : Nat} (inside : grid.Inside row column) :
    grid.place row column < grid.items.length := by
  rw [grid.length_items]
  calc
    grid.place row column < row * grid.columns + grid.columns :=
      Nat.add_lt_add_left inside.2 _
    _ = (row + 1) * grid.columns := (Nat.succ_mul _ _).symm
    _ ≤ grid.rows * grid.columns := Nat.mul_le_mul_right _ inside.1

/-- The item of a cell. -/
def get? (grid : Grid α) (row column : Nat) : Option α :=
  if inside : grid.Inside row column then
    some (grid.items.get ⟨grid.place row column, place_lt_length inside⟩)
  else none

/-- The array with another item in one cell. -/
def set? (grid : Grid α) (row column : Nat) (item : α) : Option (Grid α) :=
  if grid.Inside row column then
    some
      { grid with
        items := grid.items.set (grid.place row column) item
        length_items := by rw [List.length_set, grid.length_items] }
  else none

/-- The report of a cell outside the dimensions. -/
def outOfBounds (row column : Nat) : String :=
  "index (" ++ toString row ++ ", " ++ toString column ++ ") out of bounds"

end Grid

end MsgPack
