import MsgPack.Schema.Basic

/-!
# Sets and maps

Sets and maps as lists, by the order in which they give their items.  A set keeps the item
it has when an equal one is inserted; a map keeps the key it has and takes the new value.
Items are equal when their sort keys are.
-/

namespace MsgPack.Keyed

variable {α β : Type}

/-! ## In the order of keys -/

/-- Inserts an entry into a map in the order of its keys. -/
def insertSorted (sortKey : α → List Int) (key : α) (value : β) :
    List (α × β) → List (α × β)
  | [] => [(key, value)]
  | entry :: entries =>
      if sortKey key < sortKey entry.1 then (key, value) :: entry :: entries
      else if sortKey key = sortKey entry.1 then (entry.1, value) :: entries
      else entry :: insertSorted sortKey key value entries

/-- Inserts an item into a set in the order of its items. -/
def addSorted (sortKey : α → List Int) (item : α) : List α → List α
  | [] => [item]
  | first :: items =>
      if sortKey item < sortKey first then item :: first :: items
      else if sortKey item = sortKey first then first :: items
      else first :: addSorted sortKey item items

/-! ## In the order of insertion -/

/-- Inserts an entry into a map in the order of insertion. -/
def insertLast (sortKey : α → List Int) (key : α) (value : β) :
    List (α × β) → List (α × β)
  | [] => [(key, value)]
  | entry :: entries =>
      if sortKey key = sortKey entry.1 then (entry.1, value) :: entries
      else entry :: insertLast sortKey key value entries

/-- Inserts an item into a set in the order of insertion. -/
def addLast (sortKey : α → List Int) (item : α) : List α → List α
  | [] => [item]
  | first :: items =>
      if sortKey item = sortKey first then first :: items
      else first :: addLast sortKey item items

/-! ## By the kind of collection

A collection without order is kept in the order of insertion; nothing that is promised of it
depends on that. -/

/-- Inserts an entry into a map. -/
def insert (sortKey : α → List Int) : MapKind → List (α × β) → α × β → List (α × β)
  | .tree, entries, entry => insertSorted sortKey entry.1 entry.2 entries
  | .hash, entries, entry | .index, entries, entry =>
      insertLast sortKey entry.1 entry.2 entries

/-- The map that arises when entries are inserted one after the other. -/
def ofEntries (sortKey : α → List Int) (kind : MapKind) (entries : List (α × β)) :
    List (α × β) :=
  entries.foldl (insert sortKey kind) []

end MsgPack.Keyed
