import MsgPack.Collection.Keyed
import MsgPack.Collection.Stack

/-!
# Sequences

What tells the collections apart that are written as arrays: the order in which they give their
items, and how they are made from items that come one after the other.  Items are gathered in a
row that grows at its end or are put into a set, and a stack is turned over when all of them are
there.
-/

namespace MsgPack.SequenceKind

variable {α β : Type} {sortKey : α → List Int}

/-- The items of a collection in the order in which they are written. -/
def elements : SequenceKind → List α → List α
  | .stack, items => (Stack.mk items).fromTop
  | .list, items | .deque, items | .linkedList, items | .slice, items
  | .treeSet, items | .hashSet, items | .indexSet, items => items

/-- Takes one more item. -/
def add (sortKey : α → List Int) : SequenceKind → Array α → α → Array α
  | .list, gathered, item | .deque, gathered, item | .linkedList, gathered, item
  | .slice, gathered, item | .stack, gathered, item => gathered.push item
  | .treeSet, set, item => (Keyed.addSorted sortKey item set.toList).toArray
  | .hashSet, set, item | .indexSet, set, item => (Keyed.addLast sortKey item set.toList).toArray

/-- The collection when all items have been taken. -/
def complete : SequenceKind → Array α → List α
  | .stack, gathered => (Stack.ofTop gathered).items
  | .list, gathered | .deque, gathered | .linkedList, gathered | .slice, gathered
  | .treeSet, gathered | .hashSet, gathered | .indexSet, gathered => gathered.toList

/-- The collection that is made from items that come one after the other. -/
def build (sortKey : α → List Int) (kind : SequenceKind) (items : List α) : List α :=
  kind.complete (items.foldl (kind.add sortKey) #[])

/-! ## The order of writing -/

theorem elements_perm (kind : SequenceKind) (items : List α) :
    (kind.elements items).Perm items := by
  cases kind with
  | stack => exact List.reverse_perm items
  | _ => exact .refl items

@[simp]
theorem length_elements (kind : SequenceKind) (items : List α) :
    (kind.elements items).length = items.length :=
  (kind.elements_perm items).length_eq

@[simp]
theorem mem_elements {kind : SequenceKind} {items : List α} {item : α} :
    item ∈ kind.elements items ↔ item ∈ items :=
  (kind.elements_perm items).mem_iff

theorem elements_map (kind : SequenceKind) (convert : α → β) (items : List α) :
    kind.elements (items.map convert) = (kind.elements items).map convert := by
  cases kind with
  | stack => exact List.map_reverse.symm
  | _ => rfl

/-! ## Collections from items -/

theorem toList_gathered (items : List α) : (items.foldl Array.push #[]).toList = items := by
  simp

theorem build_list (items : List α) : build sortKey .list items = items :=
  toList_gathered items

theorem build_deque (items : List α) : build sortKey .deque items = items :=
  toList_gathered items

theorem build_linkedList (items : List α) : build sortKey .linkedList items = items :=
  toList_gathered items

theorem build_slice (items : List α) : build sortKey .slice items = items :=
  toList_gathered items

/-- What is taken first ends up on top of a stack. -/
theorem build_stack (items : List α) : build sortKey .stack items = items.reverse :=
  congrArg List.reverse (toList_gathered items)

/-- What is kept in an array while it is made may be kept in a list. -/
theorem toList_inserted (insert : List α → α → List α) (items : List α) :
    (items.foldl (fun set item => (insert set.toList item).toArray) #[]).toList =
      items.foldl insert [] :=
  (List.foldl_hom Array.toList fun _ _ => rfl).symm

theorem build_treeSet (items : List α) : build sortKey .treeSet items =
    items.foldl (fun set item => Keyed.addSorted sortKey item set) [] :=
  toList_inserted (fun set item => Keyed.addSorted sortKey item set) items

theorem build_hashSet (items : List α) : build sortKey .hashSet items =
    items.foldl (fun set item => Keyed.addLast sortKey item set) [] :=
  toList_inserted (fun set item => Keyed.addLast sortKey item set) items

theorem build_indexSet (items : List α) : build sortKey .indexSet items =
    items.foldl (fun set item => Keyed.addLast sortKey item set) [] :=
  toList_inserted (fun set item => Keyed.addLast sortKey item set) items

end MsgPack.SequenceKind
