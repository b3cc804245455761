import MsgPack.Collection.Sequence
import MsgPack.Formatter.Typing

/-!
# Sets and maps from their own items

A set or a map that is made anew from its items, in the order in which it gives them, is the
same again: every item comes after those that are already there.
-/

namespace MsgPack.Keyed

variable {α β : Type} {sortKey : α → List Int}

/-! ## Insertion at the end -/

/-- An item after all others in the order of keys goes to the end. -/
theorem addSorted_eq_append {item : α} {items : List α}
    (above : ∀ other ∈ items, sortKey other < sortKey item) :
    addSorted sortKey item items = items ++ [item] := by
  induction items with
  | nil => rfl
  | cons first items ih =>
      have low := above first List.mem_cons_self
      have different : sortKey item ≠ sortKey first := fun same =>
        List.lt_irrefl _ (same ▸ low)
      rw [addSorted, if_neg (List.lt_asymm low), if_neg different,
        ih fun other member => above other (List.mem_cons_of_mem first member), List.cons_append]

/-- An item that is not there yet goes to the end. -/
theorem addLast_eq_append {item : α} {items : List α}
    (apart : ∀ other ∈ items, sortKey other ≠ sortKey item) :
    addLast sortKey item items = items ++ [item] := by
  induction items with
  | nil => rfl
  | cons first items ih =>
      have different := apart first List.mem_cons_self
      rw [addLast, if_neg different.symm,
        ih fun other member => apart other (List.mem_cons_of_mem first member), List.cons_append]

theorem insertSorted_eq_append {key : α} {value : β} {entries : List (α × β)}
    (above : ∀ other ∈ entries, sortKey other.1 < sortKey key) :
    insertSorted sortKey key value entries = entries ++ [(key, value)] := by
  induction entries with
  | nil => rfl
  | cons first entries ih =>
      have low := above first List.mem_cons_self
      have different : sortKey key ≠ sortKey first.1 := fun same =>
        List.lt_irrefl _ (same ▸ low)
      rw [insertSorted, if_neg (List.lt_asymm low), if_neg different,
        ih fun other member => above other (List.mem_cons_of_mem first member), List.cons_append]

theorem insertLast_eq_append {key : α} {value : β} {entries : List (α × β)}
    (apart : ∀ other ∈ entries, sortKey other.1 ≠ sortKey key) :
    insertLast sortKey key value entries = entries ++ [(key, value)] := by
  induction entries with
  | nil => rfl
  | cons first entries ih =>
      have different := apart first List.mem_cons_self
      rw [insertLast, if_neg different.symm,
        ih fun other member => apart other (List.mem_cons_of_mem first member), List.cons_append]

/-! ## Repeated insertion -/

/-- Where every item goes to the end, the items are collected in order. -/
theorem foldl_eq_append {relation : α → α → Prop} {step : List α → α → List α} {items : List α}
    (placed : items.Pairwise relation)
    (append : ∀ items item, (∀ other ∈ items, relation other item) →
      step items item = items ++ [item]) : items.foldl step [] = items := by
  have collected : ∀ (items done : List α), (done ++ items).Pairwise relation →
      items.foldl step done = done ++ items := by
    intro items
    induction items with
    | nil =>
        intro done _
        exact (List.append_nil done).symm
    | cons item items ih =>
        intro done placed
        have before : ∀ other ∈ done, relation other item := fun other member =>
          (List.pairwise_append.1 placed).2.2 other member item List.mem_cons_self
        rw [List.append_cons] at placed
        rw [List.foldl_cons, append done item before, ih _ placed, ← List.append_cons]
  exact collected items [] placed

end MsgPack.Keyed

namespace MsgPack

variable {sortKey : Datum → List Int}

/-- A collection is made from its items in the order in which they are written. -/
theorem SequenceKind.Admits.build_elements {kind : SequenceKind} {items : List Datum}
    (admitted : kind.Admits sortKey items) : kind.build sortKey (kind.elements items) = items := by
  cases kind with
  | treeSet =>
      have sorted : items.Pairwise fun left right => sortKey left < sortKey right := admitted
      rw [SequenceKind.build_treeSet]
      exact Keyed.foldl_eq_append sorted fun _ _ above => Keyed.addSorted_eq_append above
  | hashSet =>
      have apart : items.Pairwise fun left right => sortKey left ≠ sortKey right := admitted
      rw [SequenceKind.build_hashSet]
      exact Keyed.foldl_eq_append apart fun _ _ apart => Keyed.addLast_eq_append apart
  | indexSet =>
      have apart : items.Pairwise fun left right => sortKey left ≠ sortKey right := admitted
      rw [SequenceKind.build_indexSet]
      exact Keyed.foldl_eq_append apart fun _ _ apart => Keyed.addLast_eq_append apart
  | list => exact SequenceKind.build_list items
  | deque => exact SequenceKind.build_deque items
  | linkedList => exact SequenceKind.build_linkedList items
  | slice => exact SequenceKind.build_slice items
  | stack =>
      rw [SequenceKind.build_stack]
      exact List.reverse_reverse items

/-- A map is made from its entries. -/
theorem MapKind.Admits.ofEntries_eq {kind : MapKind} {entries : List (Datum × Datum)}
    (admitted : kind.Admits sortKey (entries.map Prod.fst)) :
    Keyed.ofEntries sortKey kind entries = entries := by
  cases kind with
  | tree =>
      exact Keyed.foldl_eq_append (List.pairwise_map.1 admitted)
        fun _ _ above => Keyed.insertSorted_eq_append above
  | hash =>
      exact Keyed.foldl_eq_append (List.pairwise_map.1 admitted)
        fun _ _ apart => Keyed.insertLast_eq_append apart
  | index =>
      exact Keyed.foldl_eq_append (List.pairwise_map.1 admitted)
        fun _ _ apart => Keyed.insertLast_eq_append apart

end MsgPack
