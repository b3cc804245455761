import Mathlib.Data.List.Dedup
import MsgPack.Proofs.Collection.Keyed

/-!
# Repeated items and keys

What sets and maps keep of items that are equal to others before them.  A set keeps the first
item for each sort key; a map keeps the first key for each sort key and the last value.  What
depends on the kind of a set or a map is only the order: that of the first occurrences, or that
of the sort keys.  So a collection in the order of its sort keys depends on nothing but these
items, keys and values, and any collection has as many items as there are sort keys.
-/

namespace MsgPack

/-- The kinds of collections that are sets. -/
inductive SequenceKind.IsSet : SequenceKind → Prop where
  | hash : IsSet .hashSet
  | tree : IsSet .treeSet
  | index : IsSet .indexSet

/-- The set that keeps the keys of a map. -/
def MapKind.keySet : MapKind → SequenceKind
  | .hash => .hashSet
  | .tree => .treeSet
  | .index => .indexSet

/-- A set is written as it gives its items. -/
theorem SequenceKind.IsSet.elements_eq {α : Type} {kind : SequenceKind} (isSet : kind.IsSet)
    (items : List α) : kind.elements items = items := by
  cases isSet <;> rfl

theorem MapKind.isSet_keySet (kind : MapKind) : kind.keySet.IsSet := by
  cases kind with
  | hash => exact .hash
  | tree => exact .tree
  | index => exact .index

namespace Keyed

variable {α β : Type} {sortKey : α → List Int} {item : α} {items others set set' : List α}
variable {key : List Int} {kind : SequenceKind}

/-! ## Occurrences -/

/-- The items that come before all others with their sort key, in order. -/
def firsts (sortKey : α → List Int) (items : List α) : List α :=
  items.eraseDupsBy fun left right => sortKey left = sortKey right

/-- The first item with a sort key. -/
def first? (sortKey : α → List Int) (items : List α) (key : List Int) : Option α :=
  items.find? fun item => sortKey item = key

/-- The value of the first entry with a sort key. -/
def valueAt? (sortKey : α → List Int) (entries : List (α × β)) (key : List Int) : Option β :=
  (first? (fun entry => sortKey entry.1) entries key).map Prod.snd

/-- The value of the last entry with a sort key. -/
def lastValue? (sortKey : α → List Int) (entries : List (α × β)) (key : List Int) : Option β :=
  valueAt? sortKey entries.reverse key

theorem first?_append (items others : List α) (key : List Int) :
    first? sortKey (items ++ others) key =
      (first? sortKey items key).or (first? sortKey others key) :=
  List.find?_append

theorem first?_cons_of_eq (same : sortKey item = key) :
    first? sortKey (item :: items) key = some item :=
  List.find?_cons_of_pos (decide_eq_true same)

theorem first?_cons_of_ne (other : sortKey item ≠ key) :
    first? sortKey (item :: items) key = first? sortKey items key :=
  List.find?_cons_of_neg (mt of_decide_eq_true other)

theorem first?_eq_none (apart : ∀ other ∈ items, sortKey other ≠ key) :
    first? sortKey items key = none :=
  List.find?_eq_none.2 fun other member => mt of_decide_eq_true (apart other member)

/-- Where sort keys differ, each item is the first with its own. -/
theorem first?_eq_some_iff (apart : set.Pairwise fun left right => sortKey left ≠ sortKey right) :
    first? sortKey set key = some item ↔ item ∈ set ∧ sortKey item = key := by
  constructor
  · intro found
    rw [first?] at found
    exact ⟨List.mem_of_find?_eq_some found, by simpa using List.find?_some found⟩
  · rintro ⟨member, rfl⟩
    induction set with
    | nil => cases member
    | cons first set ih =>
        rw [List.pairwise_cons] at apart
        rcases List.mem_cons.1 member with rfl | later
        · exact first?_cons_of_eq rfl
        · rw [first?_cons_of_ne (apart.1 item later)]
          exact ih apart.2 later

theorem mem_iff_first? (apart : set.Pairwise fun left right => sortKey left ≠ sortKey right) :
    item ∈ set ↔ first? sortKey set (sortKey item) = some item := by
  rw [first?_eq_some_iff apart, and_iff_left rfl]

theorem isSome_first? : (first? sortKey items key).isSome ↔ key ∈ items.map sortKey := by
  simp only [first?, List.find?_isSome, decide_eq_true_eq, List.mem_map]

/-- The first item with a sort key is that of the items that have it. -/
theorem first?_of_filter_eq
    (same : ∀ key, items.filter (fun item => sortKey item = key) =
      others.filter fun item => sortKey item = key) (key : List Int) :
    first? sortKey items key = first? sortKey others key := by
  rw [first?, first?, ← List.head?_filter, ← List.head?_filter, same]

/-! ## One item more -/

/-- Sort keys in order differ. -/
theorem apart_of_sorted (sorted : set.Pairwise fun left right => sortKey left < sortKey right) :
    set.Pairwise fun left right => sortKey left ≠ sortKey right := by
  apply sorted.imp
  intro left right less same
  exact List.lt_irrefl _ (same ▸ less)

theorem mem_addLast {other : α} (member : other ∈ addLast sortKey item items) :
    other = item ∨ other ∈ items := by
  induction items with
  | nil => exact .inl (List.mem_singleton.1 member)
  | cons first items ih =>
      rw [addLast] at member
      split at member
      · exact .inr member
      · rcases List.mem_cons.1 member with rfl | member
        · exact .inr List.mem_cons_self
        · exact (ih member).imp_right (List.mem_cons_of_mem first)

theorem mem_addSorted {other : α} (member : other ∈ addSorted sortKey item items) :
    other = item ∨ other ∈ items := by
  induction items with
  | nil => exact .inl (List.mem_singleton.1 member)
  | cons first items ih =>
      rw [addSorted] at member
      split at member
      · exact List.mem_cons.1 member
      · split at member
        · exact .inr member
        · rcases List.mem_cons.1 member with rfl | member
          · exact .inr List.mem_cons_self
          · exact (ih member).imp_right (List.mem_cons_of_mem first)

theorem apart_addLast (apart : set.Pairwise fun left right => sortKey left ≠ sortKey right) :
    (addLast sortKey item set).Pairwise fun left right => sortKey left ≠ sortKey right := by
  induction set with
  | nil => exact List.pairwise_singleton _ item
  | cons first set ih =>
      rw [addLast]
      split
      · exact apart
      · rename_i different
        rw [List.pairwise_cons] at apart ⊢
        refine ⟨fun other member => ?_, ih apart.2⟩
        rcases mem_addLast member with rfl | member
        · exact Ne.symm different
        · exact apart.1 other member

theorem sorted_addSorted (sorted : set.Pairwise fun left right => sortKey left < sortKey right) :
    (addSorted sortKey item set).Pairwise fun left right => sortKey left < sortKey right := by
  induction set with
  | nil => exact List.pairwise_singleton _ item
  | cons first set ih =>
      rw [addSorted]
      split
      · rename_i less
        refine List.pairwise_cons.2 ⟨fun other member => ?_, sorted⟩
        rcases List.mem_cons.1 member with rfl | member
        · exact less
        · exact List.lt_trans less ((List.pairwise_cons.1 sorted).1 other member)
      · rename_i notLess
        split
        · exact sorted
        · rename_i different
          rw [List.pairwise_cons] at sorted ⊢
          refine ⟨fun other member => ?_, ih sorted.2⟩
          rcases mem_addSorted member with rfl | member
          · rcases List.le_iff_lt_or_eq.1 (List.not_lt.1 notLess) with greater | same
            · exact greater
            · exact absurd same.symm different
          · exact sorted.1 other member

/-- A set keeps the item that it has. -/
theorem first?_addLast (key : List Int) :
    first? sortKey (addLast sortKey item set) key =
      (first? sortKey set key).or (first? sortKey [item] key) := by
  induction set with
  | nil => rfl
  | cons first set ih =>
      rw [addLast]
      by_cases here : sortKey first = key
      · rw [first?_cons_of_eq here, Option.some_or]
        split <;> exact first?_cons_of_eq here
      · rw [first?_cons_of_ne here]
        split
        · rename_i same
          rw [first?_cons_of_ne here, first?_cons_of_ne (same ▸ here)]
          exact Option.or_none.symm
        · rw [first?_cons_of_ne here, ih]

theorem first?_addSorted
    (sorted : set.Pairwise fun left right => sortKey left < sortKey right) (key : List Int) :
    first? sortKey (addSorted sortKey item set) key =
      (first? sortKey set key).or (first? sortKey [item] key) := by
  induction set with
  | nil => rfl
  | cons first set ih =>
      rw [addSorted]
      split
      · rename_i less
        by_cases here : sortKey item = key
        · -- All items of the set are greater than the new one.
          have missing : first? sortKey (first :: set) key = none := by
            apply first?_eq_none
            intro other member same
            rw [← here] at same
            rcases List.mem_cons.1 member with rfl | member
            · exact List.lt_irrefl _ (same ▸ less)
            · have greater := (List.pairwise_cons.1 sorted).1 other member
              exact List.lt_irrefl _ (same ▸ List.lt_trans less greater)
          rw [missing, first?_cons_of_eq here, first?_cons_of_eq here, Option.none_or]
        · rw [first?_cons_of_ne here, first?_cons_of_ne here]
          exact Option.or_none.symm
      · by_cases here : sortKey first = key
        · rw [first?_cons_of_eq here, Option.some_or]
          split <;> exact first?_cons_of_eq here
        · rw [first?_cons_of_ne here]
          split
          · rename_i same
            rw [first?_cons_of_ne here, first?_cons_of_ne (same ▸ here)]
            exact Option.or_none.symm
          · rw [first?_cons_of_ne here, ih (List.pairwise_cons.1 sorted).2]

/-! ## Sets -/

/-- What is kept by every step is kept when items are added one after the other, and so is, for
each sort key, the first item that has it. -/
theorem foldl_keeps {step : List α → α → List α} {good : List α → Prop}
    (keeps : ∀ set item, good set → good (step set item))
    (adds : ∀ set item, good set → ∀ key, first? sortKey (step set item) key =
      (first? sortKey set key).or (first? sortKey [item] key)) (items : List α) (start : good set) :
    good (items.foldl step set) ∧ ∀ key, first? sortKey (items.foldl step set) key =
      (first? sortKey set key).or (first? sortKey items key) := by
  induction items generalizing set with
  | nil => exact ⟨start, fun key => Option.or_none.symm⟩
  | cons item items ih =>
      obtain ⟨isGood, found⟩ := ih (keeps set item start)
      refine ⟨isGood, fun key => ?_⟩
      rw [List.foldl_cons, found, adds set item start, Option.or_assoc, ← first?_append]
      rfl

/-- An item with a known sort key changes nothing. -/
theorem addLast_of_known (known : ∃ other ∈ set, sortKey item = sortKey other) :
    addLast sortKey item set = set := by
  induction set with
  | nil => simp only [List.not_mem_nil, false_and, exists_false] at known
  | cons first set ih =>
      rw [addLast]
      split
      · rfl
      · rename_i different
        obtain ⟨other, member, same⟩ := known
        rcases List.mem_cons.1 member with rfl | later
        · exact absurd same different
        · rw [ih ⟨other, later, same⟩]

/-- What is collected in the order of insertion are the first occurrences. -/
theorem foldl_addLast (items : List α) :
    items.foldl (fun set item => addLast sortKey item set) [] = firsts sortKey items := by
  have collected : ∀ (items done : List α),
      items.foldl (fun set item => addLast sortKey item set) done.reverse =
        List.eraseDupsBy.loop (fun left right => sortKey left = sortKey right) items done := by
    intro items
    induction items with
    | nil =>
        intro done
        rfl
    | cons item items ih =>
        intro done
        rw [List.foldl_cons, List.eraseDupsBy.loop]
        cases known : done.any fun other => sortKey item = sortKey other with
        | true =>
            simp only [List.any_eq_true, decide_eq_true_eq] at known
            obtain ⟨other, member, same⟩ := known
            rw [addLast_of_known ⟨other, List.mem_reverse.2 member, same⟩, ih]
        | false =>
            simp only [List.any_eq_false, decide_eq_true_eq] at known
            rw [addLast_eq_append fun other member =>
              Ne.symm (known other (List.mem_reverse.1 member)), ← List.reverse_cons, ih]
  exact collected items []

/-- What a set of a kind is, made of items: it keeps the first of each sort key and no others, in
the order of the sort keys or of their first occurrences. -/
structure SetOf (sortKey : α → List Int) (kind : SequenceKind) (items set : List α) : Prop where
  members : set.Perm (firsts sortKey items)
  sorted : kind = .treeSet → set.Pairwise fun left right => sortKey left < sortKey right
  inOrder : kind = .indexSet → set = firsts sortKey items

/-- The sort keys in a set differ, and each belongs to the first item that has it. -/
theorem build_found (sortKey : α → List Int) (isSet : kind.IsSet) (items : List α) :
    ((kind.build sortKey items).Pairwise fun left right => sortKey left ≠ sortKey right) ∧
      ∀ key, first? sortKey (kind.build sortKey items) key = first? sortKey items key := by
  cases isSet with
  | tree =>
      obtain ⟨sorted, found⟩ := foldl_keeps (fun _ _ => sorted_addSorted)
        (fun _ _ sorted => first?_addSorted sorted) items List.Pairwise.nil
      rw [SequenceKind.build_treeSet]
      exact ⟨apart_of_sorted sorted, found⟩
  | hash =>
      rw [SequenceKind.build_hashSet]
      exact foldl_keeps (fun _ _ => apart_addLast) (fun _ _ _ => first?_addLast) items
        List.Pairwise.nil
  | index =>
      rw [SequenceKind.build_indexSet]
      exact foldl_keeps (fun _ _ => apart_addLast) (fun _ _ _ => first?_addLast) items
        List.Pairwise.nil

/-- Two sets with the same first items have the same items. -/
theorem perm_of_first?_eq (apart : set.Pairwise fun left right => sortKey left ≠ sortKey right)
    (apart' : set'.Pairwise fun left right => sortKey left ≠ sortKey right)
    (same : ∀ key, first? sortKey set key = first? sortKey set' key) : set.Perm set' := by
  have nodup {set : List α} (apart : set.Pairwise fun left right => sortKey left ≠ sortKey right) :
      set.Nodup := apart.imp fun different same => different (congrArg sortKey same)
  rw [List.perm_ext_iff_of_nodup (nodup apart) (nodup apart')]
  intro item
  rw [mem_iff_first? apart, mem_iff_first? apart', same]

theorem firsts_found (sortKey : α → List Int) (items : List α) :
    ((firsts sortKey items).Pairwise fun left right => sortKey left ≠ sortKey right) ∧
      ∀ key, first? sortKey (firsts sortKey items) key = first? sortKey items key := by
  rw [← foldl_addLast, ← SequenceKind.build_indexSet]
  exact build_found sortKey .index items

/-- A set is made of the items that are added to it. -/
theorem setOf_build (isSet : kind.IsSet) (items : List α) :
    SetOf sortKey kind items (kind.build sortKey items) := by
  obtain ⟨apart, found⟩ := build_found sortKey isSet items
  obtain ⟨apart', found'⟩ := firsts_found sortKey items
  refine ⟨perm_of_first?_eq apart apart' fun key => (found key).trans (found' key).symm, ?_, ?_⟩
  · rintro rfl
    rw [SequenceKind.build_treeSet]
    exact (foldl_keeps (fun _ _ => sorted_addSorted)
      (fun _ _ sorted => first?_addSorted sorted) items List.Pairwise.nil).1
  · rintro rfl
    rw [SequenceKind.build_indexSet]
    exact foldl_addLast items

/-- A set has as many items as there are sort keys. -/
theorem SetOf.length_eq (made : SetOf sortKey kind items set) :
    set.length = (items.map sortKey).dedup.length := by
  obtain ⟨apart, found⟩ := firsts_found sortKey items
  have perm : ((firsts sortKey items).map sortKey).Perm (items.map sortKey).dedup := by
    rw [List.perm_ext_iff_of_nodup (List.pairwise_map.2 apart) (List.nodup_dedup _)]
    intro key
    rw [List.mem_dedup, ← isSome_first?, found, isSome_first?]
  rw [made.members.length_eq, ← perm.length_eq, List.length_map]

/-- The sort keys in a set differ, and each belongs to the first item that has it. -/
theorem SetOf.found (made : SetOf sortKey kind items set) :
    (set.Pairwise fun left right => sortKey left ≠ sortKey right) ∧
      ∀ key, first? sortKey set key = first? sortKey items key := by
  obtain ⟨apart, found⟩ := firsts_found sortKey items
  have apart' := apart.perm made.members.symm Ne.symm
  refine ⟨apart', fun key => ?_⟩
  rw [← found]
  apply Option.ext
  intro item
  rw [first?_eq_some_iff apart', first?_eq_some_iff apart, made.members.mem_iff]

/-- A set in the order of its sort keys depends only on the first item for each of them. -/
theorem SetOf.eq_iff (made : SetOf sortKey .treeSet items set)
    (made' : SetOf sortKey .treeSet others set') :
    set = set' ↔ ∀ key, first? sortKey items key = first? sortKey others key := by
  obtain ⟨apart, found⟩ := made.found
  obtain ⟨apart', found'⟩ := made'.found
  constructor
  · rintro rfl key
    rw [← found, found']
  · intro same
    have perm := perm_of_first?_eq apart apart' fun key => by rw [found, found', same]
    exact perm.eq_of_pairwise (fun _ _ _ _ less greater => absurd greater (List.lt_asymm less))
      (made.sorted rfl) (made'.sorted rfl)

/-! ## Maps -/

variable {entries map : List (α × β)} {kind : MapKind}

theorem map_insertLast (key : α) (value : β) (entries : List (α × β)) :
    (insertLast sortKey key value entries).map Prod.fst =
      addLast sortKey key (entries.map Prod.fst) := by
  induction entries with
  | nil => rfl
  | cons entry entries ih =>
      rw [insertLast, List.map_cons, addLast]
      split
      · rfl
      · rw [List.map_cons, ih]

theorem map_insertSorted (key : α) (value : β) (entries : List (α × β)) :
    (insertSorted sortKey key value entries).map Prod.fst =
      addSorted sortKey key (entries.map Prod.fst) := by
  induction entries with
  | nil => rfl
  | cons entry entries ih =>
      rw [insertSorted, List.map_cons, addSorted]
      split
      · rfl
      · split
        · rfl
        · rw [List.map_cons, ih]

/-- The keys of a map are a set of the keys of its entries. -/
theorem map_ofEntries (kind : MapKind) (entries : List (α × β)) :
    (ofEntries sortKey kind entries).map Prod.fst =
      kind.keySet.build sortKey (entries.map Prod.fst) := by
  cases kind with
  | tree =>
      rw [MapKind.keySet, SequenceKind.build_treeSet, List.foldl_map]
      exact (List.foldl_hom (List.map Prod.fst) fun map entry =>
        (map_insertSorted entry.1 entry.2 map).symm).symm
  | hash =>
      rw [MapKind.keySet, SequenceKind.build_hashSet, List.foldl_map]
      exact (List.foldl_hom (List.map Prod.fst) fun map entry =>
        (map_insertLast entry.1 entry.2 map).symm).symm
  | index =>
      rw [MapKind.keySet, SequenceKind.build_indexSet, List.foldl_map]
      exact (List.foldl_hom (List.map Prod.fst) fun map entry =>
        (map_insertLast entry.1 entry.2 map).symm).symm

theorem valueAt?_cons (entry : α × β) (entries : List (α × β)) (key : List Int) :
    valueAt? sortKey (entry :: entries) key =
      if sortKey entry.1 = key then some entry.2 else valueAt? sortKey entries key := by
  by_cases here : sortKey entry.1 = key
  · rw [if_pos here]
    exact congrArg (Option.map Prod.snd) (first?_cons_of_eq here)
  · rw [if_neg here]
    exact congrArg (Option.map Prod.snd) (first?_cons_of_ne here)

theorem valueAt?_insertLast (key : α) (value : β) (map : List (α × β)) (sought : List Int) :
    valueAt? sortKey (insertLast sortKey key value map) sought =
      if sortKey key = sought then some value else valueAt? sortKey map sought := by
  induction map with
  | nil => exact valueAt?_cons (key, value) [] sought
  | cons entry map ih =>
      rw [insertLast]
      split
      · rename_i same
        rw [valueAt?_cons, valueAt?_cons, same]
        split <;> rfl
      · rename_i different
        rw [valueAt?_cons, valueAt?_cons, ih]
        by_cases here : sortKey entry.1 = sought
        · rw [if_pos here, if_pos here, if_neg (here ▸ different)]
        · rw [if_neg here, if_neg here]

theorem valueAt?_insertSorted (key : α) (value : β) (map : List (α × β)) (sought : List Int) :
    valueAt? sortKey (insertSorted sortKey key value map) sought =
      if sortKey key = sought then some value else valueAt? sortKey map sought := by
  induction map with
  | nil => exact valueAt?_cons (key, value) [] sought
  | cons entry map ih =>
      rw [insertSorted]
      split
      · exact valueAt?_cons (key, value) (entry :: map) sought
      · split
        · rename_i same
          rw [valueAt?_cons, valueAt?_cons, same]
          split <;> rfl
        · rename_i different
          rw [valueAt?_cons, valueAt?_cons, ih]
          by_cases here : sortKey entry.1 = sought
          · rw [if_pos here, if_pos here, if_neg (here ▸ different)]
          · rw [if_neg here, if_neg here]

/-- An inserted value comes in place of the one before. -/
theorem valueAt?_insert (entry : α × β) (map : List (α × β)) (key : List Int) :
    valueAt? sortKey (insert sortKey kind map entry) key =
      valueAt? sortKey (entry :: map) key := by
  rw [valueAt?_cons]
  cases kind with
  | tree => exact valueAt?_insertSorted entry.1 entry.2 map key
  | hash | index => exact valueAt?_insertLast entry.1 entry.2 map key

/-- A map has the last values. -/
theorem valueAt?_ofEntries (kind : MapKind) (entries : List (α × β)) (key : List Int) :
    valueAt? sortKey (ofEntries sortKey kind entries) key = lastValue? sortKey entries key := by
  rw [ofEntries, List.foldl_eq_foldr_reverse, lastValue?]
  induction entries.reverse with
  | nil => rfl
  | cons entry entries ih =>
      rw [List.foldr_cons, valueAt?_insert, valueAt?_cons, valueAt?_cons, ih]

/-- What a map of a kind is, made of entries: its keys are a set of theirs, and each has the last
value. -/
structure MapOf (sortKey : α → List Int) (kind : MapKind) (entries map : List (α × β)) :
    Prop where
  keys : SetOf sortKey kind.keySet (entries.map Prod.fst) (map.map Prod.fst)
  values : ∀ entry ∈ map, lastValue? sortKey entries (sortKey entry.1) = some entry.2

/-- A map is made of the entries that are inserted into it. -/
theorem mapOf_ofEntries (kind : MapKind) (entries : List (α × β)) :
    MapOf sortKey kind entries (ofEntries sortKey kind entries) where
  keys := by
    rw [map_ofEntries]
    exact setOf_build kind.isSet_keySet _
  values := by
    intro entry member
    have apart := (build_found sortKey kind.isSet_keySet (entries.map Prod.fst)).1
    rw [← map_ofEntries, List.pairwise_map] at apart
    rw [← valueAt?_ofEntries kind]
    exact congrArg (Option.map Prod.snd) ((mem_iff_first? apart).1 member)

/-- Whether entries have the same first keys and the same last values. -/
structure Agree (sortKey : α → List Int) (entries others : List (α × β)) : Prop where
  keys : ∀ key, first? sortKey (entries.map Prod.fst) key = first? sortKey (others.map Prod.fst) key
  values : ∀ key, lastValue? sortKey entries key = lastValue? sortKey others key

/-- The entries of a map are its keys with the last values. -/
theorem MapOf.paired (made : MapOf sortKey kind entries map) :
    map.map (Prod.map id some) =
      (map.map Prod.fst).map fun key => (key, lastValue? sortKey entries (sortKey key)) := by
  rw [List.map_map]
  apply List.map_congr_left
  intro entry member
  exact Prod.ext rfl (made.values entry member).symm

/-- A map in the order of its sort keys depends on nothing but the first key and the last value for
each of them. -/
theorem MapOf.eq_of_agree {others map' : List (α × β)} (made : MapOf sortKey .tree entries map)
    (made' : MapOf sortKey .tree others map') (agree : Agree sortKey entries others) :
    map = map' := by
  have same : map.map (Prod.map id some) = map'.map (Prod.map id some) := by
    rw [made.paired, made'.paired, (made.keys.eq_iff made'.keys).2 agree.keys]
    simp only [agree.values]
  refine List.map_inj_right (fun left right same => ?_) |>.1 same
  cases left
  cases same
  rfl

/-- Maps in the order of their sort keys differ where these keys or these values do. -/
theorem MapOf.eq_iff {others map' : List (α × β)} (made : MapOf sortKey .tree entries map)
    (made' : MapOf sortKey .tree others map') : map = map' ↔ Agree sortKey entries others := by
  have inserted {entries : List (α × β)} (made : MapOf sortKey .tree entries map) :
      map = ofEntries sortKey .tree entries :=
    made.eq_of_agree (mapOf_ofEntries .tree entries) ⟨fun _ => rfl, fun _ => rfl⟩
  constructor
  · rintro rfl
    refine ⟨(made.keys.eq_iff made'.keys).1 rfl, fun key => ?_⟩
    rw [← valueAt?_ofEntries .tree, ← valueAt?_ofEntries .tree, ← inserted made, ← inserted made']
  · exact made.eq_of_agree made'

/-- Entries agree with any others that have the same entries for each sort key in the same
order. -/
theorem agree_of_filter_eq {others : List (α × β)}
    (same : ∀ key, entries.filter (fun entry => sortKey entry.1 = key) =
      others.filter fun entry => sortKey entry.1 = key) : Agree sortKey entries others where
  keys := by
    intro key
    rw [first?, first?, List.find?_map, List.find?_map, ← List.head?_filter, ← List.head?_filter]
    exact congrArg (fun found => found.head?.map Prod.fst) (same key)
  values := by
    intro key
    rw [lastValue?, lastValue?, valueAt?, valueAt?]
    refine congrArg (Option.map Prod.snd) (first?_of_filter_eq (fun key => ?_) key)
    rw [List.filter_reverse, List.filter_reverse, same]

/-- A map has as many entries as there are sort keys. -/
theorem MapOf.length_eq (made : MapOf sortKey kind entries map) :
    map.length = (entries.map fun entry => sortKey entry.1).dedup.length := by
  have length := made.keys.length_eq
  rw [List.length_map, List.map_map] at length
  exact length

/-! ## Data -/

/-- The items of a set may stand in it as they do. -/
theorem SetOf.admits {sortKey : Datum → List Int} {kind : SequenceKind} {items set : List Datum}
    (isSet : kind.IsSet) (made : SetOf sortKey kind items set) : kind.Admits sortKey set := by
  cases isSet with
  | tree => exact made.sorted rfl
  | hash => exact made.found.1
  | index => exact made.found.1

theorem MapOf.admits {sortKey : Datum → List Int} {entries map : List (Datum × Datum)}
    (made : MapOf sortKey kind entries map) : kind.Admits sortKey (map.map Prod.fst) := by
  have admitted := made.keys.admits kind.isSet_keySet
  cases kind <;> exact admitted

end Keyed

end MsgPack
