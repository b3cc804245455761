import MsgPack.Proofs.Wire.Announcement

/-!
# Rows of values from the front

A row of values can be taken apart from its first byte on, in one way only: what its first
code announces says how far the first value goes, or how many values stand inside it.

`Shallow` bounds the nesting from above, where nothing may be said to be nested at all.
-/

namespace MsgPack

/-- The bytes of a value that holds no others. -/
inductive Leaf : Bytes → Prop where
  | fixed {code : UInt8} {payload : Bytes} (announced : FixedSize code payload.length) :
      Leaf (code :: payload)
  | sized {code : UInt8} {length payload : Bytes} {extra : Nat}
      (announced : LengthGiven code length.length extra)
      (whole : payload.length = BigEndian.decode length + extra) :
      Leaf (code :: length ++ payload)

namespace Leaf

variable {code : UInt8} {bytes : Bytes}

/-- Which bytes after a code make a leaf is what the code announces. -/
theorem cons_iff :
    Leaf (code :: bytes) ↔
      match (Format.ofCode code).announcement code with
      | .fixed size => bytes.length = size
      | .sized width extra => ∃ length payload, bytes = length ++ payload ∧
          length.length = width ∧ payload.length = BigEndian.decode length + extra
      | _ => False := by
  constructor
  · intro leaf
    generalize joined : code :: bytes = value at leaf
    cases leaf with
    | fixed announced =>
        cases joined
        rw [fixedSize_iff.1 announced]
    | sized announced whole =>
        cases joined
        rw [lengthGiven_iff.1 announced]
        exact ⟨_, _, rfl, rfl, whole⟩
  · intro given
    split at given
    · rename_i announced
      exact .fixed (fixedSize_iff.2 (given ▸ announced))
    · rename_i announced
      rcases given with ⟨length, payload, rfl, rfl, whole⟩
      exact .sized (lengthGiven_iff.2 announced) whole
    · exact given.elim

theorem not_nil : ¬ Leaf [] := by
  intro leaf
  cases leaf

theorem wellFormed {bytes : Bytes} (leaf : Leaf bytes) (levels : Nat) :
    WellFormed levels 1 bytes := by
  have done : WellFormed levels 0 [] := .done
  cases leaf with
  | fixed announced => simpa only [List.append_nil] using WellFormed.fixed announced done
  | sized announced whole =>
      simpa only [List.append_nil] using WellFormed.sized announced whole done

/-- A leaf ends where it says, whatever comes after it. -/
theorem unique {other rest following : Bytes} (leaf : Leaf bytes) (leaf' : Leaf other)
    (same : bytes ++ rest = other ++ following) : bytes = other := by
  cases bytes with
  | nil => exact absurd leaf not_nil
  | cons code bytes =>
      cases other with
      | nil => exact absurd leaf' not_nil
      | cons code' other =>
          rw [List.cons_append, List.cons_append] at same
          injection same with first same
          subst first
          rw [cons_iff] at leaf leaf'
          cases announced : (Format.ofCode code).announcement code with
          | fixed size =>
              rw [announced] at leaf leaf'
              rw [(List.append_inj same (leaf.trans leaf'.symm)).1]
          | sized width extra =>
              rw [announced] at leaf leaf'
              rcases leaf with ⟨length, payload, rfl, whole, sized⟩
              rcases leaf' with ⟨length', payload', rfl, whole', sized'⟩
              rw [List.append_assoc, List.append_assoc] at same
              obtain ⟨rfl, tails⟩ := List.append_inj same (whole.trans whole'.symm)
              rw [(List.append_inj tails (sized.trans sized'.symm)).1]
          | values each form =>
              rw [announced] at leaf
              exact leaf.elim
          | nothing =>
              rw [announced] at leaf
              exact leaf.elim

end Leaf

namespace Opens

/-- A header ends where it says, whatever comes after it. -/
theorem unique {header other rest following : Bytes} {count inner : Nat}
    (opens : Opens header count) (opens' : Opens other inner)
    (same : header ++ rest = other ++ following) : header = other ∧ count = inner := by
  cases header with
  | nil => cases opens
  | cons code header =>
      cases other with
      | nil => cases opens'
      | cons code' other =>
          rw [List.cons_append, List.cons_append] at same
          injection same with first same
          subst first
          rcases opens_iff.1 opens with ⟨each, form, length, announced, gives, rfl⟩
          rcases opens_iff.1 opens' with ⟨_, _, length', announced', gives', rfl⟩
          rw [announced] at announced'
          cases announced'
          cases form with
          | fixed mask =>
              rcases gives with ⟨rfl, rfl⟩
              rcases gives' with ⟨rfl, rfl⟩
              exact ⟨rfl, rfl⟩
          | sized width =>
              rcases gives with ⟨whole, rfl⟩
              rcases gives' with ⟨whole', rfl⟩
              obtain ⟨rfl, _⟩ := List.append_inj same (whole.trans whole'.symm)
              exact ⟨rfl, rfl⟩

/-- No header begins as a leaf does. -/
theorem apart_leaf {header leaf rest following : Bytes} {count : Nat} (opens : Opens header count)
    (given : Leaf leaf) : header ++ rest ≠ leaf ++ following := by
  intro same
  cases header with
  | nil => cases opens
  | cons code header =>
      cases leaf with
      | nil => exact Leaf.not_nil given
      | cons code' leaf =>
          rw [List.cons_append, List.cons_append] at same
          injection same with first same
          subst first
          rcases opens_iff.1 opens with ⟨each, form, _, announced, _⟩
          rw [Leaf.cons_iff, announced] at given
          exact given

end Opens

namespace WellFormed

variable {levels count : Nat} {row rest others : Bytes}

/-- A row of no values has no bytes. -/
theorem eq_nil (given : WellFormed levels 0 row) : row = [] := by
  cases given
  rfl

/-- After a leaf, the row goes on. -/
theorem of_leaf {first : Bytes} (leaf : Leaf first) (joined : first ++ rest = row ++ others)
    (given : WellFormed levels (count + 1) row) :
    ∃ tail, rest = tail ++ others ∧ WellFormed levels count tail := by
  cases given with
  | fixed announced further =>
      rw [List.append_assoc] at joined
      have same := leaf.unique (.fixed announced) joined
      rw [← same] at joined
      exact ⟨_, List.append_cancel_left joined, further⟩
  | sized announced whole further =>
      rw [List.append_assoc] at joined
      have same := leaf.unique (.sized announced whole) joined
      rw [← same] at joined
      exact ⟨_, List.append_cancel_left joined, further⟩
  | opened opens nested further =>
      rw [List.append_assoc, List.append_assoc] at joined
      exact absurd joined.symm (opens.apart_leaf leaf)

/-- After a header come the values that it announces, one level deeper, and then the row
goes on. -/
theorem of_opens {header : Bytes} {inner : Nat} (opens : Opens header inner)
    (joined : header ++ rest = row ++ others) (given : WellFormed levels (count + 1) row) :
    ∃ below inside tail, levels = below + 1 ∧ rest = inside ++ (tail ++ others) ∧
      WellFormed below inner inside ∧ WellFormed levels count tail := by
  cases given with
  | fixed announced further =>
      rw [List.append_assoc] at joined
      exact absurd joined (opens.apart_leaf (.fixed announced))
  | sized announced whole further =>
      rw [List.append_assoc] at joined
      exact absurd joined (opens.apart_leaf (.sized announced whole))
  | opened opens' nested further =>
      rw [List.append_assoc, List.append_assoc] at joined
      obtain ⟨rfl, rfl⟩ := opens.unique opens' joined
      exact ⟨_, _, _, rfl, List.append_cancel_left joined, nested, further⟩

/-- A row that goes on behind another one begins with it, at whatever depth that one is given. -/
theorem of_front {deep more : Nat} {front : Bytes} (first : WellFormed deep count front)
    (given : WellFormed levels (count + more) row) (joined : front ++ rest = row ++ others) :
    WellFormed levels count front ∧
      ∃ tail, rest = tail ++ others ∧ WellFormed levels more tail := by
  induction first generalizing levels more row rest others with
  | done =>
      rw [Nat.zero_add] at given
      exact ⟨.done, row, joined, given⟩
  | fixed announced _ ih =>
      rw [Nat.add_right_comm] at given
      rw [List.append_assoc] at joined
      obtain ⟨tail, joined, given⟩ := of_leaf (.fixed announced) joined given
      obtain ⟨front, behind⟩ := ih given joined
      exact ⟨.fixed announced front, behind⟩
  | sized announced whole _ ih =>
      rw [Nat.add_right_comm] at given
      rw [List.append_assoc] at joined
      obtain ⟨tail, joined, given⟩ := of_leaf (.sized announced whole) joined given
      obtain ⟨front, behind⟩ := ih given joined
      exact ⟨.sized announced whole front, behind⟩
  | @opened _ _ inner _ _ _ opens _ _ inside' ih =>
      rw [Nat.add_right_comm] at given
      rw [List.append_assoc, List.append_assoc] at joined
      obtain ⟨below, inside, tail, rfl, joined, nested, given⟩ := of_opens opens joined given
      rw [← Nat.add_zero inner] at nested
      obtain ⟨within, none, joined, empty⟩ := inside' nested joined
      rw [empty.eq_nil, List.nil_append] at joined
      obtain ⟨front, behind⟩ := ih given joined
      exact ⟨.opened opens within front, behind⟩

/-- A row of values one after the other is nested as deep as they are. -/
theorem of_flatten {values : List Bytes} (each : ∀ value ∈ values, ∃ deep, WellFormed deep 1 value)
    (given : WellFormed levels values.length values.flatten) :
    ∀ value ∈ values, WellFormed levels 1 value := by
  induction values with
  | nil => exact fun _ none => absurd none List.not_mem_nil
  | cons value values ih =>
      obtain ⟨⟨deep, first⟩, others⟩ := List.forall_mem_cons.1 each
      rw [List.length_cons, Nat.add_comm] at given
      have whole : value ++ values.flatten = (value :: values).flatten ++ [] :=
        (List.append_nil _).symm
      obtain ⟨front, tail, joined, behind⟩ := first.of_front given whole
      rw [List.append_nil] at joined
      exact List.forall_mem_cons.2 ⟨front, ih others (joined ▸ behind)⟩

end WellFormed

/-! ## Places for a value -/

/-- What stands before one of the values of a row, or inside one of them, and what follows it, if
that value may be nested `inner` levels deep. -/
inductive Gap : (levels count inner : Nat) → (before following : Bytes) → Prop where
  | here {levels count : Nat} {rest : Bytes} (others : WellFormed levels count rest) :
      Gap levels (count + 1) levels [] rest
  | later {levels count inner : Nat} {first before following : Bytes}
      (value : WellFormed levels 1 first) (gap : Gap levels count inner before following) :
      Gap levels (count + 1) inner (first ++ before) following
  | inside {levels count within inner : Nat} {header before following rest : Bytes}
      (announced : Opens header within) (gap : Gap levels within inner before following)
      (others : WellFormed (levels + 1) count rest) :
      Gap (levels + 1) (count + 1) inner (header ++ before) (following ++ rest)

/-- With a value in its gap a row is well-formed, as many levels deeper as the value is. -/
theorem Gap.fill {levels count inner more : Nat} {before value following : Bytes}
    (gap : Gap levels count inner before following) (given : WellFormed (inner + more) 1 value) :
    WellFormed (levels + more) count (before ++ value ++ following) := by
  induction gap with
  | here others =>
      rw [List.nil_append, Nat.add_comm _ 1]
      exact given.append (others.mono (Nat.le_add_right _ _))
  | later first _ ih =>
      rw [Nat.add_comm _ 1, List.append_assoc, List.append_assoc, ← List.append_assoc _ value]
      exact (first.mono (Nat.le_add_right _ _)).append (ih given)
  | inside announced _ others ih =>
      have row := others.mono (Nat.le_add_right _ more)
      rw [Nat.add_right_comm] at row ⊢
      have whole := WellFormed.opened announced (ih given) row
      simpa only [List.append_assoc] using whole

/-! ## Limits on nesting -/

/-- Bytes that are `count` values in a row, with arrays and maps nested less than `limit`
levels deep. -/
def Shallow (limit count : Nat) (bytes : Bytes) : Prop :=
  ∃ levels < limit, WellFormed levels count bytes

namespace Shallow

variable {limit first second : Nat} {left right : Bytes}

theorem nil (positive : 0 < limit) : Shallow limit 0 [] :=
  ⟨0, positive, .done⟩

theorem mono {more : Nat} (given : Shallow limit first left) (le : limit ≤ more) :
    Shallow more first left := by
  obtain ⟨levels, less, row⟩ := given
  exact ⟨levels, Nat.lt_of_lt_of_le less le, row⟩

theorem append (before : Shallow limit first left) (after : Shallow limit second right) :
    Shallow limit (first + second) (left ++ right) := by
  obtain ⟨levels, less, row⟩ := before
  obtain ⟨levels', less', row'⟩ := after
  exact ⟨max levels levels', Nat.max_lt.2 ⟨less, less'⟩,
    (row.mono (Nat.le_max_left _ _)).append (row'.mono (Nat.le_max_right _ _))⟩

theorem eq_nil (given : Shallow limit 0 left) : left = [] := by
  obtain ⟨levels, _, row⟩ := given
  exact row.eq_nil

/-- An array or a map is nested one level deeper than the values inside it. -/
theorem opened {header : Bytes} (opens : Opens header first) (inside : Shallow limit first left) :
    Shallow (limit + 1) 1 (header ++ left) := by
  obtain ⟨levels, less, row⟩ := inside
  have outer := WellFormed.opened opens row .done
  rw [List.append_nil] at outer
  exact ⟨levels + 1, Nat.succ_lt_succ less, outer⟩

end Shallow

theorem Leaf.shallow {bytes : Bytes} (leaf : Leaf bytes) {limit : Nat} (positive : 0 < limit) :
    Shallow limit 1 bytes :=
  ⟨0, positive, leaf.wellFormed 0⟩

end MsgPack
