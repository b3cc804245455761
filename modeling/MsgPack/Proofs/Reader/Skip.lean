import MsgPack.Proofs.Reader.Token

/-!
# What skipping accepts

Skipping passes over exactly the well-formed values that are nested no deeper than the levels
that the reader has left.  Completeness follows a row of values from its first byte to its
last: each value is skipped, or the levels run out inside it.  Soundness goes by the number
of levels left.
-/

namespace MsgPack

namespace Read

/-! ## One value -/

/-- A token that is a whole value is skipped with nothing more. -/
theorem skipWithin_of_leaf (budget : Nat) {bytes rest : Bytes} {reader : Reader}
    (leaf : Leaf bytes) (next : reader.cursor.unread = bytes ++ rest) :
    ∃ after, skipWithin budget reader = .ok () after ∧ reader.Passed bytes after := by
  have announced : Announces bytes none rest.length := leaf
  obtain ⟨after, ok, passed⟩ := accepts_token.complete announced next
  refine ⟨after, ?_, passed⟩
  cases budget <;> exact bind_eq_ok.2 ⟨none, after, ok, rfl⟩

/-- A token that announces values is skipped, and then a structure with these values. -/
theorem skipWithin_of_opens (budget : Nat) {count : Nat} {bytes rest : Bytes} {reader : Reader}
    (opens : Opens bytes count) (enough : count ≤ rest.length)
    (next : reader.cursor.unread = bytes ++ rest) :
    ∃ middle, reader.Passed bytes middle ∧ skipWithin budget reader =
      match budget with
      | 0 => nested (Loop.discard tooDeep count) middle
      | budget + 1 => nested (Loop.discard (skipWithin budget) count) middle := by
  have announced : Announces bytes (some count) rest.length := ⟨opens, enough⟩
  obtain ⟨middle, ok, passed⟩ := accepts_token.complete announced next
  refine ⟨middle, passed, ?_⟩
  cases budget <;> exact bind_of_ok ok _

/-! ## Completeness -/

/-- Skipping values that are nested up to some number of levels deep passes over them, if
they are well-formed within the levels that the reader has left; otherwise these run out. -/
def Skips (skipping : Read Unit) (levels count : Nat) (bytes : Bytes) (reader : Reader) : Prop :=
  (WellFormed reader.budget count bytes ∧
    ∃ after, skipping reader = .ok () after ∧ reader.Passed bytes after) ∨
  (reader.budget < levels ∧
    ∃ after, skipping reader = .error (.depthExceeded reader.maxDepth) after)

namespace Skips

variable {levels count : Nat} {bytes rest : Bytes} {reader : Reader}

/-- A leaf is skipped with any number of levels left. -/
theorem leaf (leaf : Leaf bytes) (next : reader.cursor.unread = bytes ++ rest) :
    Skips (skipWithin reader.budget) levels 1 bytes reader :=
  .inl ⟨leaf.wellFormed _, skipWithin_of_leaf _ leaf next⟩

/-- An array or a map takes one level, and the values inside it take the others. -/
theorem opened {inner : Nat} {header inside : Bytes} (opens : Opens header inner)
    (enough : inner ≤ inside.length) (next : reader.cursor.unread = header ++ (inside ++ rest))
    (values : ∀ {middle : Reader}, middle.cursor.unread = inside ++ rest →
      Skips (Loop.discard (skipWithin middle.budget) inner) levels inner inside middle) :
    Skips (skipWithin reader.budget) (levels + 1) 1 (header ++ inside) reader := by
  have announced : inner ≤ (inside ++ rest).length := by
    rw [List.length_append]
    exact Nat.le_add_right_of_le enough
  obtain ⟨middle, passed, skipped⟩ := skipWithin_of_opens reader.budget opens announced next
  rw [Skips, skipped, ← passed.maxDepth]
  cases left : reader.budget with
  | zero =>
      have full := passed.budget.trans left
      exact .inr ⟨Nat.succ_pos levels, middle, nested_of_budget_zero _ full⟩
  | succ budget =>
      have room : 0 < middle.budget := by
        rw [passed.budget, left]
        exact Nat.succ_pos budget
      have below : middle.entered.budget = budget := by
        rw [Reader.budget_entered, passed.budget, left, Nat.add_sub_cancel]
      have following : middle.entered.cursor.unread = inside ++ rest := passed.unread_eq next
      have skips := values following
      rw [Skips, below] at skips
      rcases skips with ⟨wellFormed, last, ok, through⟩ | ⟨deeper, last, error⟩
      · obtain ⟨after, done, closed⟩ := nested_of_ok room ok through
        refine .inl ⟨?_, after, done, passed.trans closed⟩
        have row := WellFormed.opened opens wellFormed .done
        rwa [List.append_nil] at row
      · exact .inr ⟨Nat.succ_lt_succ deeper, nested_of_error room error⟩

/-- A value and the values after it. -/
theorem cons {first others : Bytes}
    (value : Skips (skipWithin reader.budget) levels 1 first reader)
    (next : reader.cursor.unread = first ++ (others ++ rest))
    (row : ∀ {middle : Reader}, middle.cursor.unread = others ++ rest →
      Skips (Loop.discard (skipWithin middle.budget) count) levels count others middle) :
    Skips (Loop.discard (skipWithin reader.budget) (count + 1)) levels (count + 1)
      (first ++ others) reader := by
  rw [Skips, Loop.discard]
  rcases value with ⟨wellFormed, middle, ok, passed⟩ | ⟨deeper, after, error⟩
  · have skips := row (passed.unread_eq next)
    rw [Skips, passed.budget, passed.maxDepth] at skips
    rw [bind_of_ok ok]
    rcases skips with ⟨followed, after, done, through⟩ | exceeded
    · refine .inl ⟨?_, after, done, passed.trans through⟩
      rw [Nat.add_comm]
      exact wellFormed.append followed
    · exact .inr exceeded
  · exact .inr ⟨deeper, after, bind_of_error error _⟩

/-- A row of well-formed values. -/
theorem of_wellFormed (given : WellFormed levels count bytes)
    (next : reader.cursor.unread = bytes ++ rest) :
    Skips (Loop.discard (skipWithin reader.budget) count) levels count bytes reader := by
  induction given generalizing reader rest with
  | done => exact .inl ⟨.done, reader, rfl, .refl reader⟩
  | fixed announced others ih =>
      rw [List.append_assoc] at next
      exact cons (leaf (.fixed announced) next) next ih
  | sized announced whole others ih =>
      rw [List.append_assoc] at next
      exact cons (leaf (.sized announced whole) next) next ih
  | opened announced nested others ihInside ihOthers =>
      have value := next
      rw [List.append_assoc] at next
      rw [List.append_assoc, List.append_assoc] at value
      exact cons (opened announced nested.count_le_length value ihInside) next ihOthers

end Skips

/-! ## Soundness -/

/-- What was skipped is well-formed within the levels that were left. -/
def SkipsSoundly (skipping : Read Unit) (levels count : Nat) : Prop :=
  ∀ reader after : Reader, reader.budget = levels → skipping reader = .ok () after →
    ∃ bytes, WellFormed levels count bytes ∧ reader.Passed bytes after

theorem SkipsSoundly.discard {item : Read Unit} {levels : Nat} (value : SkipsSoundly item levels 1)
    (count : Nat) : SkipsSoundly (Loop.discard item count) levels count := by
  induction count with
  | zero =>
      intro reader after left ok
      cases ok
      exact ⟨[], .done, .refl reader⟩
  | succ count ih =>
      intro reader after left ok
      rcases bind_eq_ok.1 ok with ⟨_, middle, first, others⟩
      obtain ⟨bytes, wellFormed, passed⟩ := value _ _ left first
      obtain ⟨rest, followed, through⟩ := ih _ _ (passed.budget.trans left) others
      refine ⟨bytes ++ rest, ?_, passed.trans through⟩
      rw [Nat.add_comm]
      exact wellFormed.append followed

/-- Skipping one value is sound, if skipping inside it is with one level less. -/
theorem SkipsSoundly.step {inner : Read Unit} {levels : Nat}
    (inside : 0 < levels → SkipsSoundly inner (levels - 1) 1) :
    SkipsSoundly (skipStep inner) levels 1 := by
  intro reader after left ok
  rcases bind_eq_ok.1 ok with ⟨announced, middle, token, rest⟩
  obtain ⟨bytes, given, passed⟩ := accepts_token.sound token
  cases announced with
  | none =>
      cases rest
      exact ⟨bytes, given.wellFormed levels, passed⟩
  | some count =>
      obtain ⟨room, last, skipped, through⟩ := of_nested_eq_ok rest
      rw [passed.budget, left] at room
      have below : middle.entered.budget = levels - 1 := by
        rw [Reader.budget_entered, passed.budget, left]
      obtain ⟨values, wellFormed, entered⟩ := (inside room).discard count _ _ below skipped
      refine ⟨bytes ++ values, ?_, passed.trans (through values entered)⟩
      obtain ⟨further, rfl⟩ := Nat.exists_eq_add_of_lt room
      have row := WellFormed.opened given.1 wellFormed .done
      rw [List.append_nil] at row
      simpa using row

theorem skipsSoundly_skipWithin (levels : Nat) : SkipsSoundly (skipWithin levels) levels 1 := by
  induction levels with
  | zero => exact SkipsSoundly.step fun room => absurd room (Nat.lt_irrefl 0)
  | succ levels ih => exact SkipsSoundly.step fun _ => ih

/-! ## Acceptance -/

/-- Skipping succeeds on exactly the well-formed values that are nested no deeper than there
are levels left, and passes over just their bytes.  Over a value that is nested deeper the
levels run out.  The count of an array or a map is compared with the bytes that are left, but
that never turns a well-formed value away. -/
theorem skip_iff_wellFormed (reader : Reader) :
    (∀ count, (∃ after, skip reader = .ok () after ∧ after.position = reader.position + count) ↔
      count ≤ reader.remaining ∧
        WellFormed reader.budget 1 (reader.cursor.unread.take count)) ∧
    (∀ levels count, WellFormed levels 1 (reader.cursor.unread.take count) →
      ¬ WellFormed reader.budget 1 (reader.cursor.unread.take count) →
        ∃ after, skip reader = .error (.depthExceeded reader.maxDepth) after) ∧
    (∀ levels count, WellFormed levels 1 (reader.cursor.unread.take count) →
      ∀ needed left after, skip reader ≠ .error (.insufficientData needed left) after) := by
  have skips {levels count : Nat}
      (given : WellFormed levels 1 (reader.cursor.unread.take count)) :
      Skips skip levels 1 (reader.cursor.unread.take count) reader := by
    have row := Skips.of_wellFormed given (List.take_append_drop count _).symm
    have once : Loop.discard (skipWithin reader.budget) 1 = skipWithin reader.budget :=
      bind_pure _
    rwa [once] at row
  refine ⟨fun count => ?_, fun levels count given deeper => ?_, fun levels count given => ?_⟩
  · constructor
    · rintro ⟨after, ok, moved⟩
      obtain ⟨bytes, given, passed⟩ := skipsSoundly_skipWithin _ _ _ rfl ok
      have length : bytes.length = count := by
        rw [passed.position] at moved
        omega
      subst length
      constructor
      · rw [passed.remaining]
        exact Nat.le_add_right _ _
      · rw [passed.unread, List.take_left]
        exact given
    · rintro ⟨enough, given⟩
      rcases skips given with ⟨_, after, ok, passed⟩ | ⟨deeper, _⟩
      · refine ⟨after, ok, ?_⟩
        rw [passed.position, List.length_take, Cursor.length_unread]
        exact congrArg _ (Nat.min_eq_left enough)
      · exact absurd deeper (Nat.lt_irrefl _)
  · rcases skips given with ⟨wellFormed, _⟩ | ⟨_, exceeded⟩
    · exact absurd wellFormed deeper
    · exact exceeded
  · intro needed left after error
    rcases skips given with ⟨_, last, ok, _⟩ | ⟨_, last, exceeded⟩
    · rw [ok] at error
      cases error
    · rw [exceeded] at error
      cases error

/-- An array that holds nil takes two bytes and one level. -/
theorem skip_array_of_nil :
    (∃ after, skip (.ofCursor (.ofBytes [0x91, 0xc0, 0xff]) 1) = .ok () after ∧
      after.position = 2) ∧
    ∃ after,
      skip (.ofCursor (.ofBytes [0x91, 0xc0, 0xff]) 0) = .error (.depthExceeded 0) after := by
  have opens : Opens [0x91] 1 := .fixArray (by decide) (by decide)
  have nil : Leaf [0xc0] := .fixed .nil
  have array : WellFormed 1 1 ([0x91] ++ [0xc0] ++ []) :=
    .opened opens (nil.wellFormed 0) .done
  constructor
  · exact ((skip_iff_wellFormed (.ofCursor (.ofBytes [0x91, 0xc0, 0xff]) 1)).1 2).2
      ⟨by decide, array⟩
  · apply (skip_iff_wellFormed (.ofCursor (.ofBytes [0x91, 0xc0, 0xff]) 0)).2.1 1 2 array
    intro shallow
    have joined : ([0x91] ++ [0xc0] : Bytes) = [0x91, 0xc0] ++ [] := rfl
    obtain ⟨_, _, _, zero, _⟩ := WellFormed.of_opens opens joined shallow
    cases zero

end Read

end MsgPack
