import MsgPack.Proofs.Reader.Depth

/-!
# Walking as a recursive equation

Values of any shape are read and skipped with a budget of levels, which is how many structures
the reader may still open.  The budget goes down at every structure that is opened, and so do
the levels that the reader has left.  So both walks satisfy an equation without budgets: the
values inside a structure are walked over in the same way.
-/

namespace MsgPack

/-! ## Agreement -/

/-- Two computations do the same in the states with just so many levels left. -/
def Agree {ρ α : Type} (levels : ρ → Nat) (budget : Nat) (first second : EStateM Error ρ α) :
    Prop :=
  ∀ state, levels state = budget → first state = second state

namespace Agree

variable {ρ α β : Type} {levels : ρ → Nat} {budget : Nat} {first second : EStateM Error ρ α}

theorem refl (step : EStateM Error ρ α) : Agree levels budget step step :=
  fun _ _ => rfl

theorem mapped (agree : Agree levels budget first second) (convert : α → β) :
    Agree levels budget (return convert (← first)) (return convert (← second)) := by
  intro state room
  simp only [Bind.bind, EStateM.bind, agree state room]

/-- What follows a computation that keeps the levels has as many left.  It may rely on what the
computation can give. -/
theorem bindOf {next other : α → EStateM Error ρ β}
    (keeps : ∀ ⦃state middle found⦄, first state = .ok found middle → levels middle = levels state)
    (head : Agree levels budget first second)
    (tail : ∀ found, (∃ state middle, first state = .ok found middle) →
      Agree levels budget (next found) (other found)) :
    Agree levels budget (first >>= next) (second >>= other) := by
  intro state room
  simp only [Bind.bind, EStateM.bind, ← head state room]
  cases start : first state with
  | error failure middle => rfl
  | ok found middle => exact tail found ⟨state, middle, start⟩ middle ((keeps start).trans room)

end Agree

namespace Read

variable {α β : Type} {budget : Nat}

theorem agree_bind {first second : Read α} {next other : α → Read β} (keeps : KeepsDepth first)
    (head : Agree Reader.budget budget first second)
    (tail : ∀ found, Agree Reader.budget budget (next found) (other found)) :
    Agree Reader.budget budget (first >>= next) (second >>= other) :=
  head.bindOf (fun _ _ _ ok => (keeps.of_ok ok).budget) fun found _ => tail found

theorem agree_times {first second : Read α} (keeps : KeepsDepth first)
    (item : Agree Reader.budget budget first second) (count : Nat) :
    Agree Reader.budget budget (Loop.times count first) (Loop.times count second) := by
  induction count with
  | zero => exact .refl _
  | succ count ih =>
      simp only [Loop.times_succ]
      exact agree_bind keeps item fun next => ih.mapped (next :: ·)

theorem agree_discard {first second : Read Unit} (keeps : KeepsDepth first)
    (item : Agree Reader.budget budget first second) (count : Nat) :
    Agree Reader.budget budget (Loop.discard first count) (Loop.discard second count) := by
  induction count with
  | zero => exact .refl _
  | succ count ih => exact agree_bind keeps item fun _ => ih

/-- Inside a structure there is one level less, and without a level nothing is read there. -/
theorem agree_nested {first second : Read α}
    (inside : ∀ below, below + 1 = budget → Agree Reader.budget below first second) :
    Agree Reader.budget budget (nested first) (nested second) := by
  rintro reader rfl
  simp only [nested, enterNested]
  by_cases full : reader.maxDepth ≤ reader.depth
  · simp only [if_pos full]
  · simp only [if_neg full]
    have room : reader.entered.budget + 1 = reader.budget := by
      rw [Reader.budget_entered, Reader.budget]
      omega
    have same := inside _ room reader.entered rfl
    rw [Reader.entered] at same
    rw [same]

/-! ## Skipping -/

theorem agree_skipStep {first second : Read Unit} (keeps : KeepsDepth first)
    (inside : ∀ below, below + 1 = budget → Agree Reader.budget below first second) :
    Agree Reader.budget budget (skipStep first) (skipStep second) := by
  apply agree_bind (composed_token : Composed true false token).keepsDepth (.refl _)
  intro announced
  cases announced with
  | none => exact .refl _
  | some count => exact agree_nested fun below same => agree_discard keeps (inside below same) count

/-- Skipping without budgets: the values inside a structure are skipped. -/
theorem skip_eq : skip = skipStep skip := by
  funext reader
  rw [skip]
  cases left : reader.budget with
  | zero =>
      have agree : Agree Reader.budget 0 (skipStep tooDeep) (skipStep skip) :=
        agree_skipStep keepsDepth_tooDeep fun _ none => nomatch none
      exact agree reader left
  | succ budget =>
      have agree : Agree Reader.budget (budget + 1) (skipStep (skipWithin budget))
          (skipStep skip) := by
        apply agree_skipStep (composed_skipWithin budget).keepsDepth
        rintro below same inside rfl
        cases same
        rfl
      exact agree reader left

end Read

namespace Value

open Read

theorem agree_readStep {budget : Nat} {first second : Read Value} (keeps : KeepsDepth first)
    (inside : ∀ below, below + 1 = budget → Agree Reader.budget below first second) :
    Agree Reader.budget budget (readStep first) (readStep second) := by
  apply agree_bind (Composed.peekCode : Composed true false peekCode).keepsDepth (.refl _)
  intro code
  cases (Format.ofCode code).kind with
  | array =>
      apply agree_bind
        (composed_arrayHeader : Composed true false Read.arrayHeader).keepsDepth (.refl _)
      intro count
      exact (agree_nested fun below same => agree_times keeps (inside below same) count).mapped _
  | map =>
      apply agree_bind
        (composed_mapHeader : Composed true false Read.mapHeader).keepsDepth (.refl _)
      intro count
      refine (agree_nested fun below same => agree_times ?_ ?_ count).mapped _
      · exact keeps.bind fun key => keeps.bind fun value => .pure (key, value)
      · exact agree_bind keeps (inside below same) fun key => (inside below same).mapped _
  | _ => exact .refl _

/-- Reading values without budgets: the values inside a structure are read. -/
theorem read_eq : read = readStep read := by
  funext reader
  rw [read]
  cases left : reader.budget with
  | zero =>
      have agree : Agree Reader.budget 0 (readStep tooDeep) (readStep read) :=
        agree_readStep keepsDepth_tooDeep fun _ none => nomatch none
      exact agree reader left
  | succ budget =>
      have agree : Agree Reader.budget (budget + 1) (readStep (readWithin budget))
          (readStep read) := by
        apply agree_readStep (composed_readWithin budget).keepsDepth
        rintro below same inside rfl
        cases same
        rfl
      exact agree reader left

end Value

end MsgPack
