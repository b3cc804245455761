import MsgPack.Proofs.Formatter.Depth
import MsgPack.Proofs.Reader.Recursion

/-!
# Reading as a recursive equation

Values of any type are read with a budget of levels, which is how many structures the reader
may still open.  The budget goes down at every structure that is opened, and so do the levels
that the reader has left, if no formatter changes how deep the reader is.  So reading satisfies
an equation without budgets: a formatter reads the outside of a value itself, and the values
inside it are read in the same way.
-/

namespace MsgPack

/-- How many more structures the reader of a session may open. -/
def Session.budget {σ : Type} (session : Session Reader σ) : Nat :=
  session.state.budget

namespace Decode

open Session

variable {σ α β : Type} {lookup : Lookup σ} {catalog : Catalog} {budget : Nat}

theorem agree_bindOf {first second : Decode σ α} {next other : α → Decode σ β}
    (keeps : KeepsDepth first) (head : Agree Session.budget budget first second)
    (tail : ∀ found, (∃ session after, first session = .ok found after) →
      Agree Session.budget budget (next found) (other found)) :
    Agree Session.budget budget (first >>= next) (second >>= other) :=
  head.bindOf (fun _ _ _ ok => (keeps.of_ok ok).budget) tail

theorem agree_findThen {type : Schema} {next other : Formatter → Decode σ α}
    (each : ∀ formatter, lookup.GivesOut formatter →
      Agree Session.budget budget (next formatter) (other formatter)) :
    Agree Session.budget budget (find lookup type >>= next) (find lookup type >>= other) := by
  apply agree_bindOf (.find type) (.refl _)
  rintro formatter ⟨session, after, ok⟩
  exact each formatter (givesOut_of_find ok)

/-- Inside a structure there is one level less, and without a level nothing is read there. -/
theorem agree_nested {first second : Decode σ α}
    (inside : ∀ below, below + 1 = budget → Agree Session.budget below first second) :
    Agree Session.budget budget (nested first) (nested second) := by
  rintro ⟨reader, memory⟩ rfl
  simp only [nested, Read.enterNested]
  by_cases full : reader.maxDepth ≤ reader.depth
  · simp only [if_pos full]
  · simp only [if_neg full]
    have room : reader.entered.budget + 1 = reader.budget := by
      rw [Reader.budget_entered, Reader.budget]
      omega
    have same := inside _ room ⟨reader.entered, memory⟩ rfl
    rw [Reader.entered] at same
    rw [same]

/-! ## Comparing what is left to others -/

/-- How many structures are open where a read stands. -/
def Place.opened : Place → Nat
  | outside | headed => 0
  | inside => 1

/-- If two ways to read what lies one level deeper agree where fewer than so many levels are
left, then formatters that leave it to them agree where so many are left. -/
theorem Delegates.agree (steady : lookup.Steady) {levels : Nat}
    {first second : Formatter → Schema → Decode σ Datum}
    (keeps : ∀ formatter type, lookup.GivesOut formatter → KeepsDepth (first formatter type))
    (deeper : ∀ below, below < levels → ∀ formatter type, lookup.GivesOut formatter →
      Agree Session.budget below (first formatter type) (second formatter type))
    {place : Place} {read : (Formatter → Schema → Decode σ Datum) → Decode σ α}
    (delegates : Delegates lookup place read) (budget : Nat)
    (room : budget + place.opened ≤ levels) :
    Agree Session.budget budget (read first) (read second) := by
  induction delegates generalizing budget with
  | pure | throw | lift | skip | value | supplied | note => exact .refl _
  | bind delegates _ head tail =>
      exact agree_bindOf (delegates.keepsDepth steady keeps) (head budget room) fun found _ =>
        tail found budget room
  | findThen _ each => exact agree_findThen fun formatter given => each formatter given budget room
  | namesThen _ each =>
      apply agree_bindOf (.names _) (.refl _)
      rintro known ⟨session, after, ok⟩
      exact each known (keeps_of_names ok) budget room
  | inner given type => exact deeper budget room _ type given
  | headThen composed _ _ tail =>
      apply agree_bindOf (.lift composed.keepsDepth) (.refl _)
      intro found _
      exact tail found budget (Nat.le_of_add_right_le room)
  | nested _ within =>
      apply agree_nested
      rintro below rfl
      exact within below room
  | request _ =>
      apply agree_nested
      rintro below rfl
      exact agree_findThen fun formatter given =>
        deeper below (Nat.lt_of_succ_le (Nat.le_of_add_right_le room)) formatter _ given

/-! ## Without budgets -/

/-- A budget that is larger than the levels that are left makes no difference. -/
theorem agree_within (steady : lookup.Steady) {budget more below : Nat} (le : budget ≤ more)
    (room : below ≤ budget) {formatter : Formatter} (given : lookup.GivesOut formatter)
    (type : Schema) :
    Agree Session.budget below (within lookup catalog budget formatter type)
      (within lookup catalog more formatter type) := by
  have delegates {formatter : Formatter} (given : lookup.GivesOut formatter) (type : Schema) :
      Delegates lookup .outside (layer lookup catalog formatter type) :=
    delegates_layer given type
  induction budget generalizing more below formatter type with
  | zero =>
      have deeper (inner : Formatter → Schema → Decode σ Datum) :
          Agree Session.budget below
            (layer lookup catalog formatter type fun _ _ => lift Read.tooDeep)
            (layer lookup catalog formatter type inner) :=
        (delegates given type).agree steady
          (fun _ _ _ => .lift Read.keepsDepth_tooDeep)
          (fun _ none => absurd none (Nat.not_lt_zero _)) below room
      cases more with
      | zero => exact deeper _
      | succ more => exact deeper _
  | succ budget ih =>
      cases more with
      | zero => exact absurd le (Nat.not_succ_le_zero _)
      | succ more =>
          exact (delegates given type).agree steady
            (fun _ type given => keepsDepth_within steady budget given type)
            (fun _ fewer _ type given =>
              ih (Nat.le_of_succ_le_succ le) (Nat.le_of_lt_succ fewer) given type)
            below room

/-- Reading without budgets: a formatter leaves what lies one level deeper to reading. -/
theorem datum_eq (steady : lookup.Steady) {formatter : Formatter} {type : Schema}
    (delegates : Delegates lookup .outside (layer lookup catalog formatter type)) :
    datum lookup catalog formatter type =
      layer lookup catalog formatter type (datum lookup catalog) := by
  funext session
  rw [datum]
  cases left : session.state.budget with
  | zero =>
      exact delegates.agree steady (fun _ _ _ => .lift Read.keepsDepth_tooDeep)
        (fun _ none => absurd none (Nat.not_lt_zero _)) 0 (Nat.le_refl 0) session left
  | succ budget =>
      apply delegates.agree steady
        (fun _ type given => keepsDepth_within steady budget given type)
        ?_ (budget + 1) (Nat.le_refl _) session left
      rintro below fewer formatter type given inside rfl
      exact (agree_within steady (Nat.le_of_lt_succ fewer) (Nat.le_refl _) given type inside
        rfl).symm

end Decode

end MsgPack
