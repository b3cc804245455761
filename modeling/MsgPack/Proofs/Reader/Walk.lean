import MsgPack.Proofs.Reader.Flat
import MsgPack.Proofs.Reader.Recursion
import MsgPack.Reader.Walk

/-!
# Skipping as a walk over tokens

Skipping a value goes down into arrays and maps, and a walk over tokens does not: it counts how
many values are pending.  Both come to the same tokens in the same order.  So unless skipping runs
out of levels, both end alike, in the same place.

A walk ends because a token takes at least one byte, whatever its header announces.  It takes no
more steps than there are bytes, and one more for a token that is not there.
-/

namespace MsgPack.Read

/-! ## Steps and bytes -/

/-- A walk that may take more steps than there are bytes does not stop while values are
pending. -/
theorem eq_zero_of_walk {steps pending left : Nat} {reader after : Reader}
    (enough : reader.remaining < steps) (ok : walk steps pending reader = .ok left after) :
    left = 0 := by
  induction steps generalizing pending reader with
  | zero => exact absurd enough (Nat.not_lt_zero _)
  | succ steps ih =>
      cases pending with
      | zero =>
          cases ok
          rfl
      | succ pending =>
          rcases bind_eq_ok.1 ok with ⟨announced, middle, taken, rest⟩
          have fewer := advances_token taken
          exact ih (by omega) rest

/-- How many more steps than bytes a walk may take makes no difference. -/
theorem walk_congr {steps others pending : Nat} {reader : Reader}
    (enough : reader.remaining < steps) (enough' : reader.remaining < others) :
    walk steps pending reader = walk others pending reader := by
  induction steps generalizing others pending reader with
  | zero => exact absurd enough (Nat.not_lt_zero _)
  | succ steps ih =>
      cases others with
      | zero => exact absurd enough' (Nat.not_lt_zero _)
      | succ others =>
          cases pending with
          | zero => rfl
          | succ pending =>
              simp only [walk]
              cases taken : token reader with
              | error failure middle => rw [bind_of_error taken, bind_of_error taken]
              | ok announced middle =>
                  have fewer := advances_token taken
                  rw [bind_of_ok taken, bind_of_ok taken]
                  exact ih (by omega) (by omega)

theorem composed_walk (steps pending : Nat) : Composed false false (walk steps pending) := by
  induction steps generalizing pending with
  | zero => cases pending <;> exact .pure _
  | succ steps ih =>
      cases pending with
      | zero => exact .pure 0
      | succ pending => exact composed_token.bind fun _ => ih _

/-! ## Walks to the end -/

/-- Passes over tokens until no value is pending. -/
def walkOver (pending : Nat) : Read Nat := fun reader =>
  walk (reader.remaining + 1) pending reader

theorem walkOver_eq {steps pending : Nat} {reader : Reader} (enough : reader.remaining < steps) :
    walkOver pending reader = walk steps pending reader :=
  walk_congr (Nat.lt_succ_self _) enough

theorem walkOver_zero (reader : Reader) : walkOver 0 reader = .ok 0 reader :=
  rfl

/-- A token takes the place of one pending value, and the values inside it are pending then. -/
theorem walkOver_succ (pending : Nat) (reader : Reader) :
    walkOver (pending + 1) reader =
      (token >>= fun announced => walkOver (pending + announced.getD 0)) reader := by
  rw [walkOver, walk]
  cases taken : token reader with
  | error failure middle => rw [bind_of_error taken, bind_of_error taken]
  | ok announced middle =>
      rw [bind_of_ok taken, bind_of_ok taken, walkOver_eq (advances_token taken)]

theorem flat_walkOver (pending : Nat) : Flat (walkOver pending) :=
  fun cursor => (composed_walk (cursor.remaining + 1) pending).flat rfl cursor

/-! ## Depths -/

/-- An outcome that leaves the reader at another depth. -/
def atDepth {α : Type} (depth : Nat) :
    EStateM.Result Error Reader α → EStateM.Result Error Reader α
  | .ok result after => .ok result { after with depth := depth }
  | .error failure after => .error failure { after with depth := depth }

/-- A read that opens nothing ends alike at any depth. -/
theorem Flat.atDepth {α : Type} {read : Read α} (flat : Flat read) (reader : Reader)
    (depth : Nat) : read { reader with depth := depth } = atDepth depth (read reader) := by
  obtain ⟨outcome, last, _, _, ends⟩ := flat reader.cursor
  rw [ends depth reader.maxDepth, show read reader = _ from ends reader.depth reader.maxDepth]
  cases outcome <;> rfl

/-- What is read after a structure, and opens nothing, may be read before the structure is
closed. -/
theorem nested_bind {α β : Type} {inner : Read α} {next : α → Read β} {reader : Reader}
    (flat : ∀ found, Flat (next found)) (room : 0 < reader.budget) :
    (nested inner >>= next) reader = atDepth reader.depth ((inner >>= next) reader.entered) := by
  have opens : ¬ reader.maxDepth ≤ reader.depth := by
    rw [Reader.budget] at room
    omega
  simp only [bind, EStateM.bind, nested, enterNested, if_neg opens, Reader.entered]
  cases inner { reader with depth := reader.depth + 1 } with
  | error failure middle => rfl
  | ok found middle => exact (flat found).atDepth middle reader.depth

/-! ## Skipping and walking -/

/-- Skipping some values runs out of levels, or else it is a walk over these values: with any
others pending after them, the walk goes on where skipping ends, or fails as skipping does. -/
def Walks (skipping : Read Unit) (count : Nat) (reader : Reader) : Prop :=
  (∃ limit after, skipping reader = .error (.depthExceeded limit) after) ∨
    ∀ pending, walkOver (pending + count) reader = (skipping >>= fun _ => walkOver pending) reader

namespace Walks

variable {count more : Nat} {reader : Reader}

theorem done (reader : Reader) : Walks (pure ()) 0 reader :=
  .inr fun _ => rfl

/-- Values and those after them. -/
theorem append {first second : Read Unit} (head : Walks first count reader)
    (tail : ∀ middle, first reader = .ok () middle → Walks second more middle) :
    Walks (first >>= fun _ => second) (count + more) reader := by
  rcases head with ⟨limit, after, exceeded⟩ | goesOn
  · exact .inl ⟨limit, after, bind_of_error exceeded _⟩
  cases skipped : first reader with
  | error failure middle =>
      refine .inr fun pending => ?_
      have order : pending + (count + more) = pending + more + count := by omega
      rw [order, goesOn, bind_assoc, bind_of_error skipped, bind_of_error skipped]
  | ok found middle =>
      rcases tail middle skipped with ⟨limit, after, exceeded⟩ | goesOn'
      · refine .inl ⟨limit, after, ?_⟩
        rw [bind_of_ok skipped]
        exact exceeded
      · refine .inr fun pending => ?_
        have order : pending + (count + more) = pending + more + count := by omega
        rw [order, goesOn, bind_assoc, bind_of_ok skipped, bind_of_ok skipped, goesOn']

/-- A row of values, each of which is skipped with as many levels left. -/
theorem discard {item : Read Unit} {levels : Nat} (keeps : KeepsDepth item)
    (each : ∀ other : Reader, other.budget = levels → Walks item 1 other) (count : Nat)
    (room : reader.budget = levels) : Walks (Loop.discard item count) count reader := by
  induction count generalizing reader with
  | zero => exact .done reader
  | succ count ih =>
      have row := (each reader room).append fun middle ok =>
        ih ((keeps.of_ok ok).budget.trans room)
      rwa [Nat.add_comm 1 count] at row

/-- The values inside a structure.  A walk does not see that they stand one level deeper. -/
theorem nested {inner : Read Unit}
    (inside : 0 < reader.budget → Walks inner count reader.entered) :
    Walks (nested inner) count reader := by
  rcases Nat.eq_zero_or_pos reader.budget with full | room
  · exact .inl ⟨_, _, nested_of_budget_zero inner full⟩
  rcases inside room with ⟨limit, after, exceeded⟩ | goesOn
  · obtain ⟨last, error⟩ := nested_of_error room exceeded
    exact .inl ⟨limit, last, error⟩
  · refine .inr fun pending => ?_
    rw [nested_bind (fun _ => flat_walkOver pending) room, ← goesOn pending,
      ← (flat_walkOver (pending + count)).atDepth reader.entered reader.depth]
    rfl

/-- One value: its token, and the values inside it. -/
theorem step {inner : Read Unit}
    (inside : ∀ count middle, reader.AsDeep middle →
      Walks (Read.nested (Loop.discard inner count)) count middle) :
    Walks (skipStep inner) 1 reader := by
  cases taken : token reader with
  | error failure middle =>
      refine .inr fun pending => ?_
      rw [walkOver_succ, skipStep, bind_assoc, bind_of_error taken, bind_of_error taken]
  | ok announced middle =>
      have same : skipStep inner reader = _ := bind_of_ok taken _
      cases announced with
      | none =>
          refine .inr fun pending => ?_
          rw [walkOver_succ, bind_of_ok taken, bind_of_ok same]
          rfl
      | some count =>
          have level := (composed_token : Composed true false token).keepsDepth.of_ok taken
          rcases inside count middle level with ⟨limit, after, exceeded⟩ | goesOn
          · exact .inl ⟨limit, after, same.trans exceeded⟩
          · refine .inr fun pending => ?_
            rw [walkOver_succ, skipStep, bind_assoc, bind_of_ok taken, bind_of_ok taken]
            exact goesOn pending

/-- Skipping a value is a walk, by induction on the levels that are left. -/
theorem skip (reader : Reader) : Walks skip 1 reader := by
  induction room : reader.budget generalizing reader with
  | zero =>
      rw [skip_eq]
      refine step fun count middle level => nested fun opens => ?_
      rw [level.budget, room] at opens
      exact absurd opens (Nat.lt_irrefl 0)
  | succ levels ih =>
      rw [skip_eq]
      refine step fun count middle level => nested fun _ => ?_
      apply discard composed_skip.keepsDepth ih
      rw [Reader.budget_entered, level.budget, room, Nat.add_sub_cancel]

end Walks

/-- A walk that starts with one pending value and may take more steps than there are bytes stops
only when no value is pending, or where a token fails.  If the value is skipped, it stops where
skipping does; if skipping fails, it fails alike in the same place, unless that was for want of
levels. -/
theorem walk_ends_as_skip (reader : Reader) {steps : Nat} (enough : reader.remaining < steps) :
    (∀ left after, walk steps 1 reader = .ok left after → left = 0) ∧
    (∀ after, skip reader = .ok () after → walk steps 1 reader = .ok 0 after) ∧
    ∀ failure after, skip reader = .error failure after →
      (∀ limit, failure ≠ .depthExceeded limit) →
        walk steps 1 reader = .error failure after := by
  rw [← walkOver_eq enough]
  refine ⟨fun left after ok => eq_zero_of_walk (Nat.lt_succ_self _) ok, ?skipped, ?failed⟩
  case skipped =>
    intro after ok
    rcases Walks.skip reader with ⟨limit, last, exceeded⟩ | goesOn
    · rw [ok] at exceeded
      cases exceeded
    · rw [← Nat.zero_add 1, goesOn 0, bind_of_ok ok]
      exact walkOver_zero after
  case failed =>
    intro failure after error shallow
    rcases Walks.skip reader with ⟨limit, last, exceeded⟩ | goesOn
    · rw [error] at exceeded
      cases exceeded
      exact absurd rfl (shallow limit)
    · rw [← Nat.zero_add 1, goesOn 0, bind_of_error error]

/-- A list of a map and a number, with one more byte after it, is passed over; where its bytes end
within the map, both stop at the header of the map. -/
theorem walk_ends_as_skip_list :
    (∃ after, walk 7 1 (.ofCursor (.ofBytes [0x92, 0x81, 0x01, 0xc0, 0x07, 0xc1]) 2) =
        .ok 0 after ∧ after.position = 5) ∧
      ∃ after, walk 4 1 (.ofCursor (.ofBytes [0x92, 0x81, 0x01]) 2) =
        .error (.insufficientData 2 1) after ∧ after.position = 2 := by
  constructor
  · refine ⟨_, (walk_ends_as_skip _ ?_).2.1 _ rfl, rfl⟩
    decide
  · refine ⟨_, (walk_ends_as_skip _ ?_).2.2 _ _ rfl ?_, rfl⟩
    · decide
    · rintro limit ⟨⟩

end MsgPack.Read
