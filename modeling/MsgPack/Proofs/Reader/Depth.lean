import MsgPack.Proofs.Reader.Composed
import MsgPack.Proofs.Reader.Grammar

/-!
# How deep reads leave a reader

How deep a reader is in its source changes only where a nested structure is opened, and there
it is put back at the end.  So every composed read leaves a reader as deep as it was, and with
the same limit, whether it succeeds or fails.
-/

namespace MsgPack

/-- Whether one reader is as deep in its source as another one, and may go as deep. -/
structure Reader.AsDeep (before after : Reader) : Prop where
  depth : after.depth = before.depth
  maxDepth : after.maxDepth = before.maxDepth

namespace Reader.AsDeep

variable {before middle after : Reader}

theorem refl (reader : Reader) : reader.AsDeep reader :=
  ⟨rfl, rfl⟩

theorem trans (start : before.AsDeep middle) (rest : middle.AsDeep after) :
    before.AsDeep after :=
  ⟨rest.depth.trans start.depth, rest.maxDepth.trans start.maxDepth⟩

theorem budget (same : before.AsDeep after) : after.budget = before.budget := by
  rw [Reader.budget, Reader.budget, same.depth, same.maxDepth]

end Reader.AsDeep

namespace Read

variable {α β : Type}

/-- The reader that a read leaves behind, whether it succeeds or fails. -/
def left (read : Read α) (reader : Reader) : Reader :=
  match read reader with
  | .ok _ after => after
  | .error _ after => after

/-- However the inside of a structure is read, the reader is as deep afterwards as before. -/
theorem depth_nested (inner : Read α) (reader : Reader) :
    (left (nested inner) reader).depth = reader.depth := by
  rw [left, nested]
  by_cases full : reader.maxDepth ≤ reader.depth
  · rw [enterNested, if_pos full]
  · rw [enterNested, if_neg full]
    dsimp only
    cases inner { reader with depth := reader.depth + 1 } <;> rfl

/-- A read leaves every reader as deep as it was. -/
def KeepsDepth (read : Read α) : Prop :=
  ∀ reader : Reader, reader.AsDeep (left read reader)

namespace KeepsDepth

theorem of_ok {read : Read α} (keeps : KeepsDepth read) {reader after : Reader} {result : α}
    (ok : read reader = .ok result after) : reader.AsDeep after := by
  have same := keeps reader
  rwa [left, ok] at same

theorem of_error {read : Read α} (keeps : KeepsDepth read) {reader after : Reader}
    {failure : Error} (error : read reader = .error failure after) : reader.AsDeep after := by
  have same := keeps reader
  rwa [left, error] at same

/-! ## Elementary reads -/

theorem pure (result : α) : KeepsDepth (pure result : Read α) :=
  Reader.AsDeep.refl

theorem throw (failure : Error) : KeepsDepth (throw failure : Read α) :=
  Reader.AsDeep.refl

theorem peek (look : Cursor → Except Error α) : KeepsDepth (peek look) := by
  intro reader
  rw [left, Read.peek]
  cases look reader.cursor <;> exact .refl reader

theorem take (step : Cursor → Except Error (α × Cursor)) : KeepsDepth (take step) := by
  intro reader
  rw [left, Read.take]
  cases step reader.cursor <;> exact ⟨rfl, rfl⟩

/-! ## Compositions -/

theorem bind {first : Read α} {next : α → Read β} (head : KeepsDepth first)
    (tail : ∀ found, KeepsDepth (next found)) : KeepsDepth (first >>= next) := by
  intro reader
  cases start : first reader with
  | ok found middle =>
      rw [left, bind_of_ok start]
      exact (head.of_ok start).trans (tail found middle)
  | error failure middle =>
      rw [left, bind_of_error start]
      exact head.of_error start

/-- A structure is closed however the read of its inside ends, and whatever the inside opens or
closes, if it does not change the limit. -/
theorem nestedOf {inner : Read α}
    (limit : ∀ reader, (left inner reader).maxDepth = reader.maxDepth) :
    KeepsDepth (nested inner) := by
  refine fun reader => ⟨depth_nested inner reader, ?_⟩
  have kept := limit { reader with depth := reader.depth + 1 }
  rw [left] at kept
  rw [left, Read.nested]
  by_cases full : reader.maxDepth ≤ reader.depth
  · rw [enterNested, if_pos full]
  · rw [enterNested, if_neg full]
    dsimp only
    cases ends : inner { reader with depth := reader.depth + 1 } with
    | ok result after => rwa [ends] at kept
    | error failure after => rwa [ends] at kept

theorem nested {inner : Read α} (inside : KeepsDepth inner) : KeepsDepth (nested inner) :=
  nestedOf fun reader => (inside reader).maxDepth

theorem lookAhead (read : Read α) : KeepsDepth (lookAhead read) := by
  intro reader
  rw [left, Read.lookAhead]
  cases read reader <;> exact .refl reader

theorem span {skipping : Read Unit} (inside : KeepsDepth skipping) :
    KeepsDepth (Read.span skipping) := by
  intro reader
  rw [left, Read.span]
  cases ends : skipping reader with
  | error failure after => exact inside.of_error ends
  | ok found after =>
      dsimp only
      cases reader.cursor.readSlice (after.cursor.consumed - reader.cursor.consumed) <;>
        exact inside.of_ok ends

end KeepsDepth

theorem keepsDepth_tooDeep : KeepsDepth (tooDeep : Read α) :=
  Reader.AsDeep.refl

/-- Composed reads leave a reader as deep as it was. -/
theorem Composed.keepsDepth {deep ready : Bool} {read : Read α}
    (composed : Composed deep ready read) :
    KeepsDepth read := by
  induction composed with
  | pure result => exact .pure result
  | throw placeless => exact .throw _
  | bind _ _ head tail => exact head.bind tail
  | @peekThen _ _ _ next _ taken =>
      refine (KeepsDepth.peek _).bind fun code => ?_
      by_cases refused : Refuses code (next code)
      · obtain ⟨expected, refuses⟩ := refused
        rw [refuses]
        exact .throw _
      · exact taken code refused
  | skipByte => exact fun _ => ⟨rfl, rfl⟩
  | advance count => exact .take _
  | fixed count => exact .take _
  | ensure needed => exact .peek _
  | position => exact Reader.AsDeep.refl
  | tooDeep => exact keepsDepth_tooDeep
  | nested _ inside => exact inside.nested
  | lookAhead _ _ _ => exact .lookAhead _
  | withBudget _ within => exact fun reader => within reader.budget reader
  | span _ inside => exact inside.span.bind fun _ => .pure _

end Read

end MsgPack
