import MsgPack.Proofs.Reader.Located
import MsgPack.Proofs.Reader.Segments

/-!
# Where typed reads fail

What a failure says of the place of the reader is so also where the failed read was part of
reading a value of a type, however deep inside it: a code that was refused is still unread, and
as many bytes are left as the failure says.  Formatters that are looked for and not found have
no place in the source.
-/

namespace MsgPack

namespace Decode

open Session

/-- Composed reads with the help of a lookup fail where they say. -/
theorem located_of_composed {σ α : Type} {lookup : Lookup σ} {read : Decode σ α}
    (composed : Composed lookup read) {session after : Session Reader σ} {failure : Error}
    (error : read session = .error failure after) : failure.Located after.state := by
  induction composed generalizing session after with
  | pure result => cases error
  | throw placeless =>
      cases error
      exact placeless.located _
  | @bind _ _ first next _ _ head tail =>
      simp only [bind, EStateM.bind] at error
      cases start : first session with
      | ok found middle =>
          rw [start] at error
          exact tail found error
      | error missing middle =>
          rw [start] at error
          cases error
          exact head start
  | @lift _ read composed =>
      simp only [lift] at error
      cases plain : read session.state with
      | ok found middle =>
          rw [plain] at error
          cases error
      | error missing middle =>
          rw [plain] at error
          cases error
          exact composed.orderly.located plain
  | @findThen _ type next _ each =>
      simp only [bind, EStateM.bind] at error
      cases asked : (find lookup type : Decode σ Formatter) session with
      | ok formatter middle =>
          rw [asked] at error
          exact each formatter (givesOut_of_find asked) error
      | error missing middle =>
          rw [asked] at error
          cases error
          simp only [find] at asked
          split at asked <;> cases asked
          trivial
  | @namesThen _ registry _ _ each => exact each _ ⟨registry, session.memory, rfl⟩ error
  | note registry type => cases error
  | nested _ inside =>
      simp only [nested] at error
      split at error
      · rename_i full
        simp only [Read.enterNested] at full
        split at full <;> cases full
        cases error
        trivial
      · split at error <;> cases error
        rename_i fails
        exact (inside fails).congr rfl
  | withBudget _ within => exact within _ error

end Decode

/-- An operation fails where it says. -/
theorem Operation.located_perform (operation : Operation) {reader after : Reader}
    {failure : Error} (error : operation.perform reader = .error failure after) :
    failure.Located after := by
  by_cases reads : operation.ActsOnReader
  · cases operation with
    | enterNested =>
        simp only [perform, bind, EStateM.bind, Read.enterNested] at error
        by_cases full : reader.maxDepth ≤ reader.depth
        · rw [if_pos full] at error
          cases error
          trivial
        · rw [if_neg full] at error
          cases error
    | leaveNested => cases error
    | isEnd => cases error
    | _ => exact absurd reads id
  · exact (operation.composed_perform reads).orderly.located (bind_of_error error _)

/-- Wherever an operation on a reader fails, or a value of a type cannot be read, the failure
speaks of the place where it leaves the reader. -/
theorem failure_located {σ : Type} {lookup : Lookup σ} (described : lookup.Described)
    (catalog : Catalog) (type : Schema) (operation : Operation) (reader : Reader) (memory : σ) :
    (∀ failure after, operation.perform reader = .error failure after → failure.Located after) ∧
    ∀ failure after, Decode.value lookup catalog type ⟨reader, memory⟩ = .error failure after →
      failure.Located after.state := by
  constructor
  · intro failure after error
    exact operation.located_perform error
  · intro failure after error
    exact Decode.located_of_composed (Decode.composed_value described catalog type) error

/-- A list whose second item is nil, and one whose second item is cut off: the code that is no
integer is still unread, and so is the one byte that is left of the other item. -/
theorem failure_located_in_list :
    (∃ after, Operation.value.perform (.ofCursor (.ofBytes [0x92, 0x07, 0xcd, 0x01]) 1) =
        .error (.insufficientData 3 2) after ∧ after.remaining = 2) ∧
      ∃ after, Decode.value (.standard .empty) .empty (.sequence .list (.scalar (.int .u8)))
          ⟨.ofCursor (.ofBytes [0x92, 0x07, 0xc0]) 1, ()⟩ =
        .error (.invalidCode 0xc0 (.range .u8)) after ∧
          ∃ following, after.state.cursor.unread = 0xc0 :: following := by
  let type : Schema := .sequence .list (.scalar (.int .u8))
  let described := Lookup.described_standard .empty
  constructor
  · obtain ⟨after, fails⟩ : ∃ after,
        Operation.value.perform (.ofCursor (.ofBytes [0x92, 0x07, 0xcd, 0x01]) 1) =
          .error (.insufficientData 3 2) after := ⟨_, rfl⟩
    obtain ⟨left, _⟩ := (failure_located described .empty type .value _ ()).1 _ _ fails
    exact ⟨after, fails, left.symm⟩
  · obtain ⟨after, fails⟩ : ∃ after, Decode.value (.standard .empty) .empty type
          ⟨.ofCursor (.ofBytes [0x92, 0x07, 0xc0]) 1, ()⟩ =
        .error (.invalidCode 0xc0 (.range .u8)) after := ⟨_, rfl⟩
    obtain ⟨next, _⟩ := (failure_located described .empty type .value _ ()).2 _ _ fails
    exact ⟨after, fails, next⟩

end MsgPack
