import MsgPack.Proofs.Formatter.Depth
import MsgPack.Proofs.Reader.Segments

/-!
# Series of calls on one reader

A reader may be used again and again, whether the calls on it succeed or fail.  Every call but
opening and closing a structure by hand leaves the reader as deep as it was, so a failure on
the way never uses up a level of a later call.
-/

namespace MsgPack

/-- An operation that does not open or close a structure leaves a reader as deep as it was. -/
theorem Operation.keepsDepth (operation : Operation) (enters : operation ≠ .enterNested)
    (leaves : operation ≠ .leaveNested) : Read.KeepsDepth operation.perform := by
  by_cases acts : operation.ActsOnReader
  · cases operation with
    | isEnd => exact Reader.AsDeep.refl
    | enterNested => exact absurd rfl enters
    | leaveNested => exact absurd rfl leaves
    | _ => exact absurd acts id
  · intro reader
    have kept := (operation.composed_perform acts).keepsDepth reader
    cases ends : operation.perform reader with
    | ok answer after =>
        rw [Read.left, bind_of_ok ends] at kept
        rwa [Read.left, ends]
    | error failure after =>
        rw [Read.left, bind_of_error ends] at kept
        rwa [Read.left, ends]

/-- A call on a reader. -/
inductive Call : Type 1 where
  | operation (operation : Operation)
  /-- A value of a type, read with the help of a lookup that remembers something. -/
  | value {σ : Type} (lookup : Lookup σ) (memory : σ) (catalog : Catalog) (type : Schema)
  /-- A structure whose inside is read in any way at all. -/
  | nested {α : Type} (inner : Read α)

namespace Call

/-- The reader that a call leaves behind, whether it succeeds or fails. -/
def after : Call → Reader → Reader
  | operation asked => Read.left asked.perform
  | value lookup memory catalog type =>
      Read.left (Session.withMemory memory (Decode.value lookup catalog type))
  | nested inner => Read.left (Read.nested inner)

/-- Whether a call closes what it opens, as far as this is not up to itself: it is not the one
half of opening and closing a structure, and what it is given does not change the limit of
the reader, nor, as a codec, how deep the reader is. -/
def Closes : Call → Prop
  | operation asked => asked ≠ .enterNested ∧ asked ≠ .leaveNested
  | value lookup _ _ _ => lookup.Steady
  | nested inner => ∀ reader, (Read.left inner reader).maxDepth = reader.maxDepth

/-- A call leaves the reader as deep as it was. -/
theorem asDeep_after {call : Call} (closes : call.Closes) (reader : Reader) :
    reader.AsDeep (call.after reader) := by
  cases call with
  | operation asked => exact asked.keepsDepth closes.1 closes.2 reader
  | value lookup memory catalog type =>
      exact Decode.keepsDepth_value closes catalog type memory reader
  | nested inner => exact Read.KeepsDepth.nestedOf closes reader

/-- The reader after some calls, one after the other. -/
def afterAll (calls : List Call) (reader : Reader) : Reader :=
  calls.foldl (fun current call => call.after current) reader

theorem asDeep_afterAll {calls : List Call} (closes : ∀ call ∈ calls, call.Closes)
    (reader : Reader) : reader.AsDeep (afterAll calls reader) := by
  induction calls generalizing reader with
  | nil => exact .refl reader
  | cons call calls ih =>
      rw [List.forall_mem_cons] at closes
      exact (asDeep_after closes.1 reader).trans (ih closes.2 (call.after reader))

/-- Whatever is called on a reader, and however it ends, the reader is as deep afterwards as it
was.  So is a reader after a structure whose inside is read in any way, also one that fails or
that opens and closes structures unevenly.  After any calls, one after the other, a reader may
go as much deeper as it could before them. -/
theorem depth_restored (calls : List Call) (closes : ∀ call ∈ calls, call.Closes)
    (reader : Reader) :
    (∀ call ∈ calls, ∀ before, (call.after before).depth = before.depth) ∧
      (∀ (α : Type) (inner : Read α) (before : Reader),
        (Read.left (Read.nested inner) before).depth = before.depth) ∧
      (afterAll calls reader).depth = reader.depth ∧
      (afterAll calls reader).budget = reader.budget := by
  refine ⟨?_, fun α inner before => Read.depth_nested inner before, ?_, ?_⟩
  · intro call member before
    exact (asDeep_after (closes call member) before).depth
  · exact (asDeep_afterAll closes reader).depth
  · exact (asDeep_afterAll closes reader).budget

/-- A structure that is left in the middle with another one open, a list that is nested too
deep, and what is left of it: the list after these is as deep as the reader may go. -/
theorem depth_restored_after_failures :
    let uneven : Read Unit := do
      Read.enterNested
      throw (.unknownTypeName "Note")
    let list : Schema := .sequence .list (.sequence .list (.scalar (.int .u8)))
    let calls := [nested uneven, value (.standard .empty) () .empty (.sequence .list list),
      operation .skip, value (.standard .empty) () .empty list]
    let reader := Reader.ofCursor (.ofBytes [0x91, 0x91, 0x91, 0x07, 0x91, 0x91, 0x08]) 2
    (afterAll calls reader).isEnd = true ∧ (afterAll calls reader).budget = 2 := by
  intro uneven list calls reader
  have limit (before : Reader) : (Read.left uneven before).maxDepth = before.maxDepth := by
    simp only [uneven, Read.left, bind, EStateM.bind, Read.enterNested]
    by_cases full : before.maxDepth ≤ before.depth
    · simp only [if_pos full]
    · simp only [if_neg full]
      rfl
  have closes : ∀ call ∈ calls, call.Closes := by
    have steady := (Lookup.described_standard .empty).steady
    simp only [calls, List.forall_mem_cons]
    exact ⟨limit, steady, ⟨Operation.noConfusion, Operation.noConfusion⟩, steady,
      List.forall_mem_nil _⟩
  exact ⟨by decide, (depth_restored calls closes reader).2.2.2⟩

end Call

end MsgPack
