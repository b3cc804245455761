import MsgPack.Proofs.Formatter.Answers
import MsgPack.Proofs.Reader.Takes

/-!
# Typed reads of known bytes

What a computation that reads with the help of a lookup makes of given bytes, whatever follows
them.  Nothing is known of the lookup but what it answers; its memory may be one of those that
count as *good*, and is then good afterwards.
-/

namespace MsgPack

/-- Whether a lookup gives a formatter for a type whenever its memory is good, and keeps it
good. -/
def Lookup.Gives {σ : Type} (lookup : Lookup σ) (good : σ → Prop) (type : Schema)
    (formatter : Formatter) : Prop :=
  ∀ memory, good memory →
    (lookup.find type memory).1 = some formatter ∧ good (lookup.find type memory).2

namespace Decode

open Session

/-- A computation takes bytes to a result, and passes over just these bytes, where at least so
many structures may be opened and the memory of the lookup is good. -/
def Takes {σ α : Type} (good : σ → Prop) (levels : Nat) (read : Decode σ α) (bytes : Bytes)
    (result : α) : Prop :=
  ∀ (reader : Reader) (rest : Bytes) (memory : σ), good memory →
    reader.cursor.unread = bytes ++ rest → levels ≤ reader.budget →
      ∃ after kept, read ⟨reader, memory⟩ = .ok result ⟨after, kept⟩ ∧
        reader.Passed bytes after ∧ good kept

namespace Takes

variable {σ α β : Type} {good : σ → Prop} {levels : Nat}

theorem mono {more : Nat} {read : Decode σ α} {bytes : Bytes} {result : α}
    (takes : Takes good levels read bytes result) (le : levels ≤ more) :
    Takes good more read bytes result :=
  fun reader rest memory isGood unread room =>
    takes reader rest memory isGood unread (Nat.le_trans le room)

theorem pure (result : α) : Takes good levels (pure result : Decode σ α) [] result :=
  fun reader _ memory isGood _ _ => ⟨reader, memory, rfl, .refl reader, isGood⟩

/-- A read without the lookup leaves its memory alone. -/
theorem lift {read : Read α} {bytes : Bytes} {result : α}
    (takes : Read.Takes levels read bytes result) :
    Takes good levels (lift read : Decode σ α) bytes result := by
  intro reader rest memory isGood unread room
  obtain ⟨after, ok, passed⟩ := takes reader rest unread room
  exact ⟨after, memory, lift_eq_ok.2 ⟨ok, rfl⟩, passed, isGood⟩

theorem bind {first : Decode σ α} {next : α → Decode σ β} {start others : Bytes} {found : α}
    {result : β} (head : Takes good levels first start found)
    (tail : Takes good levels (next found) others result) :
    Takes good levels (first >>= next) (start ++ others) result := by
  intro reader rest memory isGood unread room
  rw [List.append_assoc] at unread
  obtain ⟨middle, between, ok, passed, isGood⟩ := head reader _ memory isGood unread room
  rw [← passed.budget] at room
  obtain ⟨after, kept, done, through, isGood⟩ :=
    tail middle rest between isGood (passed.unread_eq unread) room
  exact ⟨after, kept, bind_eq_ok.2 ⟨found, _, ok, done⟩, passed.trans through, isGood⟩

/-- A read without the lookup that goes by what follows its bytes. -/
theorem liftThen {first : Read α} {next : α → Decode σ β} {start others : Bytes} {found : α}
    {result : β} (head : Read.TakesBefore others first start found)
    (tail : Takes good levels (next found) others result) :
    Takes good levels (Session.lift first >>= next) (start ++ others) result := by
  intro reader rest memory isGood unread room
  rw [List.append_assoc] at unread
  obtain ⟨middle, ok, passed⟩ := head reader rest unread
  rw [← passed.budget] at room
  obtain ⟨after, kept, done, through, isGood⟩ :=
    tail middle rest memory isGood (passed.unread_eq unread) room
  exact ⟨after, kept, bind_eq_ok.2 ⟨found, _, lift_eq_ok.2 ⟨ok, rfl⟩, done⟩, passed.trans through,
    isGood⟩

/-- A read that goes on without reading more. -/
theorem andThen {first : Decode σ α} {next : α → Decode σ β} {bytes : Bytes} {found : α}
    {result : β} (head : Takes good levels first bytes found)
    (tail : Takes good levels (next found) [] result) :
    Takes good levels (first >>= next) bytes result := by
  rw [← List.append_nil bytes]
  exact head.bind tail

/-- A read with a converted result. -/
theorem mapped {read : Decode σ α} {bytes : Bytes} {result : α}
    (takes : Takes good levels read bytes result) (convert : α → β) :
    Takes good levels (return convert (← read)) bytes (convert result) :=
  takes.andThen (pure (convert result))

/-- A formatter that the lookup gives reads the value. -/
theorem findThen {lookup : Lookup σ} {type : Schema} {formatter : Formatter}
    {next : Formatter → Decode σ α} {bytes : Bytes} {result : α}
    (gives : lookup.Gives good type formatter)
    (takes : Takes good levels (next formatter) bytes result) :
    Takes good levels (find lookup type >>= next) bytes result := by
  intro reader rest memory isGood unread room
  obtain ⟨found, kept⟩ := gives memory isGood
  obtain ⟨after, last, ok, passed, isGood⟩ := takes reader rest _ kept unread room
  exact ⟨after, last, bind_eq_ok.2 ⟨formatter, _, find_eq_ok.2 ⟨found, rfl⟩, ok⟩, passed, isGood⟩

/-- A structure needs a level of its own. -/
theorem nested {inner : Decode σ α} {bytes : Bytes} {result : α}
    (takes : Takes good levels inner bytes result) :
    Takes good (levels + 1) (nested inner) bytes result := by
  intro reader rest memory isGood unread room
  have below : levels ≤ reader.entered.budget := by
    rw [Reader.budget_entered]
    omega
  obtain ⟨inside, kept, ok, passed, isGood⟩ :=
    takes reader.entered rest memory isGood unread below
  have opens : 0 < reader.budget := Nat.lt_of_lt_of_le (Nat.succ_pos levels) room
  exact ⟨_, kept, nested_eq_ok.2 ⟨opens, inside, kept, ok, rfl⟩,
    ⟨passed.unread, passed.position, rfl, passed.maxDepth⟩, isGood⟩

/-- Items one after the other. -/
theorem times {ι : Type} {item : Decode σ α} {encoding : ι → Bytes} {result : ι → α}
    {items : List ι}
    (each : ∀ source ∈ items, Takes good levels item (encoding source) (result source)) :
    Takes good levels (Loop.times items.length item) (items.flatMap encoding)
      (items.map result) := by
  induction items with
  | nil => exact pure []
  | cons first items ih =>
      have others := ih fun source member => each source (List.mem_cons_of_mem first member)
      rw [List.length_cons, Loop.times_succ, List.flatMap_cons, List.map_cons]
      exact (each first List.mem_cons_self).bind (others.mapped _)

end Takes

/-- Without a memory, typed reads take bytes as other reads do. -/
theorem takes_withMemory {α : Type} {levels : Nat} {read : Decode Unit α} {bytes : Bytes}
    {result : α} :
    Read.Takes levels (withMemory () read) bytes result ↔
      Takes (fun _ => True) levels read bytes result := by
  constructor
  · intro takes reader rest memory _ unread room
    obtain ⟨after, ok, passed⟩ := takes reader rest unread room
    simp only [withMemory] at ok
    split at ok <;> cases ok
    rename_i result after done
    exact ⟨after.state, after.memory, done, passed, trivial⟩
  · intro takes reader rest unread room
    obtain ⟨after, kept, ok, passed, _⟩ := takes reader rest () trivial unread room
    refine ⟨after, ?_, passed⟩
    simp only [withMemory, ok]

end Decode

end MsgPack
