import MsgPack.Writer

/-!
# What writing amounts to

A write that succeeds appends bytes that do not depend on what was written before; a write
that fails does so whatever was written before.
-/

namespace MsgPack

namespace Writer

/-- A writer is the bytes written so far. -/
theorem eq_of_toList {first second : Writer} (same : first.toList = second.toList) :
    first = second := by
  cases first
  cases second
  exact congrArg Writer.mk (Array.toList_inj.1 same)

theorem append_append (writer : Writer) (first second : Bytes) :
    (writer.append first).append second = writer.append (first ++ second) := by
  apply eq_of_toList
  simp only [toList_append, List.append_assoc]

theorem append_nil (writer : Writer) : writer.append [] = writer := by
  apply eq_of_toList
  simp only [toList_append, List.append_nil]

end Writer

namespace Write

/-! ## Appended bytes -/

@[simp]
theorem emit_nil : emit [] = pure () := by
  funext writer
  rw [emit, Writer.append_nil]
  rfl

/-- Bytes appended one after the other are appended together. -/
theorem emit_then (first second : Bytes) :
    (do emit first; emit second) = emit (first ++ second) := by
  funext writer
  simp only [bind, EStateM.bind, emit, Writer.append_append]

/-- A length of at most 32 bits is written. -/
theorem header_of_fits {what : String} {encode : Nat → Bytes} {length : Nat}
    (fits : length < 0x100000000) : header what encode length = emit (encode length) := by
  rw [header, if_pos fits]

/-! ## Failures -/

/-- A write fails whatever was written before. -/
def Fails {α : Type} (write : Write α) : Prop :=
  ∀ writer, ∃ failure after, write writer = .error failure after

theorem fails_header {what : String} {encode : Nat → Bytes} {length : Nat}
    (exceeds : ¬ length < 0x100000000) : Fails (header what encode length) := by
  intro writer
  rw [header, if_neg exceeds]
  exact ⟨_, writer, rfl⟩

namespace Fails

variable {α β : Type}

/-- A sequence fails where its first part does. -/
theorem head {first : Write α} (fails : Fails first) (next : α → Write β) :
    Fails (first >>= next) := by
  intro writer
  obtain ⟨failure, after, error⟩ := fails writer
  refine ⟨failure, after, ?_⟩
  simp only [bind, EStateM.bind, error]

/-- A sequence fails where the part after some bytes does. -/
theorem afterEmit {next : Write β} (bytes : Bytes) (fails : Fails next) :
    Fails (do emit bytes; next) :=
  fun writer => fails (writer.append bytes)

/-- A write that fails does not succeed. -/
theorem not_ok {write : Write α} (fails : Fails write) {writer written : Writer} {result : α} :
    write writer ≠ .ok result written := by
  intro ok
  obtain ⟨failure, after, error⟩ := fails writer
  rw [error] at ok
  cases ok

end Fails

end Write

end MsgPack
