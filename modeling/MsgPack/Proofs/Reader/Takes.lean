import MsgPack.Proofs.Reader.Header
import MsgPack.Proofs.Reader.Composed

/-!
# Reads of known bytes

What a read makes of given bytes, whatever follows them, as long as the reader has some
number of levels left.  Reads of parts compose to the read of the whole, and a structure
needs one level more than what stands in it.
-/

namespace MsgPack.Read

/-- A read takes bytes to a result, and passes over just these bytes, where at least so many
structures may be opened. -/
def Takes {α : Type} (levels : Nat) (read : Read α) (bytes : Bytes) (result : α) : Prop :=
  ∀ (reader : Reader) (rest : Bytes), reader.cursor.unread = bytes ++ rest →
    levels ≤ reader.budget →
      ∃ after, read reader = .ok result after ∧ reader.Passed bytes after

/-- A read takes bytes to a result, and passes over just these bytes, where some others follow
them. -/
def TakesBefore {α : Type} (others : Bytes) (read : Read α) (bytes : Bytes) (result : α) : Prop :=
  ∀ (reader : Reader) (rest : Bytes), reader.cursor.unread = bytes ++ (others ++ rest) →
    ∃ after, read reader = .ok result after ∧ reader.Passed bytes after

namespace Takes

variable {α β : Type} {levels : Nat}

/-! ## From grammars -/

theorem of_accepts {read : Read α} {grammar : Bytes → α → Nat → Prop} {bytes : Bytes}
    {result : α} (accepted : Accepts read grammar) (given : ∀ left, grammar bytes result left) :
    Takes 0 read bytes result :=
  fun _ _ next _ => accepted.complete (given _) next

theorem of_acceptsAfter {read : Read α} {grammar : Bytes → α → Nat → Prop} {code : UInt8}
    {bytes : Bytes} {result : α} (accepted : AcceptsAfter code read grammar)
    (given : ∀ left, grammar bytes result left) : Takes 0 read (code :: bytes) result :=
  fun _ _ next _ => accepted.complete (given _) next

/-! ## Composition -/

theorem mono {more : Nat} {read : Read α} {bytes : Bytes} {result : α}
    (takes : Takes levels read bytes result) (le : levels ≤ more) :
    Takes more read bytes result :=
  fun reader rest next room => takes reader rest next (Nat.le_trans le room)

theorem pure (result : α) : Takes levels (pure result : Read α) [] result :=
  fun reader _ _ _ => ⟨reader, rfl, .refl reader⟩

theorem bind {first : Read α} {next : α → Read β} {start others : Bytes} {found : α}
    {result : β} (head : Takes levels first start found)
    (tail : Takes levels (next found) others result) :
    Takes levels (first >>= next) (start ++ others) result := by
  intro reader rest unread room
  rw [List.append_assoc] at unread
  obtain ⟨middle, ok, passed⟩ := head reader _ unread room
  rw [← passed.budget] at room
  obtain ⟨after, done, through⟩ := tail middle rest (passed.unread_eq unread) room
  exact ⟨after, bind_eq_ok.2 ⟨found, middle, ok, done⟩, passed.trans through⟩

/-- A read that goes on without reading more. -/
theorem andThen {first : Read α} {next : α → Read β} {bytes : Bytes} {found : α} {result : β}
    (head : Takes levels first bytes found) (tail : Takes levels (next found) [] result) :
    Takes levels (first >>= next) bytes result := by
  rw [← List.append_nil bytes]
  exact head.bind tail

/-- A read with a converted result. -/
theorem mapped {read : Read α} {bytes : Bytes} {result : α}
    (takes : Takes levels read bytes result) (convert : α → β) :
    Takes levels (return convert (← read)) bytes (convert result) :=
  takes.andThen (pure (convert result))

/-- A look at the next code finds the first of the bytes. -/
theorem peekThen {next : UInt8 → Read α} {code : UInt8} {bytes : Bytes} {result : α}
    (takes : Takes levels (next code) (code :: bytes) result) :
    Takes levels (peekCode >>= next) (code :: bytes) result := by
  intro reader rest unread room
  rw [bind_of_ok (peekCode_eq unread)]
  exact takes reader rest unread room

/-- A structure needs a level of its own. -/
theorem nested {inner : Read α} {bytes : Bytes} {result : α}
    (takes : Takes levels inner bytes result) :
    Takes (levels + 1) (nested inner) bytes result := by
  intro reader rest unread room
  have below : levels ≤ reader.entered.budget := by
    rw [Reader.budget_entered]
    omega
  obtain ⟨inside, ok, passed⟩ := takes reader.entered rest unread below
  exact nested_of_ok (Nat.lt_of_lt_of_le (Nat.succ_pos levels) room) ok passed

/-- Items one after the other. -/
theorem times {ι : Type} {item : Read α} {encoding : ι → Bytes} {result : ι → α}
    {items : List ι}
    (each : ∀ source ∈ items, Takes levels item (encoding source) (result source)) :
    Takes levels (Loop.times items.length item) (items.flatMap encoding) (items.map result) := by
  induction items with
  | nil => exact pure []
  | cons first items ih =>
      have others := ih fun source member => each source (List.mem_cons_of_mem first member)
      rw [List.length_cons, Loop.times_succ, List.flatMap_cons, List.map_cons]
      exact (each first List.mem_cons_self).bind (others.mapped _)

end Takes

/-! ## Bytes before known ones -/

namespace TakesBefore

variable {α β : Type} {bytes others : Bytes}

/-- A read of bytes, and then of those that follow them. -/
theorem bind {levels : Nat} {first : Read α} {next : α → Read β} {found : α} {result : β}
    (head : TakesBefore others first bytes found)
    (tail : Takes levels (next found) others result) :
    Takes levels (first >>= next) (bytes ++ others) result := by
  intro reader rest unread room
  rw [List.append_assoc] at unread
  obtain ⟨middle, ok, passed⟩ := head reader rest unread
  rw [← passed.budget] at room
  obtain ⟨after, done, through⟩ := tail middle rest (passed.unread_eq unread) room
  exact ⟨after, bind_eq_ok.2 ⟨found, middle, ok, done⟩, passed.trans through⟩

/-- A read that goes on without reading more. -/
theorem andThen {first : Read α} {next : α → Read β} {found : α} {result : β}
    (head : TakesBefore others first bytes found) (tail : Takes 0 (next found) [] result) :
    TakesBefore others (first >>= next) bytes result := by
  intro reader rest unread
  obtain ⟨middle, ok, passed⟩ := head reader rest unread
  obtain ⟨after, done, through⟩ := tail middle _ (passed.unread_eq unread) (Nat.zero_le _)
  have both := passed.trans through
  rw [List.append_nil] at both
  exact ⟨after, bind_eq_ok.2 ⟨found, middle, ok, done⟩, both⟩

/-- A count, where what follows it is long enough for the check of the count. -/
theorem of_count {header : Read Nat} {code : UInt8} {form : LengthForm} {count : Nat}
    {needed : Nat → Nat}
    (accepted : AcceptsAfter code header fun bytes count left =>
      form.Gives code bytes count ∧ needed count ≤ left)
    (gives : form.Gives code bytes count) (enough : needed count ≤ others.length) :
    TakesBefore others header (code :: bytes) count := by
  intro reader rest unread
  have left : needed count ≤ (others ++ rest).length := by
    rw [List.length_append]
    exact Nat.le_add_right_of_le enough
  exact accepted.complete ⟨gives, left⟩ unread

end TakesBefore

end MsgPack.Read
