import MsgPack.Proofs.Reader.Composed

/-!
# Reads and the bytes they accept

A read passes from one reader to another over some bytes.  Which bytes it accepts, and with
what result, is said by a grammar: a relation between bytes, a result, and the number of
bytes that are left afterwards.  The last matters only to reads that check how much is left;
which bytes follow matters to none.

`Accepts` says that a read and a grammar agree in both directions.  A read that follows a
look at the next code is treated apart: it may rely on that code.
-/

namespace MsgPack

/-! ## Passing over bytes -/

/-- A reader has passed over some bytes, and is as deep as it was. -/
structure Reader.Passed (before : Reader) (bytes : Bytes) (after : Reader) : Prop where
  unread : before.cursor.unread = bytes ++ after.cursor.unread
  position : after.position = before.position + bytes.length
  depth : after.depth = before.depth
  maxDepth : after.maxDepth = before.maxDepth

namespace Reader.Passed

variable {before middle after : Reader} {bytes first second : Bytes}

theorem refl (reader : Reader) : reader.Passed [] reader :=
  ⟨rfl, rfl, rfl, rfl⟩

theorem trans (start : before.Passed first middle) (rest : middle.Passed second after) :
    before.Passed (first ++ second) after where
  unread := by rw [start.unread, rest.unread, List.append_assoc]
  position := by rw [rest.position, start.position, List.length_append, Nat.add_assoc]
  depth := rest.depth.trans start.depth
  maxDepth := rest.maxDepth.trans start.maxDepth

/-- What is left after bytes that are known to come first is known. -/
theorem unread_eq {rest : Bytes} (passed : before.Passed bytes after)
    (next : before.cursor.unread = bytes ++ rest) : after.cursor.unread = rest :=
  List.append_cancel_left (passed.unread.symm.trans next)

theorem remaining (passed : before.Passed bytes after) :
    before.remaining = bytes.length + after.remaining := by
  have counted := congrArg List.length passed.unread
  rw [List.length_append, Cursor.length_unread, Cursor.length_unread] at counted
  exact counted

theorem budget (passed : before.Passed bytes after) : after.budget = before.budget := by
  rw [Reader.budget, Reader.budget, passed.depth, passed.maxDepth]

end Reader.Passed

/-- A reader with one more structure open. -/
def Reader.entered (reader : Reader) : Reader :=
  { reader with depth := reader.depth + 1 }

theorem Reader.budget_entered (reader : Reader) : reader.entered.budget = reader.budget - 1 := by
  simp only [entered, budget]
  omega

/-! ## Sequences -/

/-- A sequence succeeds where its parts do, one after the other. -/
theorem bind_eq_ok {ρ α β : Type} {first : EStateM Error ρ α} {next : α → EStateM Error ρ β}
    {state after : ρ} {result : β} : (first >>= next) state = .ok result after ↔
      ∃ found middle, first state = .ok found middle ∧ next found middle = .ok result after := by
  simp only [bind, EStateM.bind]
  cases first state with
  | ok found middle =>
      constructor
      · exact fun rest => ⟨found, middle, rfl, rest⟩
      · rintro ⟨_, _, first, rest⟩
        cases first
        exact rest
  | error failure middle => simp

/-- A computation that succeeds goes on with what comes after it. -/
theorem bind_of_ok {ρ α β : Type} {first : EStateM Error ρ α} {state middle : ρ} {found : α}
    (ok : first state = .ok found middle) (next : α → EStateM Error ρ β) :
    (first >>= next) state = next found middle := by
  simp only [bind, EStateM.bind, ok]

/-- A computation that fails ends a sequence. -/
theorem bind_of_error {ρ α β : Type} {first : EStateM Error ρ α} {state after : ρ}
    {failure : Error} (error : first state = .error failure after)
    (next : α → EStateM Error ρ β) : (first >>= next) state = .error failure after := by
  simp only [bind, EStateM.bind, error]

namespace Read

variable {α β : Type}

/-! ## Nested structures -/

/-- A structure can be opened while there are levels left. -/
theorem nested_of_ok {inner : Read α} {reader inside : Reader} {result : α} {bytes : Bytes}
    (room : 0 < reader.budget) (ok : inner reader.entered = .ok result inside)
    (passed : reader.entered.Passed bytes inside) :
    ∃ after, nested inner reader = .ok result after ∧ reader.Passed bytes after := by
  have opens : ¬ reader.maxDepth ≤ reader.depth := by
    rw [Reader.budget] at room
    omega
  refine ⟨{ inside with depth := reader.depth }, ?_, passed.unread, passed.position, rfl,
    passed.maxDepth⟩
  rw [Reader.entered] at ok
  simp only [nested, enterNested, if_neg opens, ok]

/-- A failure inside a structure is a failure of the structure. -/
theorem nested_of_error {inner : Read α} {reader inside : Reader} {failure : Error}
    (room : 0 < reader.budget) (error : inner reader.entered = .error failure inside) :
    ∃ after, nested inner reader = .error failure after := by
  have opens : ¬ reader.maxDepth ≤ reader.depth := by
    rw [Reader.budget] at room
    omega
  rw [Reader.entered] at error
  simp only [nested, enterNested, if_neg opens, error]
  exact ⟨_, rfl⟩

/-- With no level left, no structure can be opened. -/
theorem nested_of_budget_zero (inner : Read α) {reader : Reader} (full : reader.budget = 0) :
    nested inner reader = .error (.depthExceeded reader.maxDepth) reader := by
  have closed : reader.maxDepth ≤ reader.depth := by
    rw [Reader.budget] at full
    omega
  simp only [nested, enterNested, if_pos closed]

/-- A structure that was read was opened, and its inside was read. -/
theorem of_nested_eq_ok {inner : Read α} {reader after : Reader} {result : α}
    (ok : nested inner reader = .ok result after) :
    0 < reader.budget ∧ ∃ inside, inner reader.entered = .ok result inside ∧
      ∀ bytes, reader.entered.Passed bytes inside → reader.Passed bytes after := by
  rcases Nat.eq_zero_or_pos reader.budget with full | room
  · rw [nested_of_budget_zero inner full] at ok
    cases ok
  · refine ⟨room, ?_⟩
    cases inner : inner reader.entered with
    | error failure inside =>
        obtain ⟨_, error⟩ := nested_of_error room inner
        rw [error] at ok
        cases ok
    | ok found inside =>
        have opens : ¬ reader.maxDepth ≤ reader.depth := by
          rw [Reader.budget] at room
          omega
        rw [Reader.entered] at inner
        simp only [nested, enterNested, if_neg opens, inner] at ok
        cases ok
        exact ⟨inside, rfl, fun bytes passed =>
          ⟨passed.unread, passed.position, rfl, passed.maxDepth⟩⟩

/-! ## Grammars -/

/-- A read accepts exactly the bytes of a grammar, with the results that this gives them. -/
structure Accepts (read : Read α) (grammar : Bytes → α → Nat → Prop) : Prop where
  complete : ∀ {bytes rest : Bytes} {result : α} {reader : Reader},
    grammar bytes result rest.length → reader.cursor.unread = bytes ++ rest →
      ∃ after, read reader = .ok result after ∧ reader.Passed bytes after
  sound : ∀ {reader after : Reader} {result : α}, read reader = .ok result after →
    ∃ bytes, grammar bytes result after.remaining ∧ reader.Passed bytes after

/-- A read that relies on the next code accepts exactly that code and the bytes of a
grammar. -/
structure AcceptsAfter (code : UInt8) (read : Read α) (grammar : Bytes → α → Nat → Prop) :
    Prop where
  complete : ∀ {bytes rest : Bytes} {result : α} {reader : Reader},
    grammar bytes result rest.length → reader.cursor.unread = code :: bytes ++ rest →
      ∃ after, read reader = .ok result after ∧ reader.Passed (code :: bytes) after
  sound : ∀ {reader after : Reader} {following : Bytes} {result : α},
    reader.cursor.unread = code :: following → read reader = .ok result after →
      ∃ bytes, grammar bytes result after.remaining ∧ reader.Passed (code :: bytes) after

theorem accepts_pure (result : α) :
    Accepts (pure result : Read α) fun bytes found _ => bytes = [] ∧ found = result where
  complete := by
    rintro bytes rest found reader ⟨rfl, rfl⟩ _
    exact ⟨reader, rfl, .refl reader⟩
  sound := by
    intro reader after found ok
    cases ok
    exact ⟨[], ⟨rfl, rfl⟩, .refl reader⟩

/-- A sequence accepts what its parts accept one after the other. -/
theorem Accepts.bind {first : Read α} {next : α → Read β} {head : Bytes → α → Nat → Prop}
    {tail : α → Bytes → β → Nat → Prop} (accepted : Accepts first head)
    (rest : ∀ found, Accepts (next found) (tail found)) :
    Accepts (first >>= next) fun bytes result left => ∃ found start others,
      bytes = start ++ others ∧ head start found (others.length + left) ∧
        tail found others result left where
  complete := by
    rintro _ following result reader ⟨found, start, others, rfl, inHead, inTail⟩ next
    rw [List.append_assoc] at next
    rw [← List.length_append] at inHead
    obtain ⟨middle, ok, passed⟩ := accepted.complete inHead next
    obtain ⟨after, done, passedRest⟩ := (rest found).complete inTail (passed.unread_eq next)
    exact ⟨after, bind_eq_ok.2 ⟨found, middle, ok, done⟩, passed.trans passedRest⟩
  sound := by
    intro reader after result ok
    rcases bind_eq_ok.1 ok with ⟨found, middle, first, second⟩
    obtain ⟨start, inHead, passed⟩ := accepted.sound first
    obtain ⟨others, inTail, passedRest⟩ := (rest found).sound second
    rw [passedRest.remaining] at inHead
    exact ⟨start ++ others, ⟨found, start, others, rfl, inHead, inTail⟩, passed.trans passedRest⟩

/-- What was read may be checked, and converted, before it is accepted. -/
theorem Accepts.checked {read : Read α} {grammar : Bytes → α → Nat → Prop}
    (accepted : Accepts read grammar) (check : α → Except Error β) :
    Accepts (read >>= fun found => ofExcept (check found)) fun bytes result left =>
      ∃ found, grammar bytes found left ∧ check found = .ok result where
  complete := by
    rintro bytes rest result reader ⟨found, given, holds⟩ next
    rcases accepted.complete given next with ⟨after, ok, passed⟩
    refine ⟨after, bind_eq_ok.2 ⟨found, after, ok, ?_⟩, passed⟩
    rw [holds]
    rfl
  sound := by
    intro reader after result ok
    rcases bind_eq_ok.1 ok with ⟨found, middle, first, second⟩
    rcases accepted.sound first with ⟨bytes, given, passed⟩
    cases holds : check found with
    | error failure =>
        rw [holds] at second
        cases second
    | ok other =>
        rw [holds] at second
        cases second
        exact ⟨bytes, ⟨found, given, holds⟩, passed⟩

/-- A read accepts the bytes of any grammar that says the same. -/
theorem Accepts.congr {read : Read α} {grammar other : Bytes → α → Nat → Prop}
    (accepted : Accepts read grammar)
    (same : ∀ bytes result left, other bytes result left ↔ grammar bytes result left) :
    Accepts read other where
  complete := fun given next => accepted.complete ((same _ _ _).1 given) next
  sound := fun ok => by
    obtain ⟨bytes, given, passed⟩ := accepted.sound ok
    exact ⟨bytes, (same _ _ _).2 given, passed⟩

end Read

end MsgPack
