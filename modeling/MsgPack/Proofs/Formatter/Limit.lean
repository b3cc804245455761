import MsgPack.Proofs.Formatter.Recursion

/-!
# The limit on nesting

How deep a reader may go does not change what is read, but only whether it is read.  At every
place of a source a computation *needs* some number of levels.  With as many levels left it
ends in one way, whatever the limit is; with fewer it runs into the limit.  Whatever a
computation needs it needs because of structures that are opened inside each other, and each of
these has a header of at least one byte.  So no more levels are needed than there are bytes.

Sequences need as many levels as the part of them that needs most, and a structure needs one
more than its inside.  Reading and skipping are followed by induction on the number of bytes
that are left, along the equations that they satisfy without budgets.
-/

namespace MsgPack

namespace Decode

open Session

variable {σ α β : Type} {lookup : Lookup σ} {catalog : Catalog}

/-! ## Levels that are needed -/

/-- At a place of a source, and with what the lookup remembers, a computation needs so many
levels. -/
structure Needs (read : Decode σ α) (cursor : Cursor) (memory : σ) (levels : Nat) : Prop where
  /-- Where as many may be opened, it ends in one way, which has nothing to do with nesting, and
  does not go back. -/
  enough : ∃ (outcome : Except Error α) (last : Cursor) (kept : σ),
    InDepth outcome ∧ last.remaining ≤ cursor.remaining ∧
      ∀ depth maxDepth, levels ≤ maxDepth - depth →
        read ⟨⟨cursor, depth, maxDepth⟩, memory⟩ = ended outcome ⟨⟨last, depth, maxDepth⟩, kept⟩
  /-- Where fewer may be opened, it runs into the limit. -/
  short : ∀ depth maxDepth, maxDepth - depth < levels →
    ∃ after, read ⟨⟨cursor, depth, maxDepth⟩, memory⟩ = .error (.depthExceeded maxDepth) after

/-- A computation needs no more than so many levels. -/
def NeedsAtMost (read : Decode σ α) (cursor : Cursor) (memory : σ) (bound : Nat) : Prop :=
  ∃ levels, levels ≤ bound ∧ Needs read cursor memory levels

namespace NeedsAtMost

variable {cursor : Cursor} {memory : σ} {bound : Nat}

theorem mono {read : Decode σ α} {more : Nat} (needs : NeedsAtMost read cursor memory bound)
    (le : bound ≤ more) : NeedsAtMost read cursor memory more := by
  obtain ⟨levels, few, needs⟩ := needs
  exact ⟨levels, Nat.le_trans few le, needs⟩

/-- A computation that ends in one way whatever the limit is needs nothing. -/
theorem none {read : Decode σ α} (outcome : Except Error α) (last : Cursor) (kept : σ)
    (shallow : InDepth outcome) (onward : last.remaining ≤ cursor.remaining)
    (ends : ∀ depth maxDepth,
      read ⟨⟨cursor, depth, maxDepth⟩, memory⟩ = ended outcome ⟨⟨last, depth, maxDepth⟩, kept⟩) :
    NeedsAtMost read cursor memory bound :=
  ⟨0, Nat.zero_le _, ⟨outcome, last, kept, shallow, onward, fun depth maxDepth _ =>
    ends depth maxDepth⟩, fun _ _ below => absurd below (Nat.not_lt_zero _)⟩

/-- A sequence needs as many levels as the part of it that needs more.  Its second part may rely
on what the first can give. -/
theorem bindOf {first : Decode σ α} {next : α → Decode σ β}
    (head : NeedsAtMost first cursor memory bound)
    (tail : ∀ found last kept, last.remaining ≤ cursor.remaining →
      (∃ reader after, reader.cursor = cursor ∧ after.cursor = last ∧
        first ⟨reader, memory⟩ = .ok found ⟨after, kept⟩) →
      NeedsAtMost (next found) last kept bound) :
    NeedsAtMost (first >>= next) cursor memory bound := by
  obtain ⟨levels, few, ⟨outcome, last, kept, shallow, onward, ends⟩, short⟩ := head
  have headShort {depth maxDepth : Nat} (below : maxDepth - depth < levels) :
      ∃ after, (first >>= next) ⟨⟨cursor, depth, maxDepth⟩, memory⟩ =
        .error (.depthExceeded maxDepth) after := by
    obtain ⟨after, error⟩ := short depth maxDepth below
    exact ⟨after, bind_of_error error next⟩
  cases outcome with
  | error failure =>
      refine ⟨levels, few, ⟨.error failure, last, kept, ?_, onward, fun depth maxDepth room =>
        bind_of_error (ends depth maxDepth room) next⟩, fun _ _ => headShort⟩
      rintro limit ⟨⟩
      exact shallow limit rfl
  | ok found =>
      obtain ⟨more, few', ⟨outcome, end', kept', shallow, onward', ends'⟩, short'⟩ :=
        tail found last kept onward ⟨_, _, rfl, rfl, ends 0 levels (Nat.le_refl _)⟩
      refine ⟨max levels more, Nat.max_le.2 ⟨few, few'⟩, ⟨outcome, end', kept', shallow,
        Nat.le_trans onward' onward, ?_⟩, ?_⟩
      · intro depth maxDepth room
        rw [bind_of_ok (ends depth maxDepth (Nat.le_trans (Nat.le_max_left _ _) room))]
        exact ends' depth maxDepth (Nat.le_trans (Nat.le_max_right _ _) room)
      · intro depth maxDepth below
        by_cases headed : maxDepth - depth < levels
        · exact headShort headed
        · rw [bind_of_ok (ends depth maxDepth (Nat.le_of_not_lt headed))]
          apply short' depth maxDepth
          omega

/-- A structure needs one level more than its inside. -/
theorem nested {inner : Decode σ α} (inside : NeedsAtMost inner cursor memory bound) :
    NeedsAtMost (nested inner) cursor memory (bound + 1) := by
  obtain ⟨levels, few, ⟨outcome, last, kept, shallow, onward, ends⟩, short⟩ := inside
  refine ⟨levels + 1, Nat.succ_le_succ few, ⟨outcome, last, kept, shallow, onward, ?_⟩, ?_⟩
  · intro depth maxDepth room
    have opens : ¬ maxDepth ≤ depth := by omega
    simp only [Decode.nested, Read.enterNested, if_neg opens]
    rw [ends (depth + 1) maxDepth (by omega)]
    cases outcome <;> rfl
  · intro depth maxDepth below
    simp only [Decode.nested, Read.enterNested]
    by_cases full : maxDepth ≤ depth
    · exact ⟨_, by rw [if_pos full]⟩
    · obtain ⟨after, error⟩ := short (depth + 1) maxDepth (by omega)
      rw [if_neg full]
      dsimp only
      rw [error]
      exact ⟨_, rfl⟩

end NeedsAtMost

/-! ## Levels and bytes -/

/-- Where fewer than so many bytes are left, a computation needs no more levels than there are
bytes, and some more. -/
def Limited (bytes slack : Nat) (read : Decode σ α) : Prop :=
  ∀ cursor memory, cursor.remaining < bytes →
    NeedsAtMost read cursor memory (cursor.remaining + slack)

namespace Limited

variable {bytes slack : Nat}

theorem mono {read : Decode σ α} {fewer : Nat} (limited : Limited bytes slack read)
    (le : fewer ≤ bytes) : Limited fewer slack read :=
  fun cursor memory room => limited cursor memory (Nat.lt_of_lt_of_le room le)

theorem relax {read : Decode σ α} (limited : Limited bytes 0 read) : Limited bytes slack read :=
  fun cursor memory room => (limited cursor memory room).mono (Nat.le_add_right _ slack)

/-- A computation that leaves the reader alone. -/
theorem still {read : Decode σ α} (alone : ∀ memory, ∃ (outcome : Except Error α) (kept : σ),
    InDepth outcome ∧ ∀ reader, read ⟨reader, memory⟩ = ended outcome ⟨reader, kept⟩) :
    Limited bytes slack read := by
  intro cursor memory _
  obtain ⟨outcome, kept, shallow, ends⟩ := alone memory
  exact .none outcome cursor kept shallow (Nat.le_refl _) fun _ _ => ends _

theorem pure (result : α) : Limited bytes slack (pure result : Decode σ α) :=
  still fun memory => ⟨.ok result, memory, .ok result, fun _ => rfl⟩

theorem throw {failure : Error} (placeless : failure.Placeless) :
    Limited bytes slack (throw failure : Decode σ α) :=
  still fun memory => ⟨.error failure, memory, .error placeless, fun _ => rfl⟩

theorem find (type : Schema) : Limited bytes slack (find lookup type : Decode σ Formatter) := by
  apply still
  intro memory
  simp only [Session.find]
  have unknown : (Error.formatterNotFound type.typeName lookup.chain).Placeless := trivial
  rcases lookup.find type memory with ⟨found, kept⟩
  cases found with
  | none => exact ⟨.error _, kept, .error unknown, fun _ => rfl⟩
  | some formatter => exact ⟨.ok formatter, kept, .ok formatter, fun _ => rfl⟩

theorem names (registry : Option Nat) :
    Limited bytes slack (names lookup registry : Decode σ TypeRegistry) :=
  still fun memory => ⟨.ok _, memory, .ok _, fun _ => rfl⟩

theorem bindOf {first : Decode σ α} {next : α → Decode σ β} (head : Limited bytes slack first)
    (tail : ∀ found, (∃ session after, first session = .ok found after) →
      Limited bytes slack (next found)) : Limited bytes slack (first >>= next) := by
  intro cursor memory room
  apply (head cursor memory room).bindOf
  rintro found last kept onward ⟨reader, after, _, _, ok⟩
  exact (tail found ⟨_, _, ok⟩ last kept (Nat.lt_of_le_of_lt onward room)).mono
    (Nat.add_le_add_right onward slack)

theorem flat {read : Read α} (flat : Read.Flat read) :
    Limited bytes slack (lift read : Decode σ α) := by
  intro cursor memory _
  obtain ⟨outcome, last, shallow, onward, ends⟩ := flat cursor
  refine .none outcome last memory shallow onward fun depth maxDepth => ?_
  simp only [lift, ends depth maxDepth]
  cases outcome <;> rfl

/-- The byte of a header pays for the level of the structure that it announces. -/
theorem headThen {header : Read α} {next : α → Decode σ β} (flat : Read.Flat header)
    (advances : Read.Advances header) (tail : ∀ found, Limited bytes 1 (next found)) :
    Limited (bytes + 1) slack (lift header >>= next) := by
  intro cursor memory room
  apply (Limited.flat flat cursor memory room).bindOf
  rintro found last kept _ ⟨reader, after, rfl, rfl, ok⟩
  have taken : after.cursor.remaining < reader.cursor.remaining := advances (lift_eq_ok.1 ok).1
  exact (tail found after.cursor kept (by omega)).mono (by omega)

theorem bind {first : Decode σ α} {next : α → Decode σ β} (head : Limited bytes slack first)
    (tail : ∀ found, Limited bytes slack (next found)) : Limited bytes slack (first >>= next) :=
  head.bindOf fun found _ => tail found

theorem times {item : Decode σ α} (limited : Limited bytes slack item) (count : Nat) :
    Limited bytes slack (Loop.times count item) := by
  induction count with
  | zero => exact .pure []
  | succ count ih =>
      rw [Loop.times_succ]
      exact limited.bind fun next => ih.bind fun rest => .pure (next :: rest)

theorem discard {item : Decode σ Unit} (limited : Limited bytes slack item) (count : Nat) :
    Limited bytes slack (Loop.discard item count) := by
  induction count with
  | zero => exact .pure ()
  | succ count ih => exact limited.bind fun _ => ih

theorem nested {inner : Decode σ α} (inside : Limited bytes 0 inner) :
    Limited bytes 1 (nested inner) :=
  fun cursor memory room => (inside cursor memory room).nested

end Limited

/-! ## Values of any shape -/

open Read (advances_arrayHeader advances_mapHeader advances_token composed_arrayHeader
  composed_mapHeader composed_token)

theorem limited_skip (bytes : Nat) : Limited bytes 0 (lift Read.skip : Decode σ Unit) := by
  induction bytes with
  | zero => exact fun _ _ none => absurd none (Nat.not_lt_zero _)
  | succ bytes ih =>
      rw [Read.skip_eq, Read.skipStep, lift_bind]
      apply Limited.headThen (composed_token.flat rfl) advances_token
      intro announced
      cases announced with
      | none => exact .pure ()
      | some count =>
          simp only [lift_nested, lift_discard]
          exact (ih.discard count).nested

/-- A look at the next code needs nothing, and a code that is refused has nothing to do with
nesting. -/
theorem Limited.peekThen {bytes slack : Nat} {next : UInt8 → Read α}
    (each : ∀ code, Read.Refuses code (next code) ∨
      Limited bytes slack (Session.lift (next code) : Decode σ α)) :
    Limited bytes slack (Session.lift (Read.peekCode >>= next) : Decode σ α) := by
  have look : Read.Composed false false Read.peekCode := .peekCode
  rw [lift_bind]
  apply (Limited.flat (look.flat rfl)).bind
  intro code
  rcases each code with ⟨expected, refuses⟩ | limited
  · rw [refuses]
    exact .still fun memory => ⟨.error _, memory, .refused code expected, fun _ => rfl⟩
  · exact limited

theorem limited_read (bytes : Nat) : Limited bytes 0 (lift Value.read : Decode σ Value) := by
  induction bytes with
  | zero => exact fun _ _ none => absurd none (Nat.not_lt_zero _)
  | succ bytes ih =>
      rw [Value.read_eq]
      obtain ⟨next, same, each⟩ := Value.readStep_cases Value.read
      rw [same]
      apply Limited.peekThen
      intro code
      rcases each code with flat | refuses | array | map
      · exact .inr (.flat (flat.flat rfl))
      · exact .inl refuses
      · have header : Read.Composed false false Read.arrayHeader := composed_arrayHeader
        rw [array, lift_bind]
        refine .inr (.headThen (header.flat rfl) advances_arrayHeader fun count => ?_)
        simp only [lift_bind, lift_nested, lift_times, lift_pure]
        exact (ih.times count).nested.bind fun _ => .pure _
      · have header : Read.Composed false false Read.mapHeader := composed_mapHeader
        rw [map, lift_bind]
        refine .inr (.headThen (header.flat rfl) advances_mapHeader fun count => ?_)
        simp only [lift_bind, lift_nested, lift_times, lift_pure]
        have entry := ih.bind fun key => ih.bind fun value => .pure (key, value)
        exact (entry.times count).nested.bind fun _ => .pure _

/-! ## Values of any type -/

/-- How many bytes may be left where a read stands, if fewer than so many may be left in an open
structure. -/
def Place.room (bytes : Nat) : Place → Nat
  | outside => bytes + 1
  | headed | inside => bytes

/-- How many levels more than bytes may be needed where a read stands. -/
def Place.slack : Place → Nat
  | headed => 1
  | outside | inside => 0

/-- If what lies one level deeper needs no more levels than bytes, then neither does a formatter
that leaves it to others, which also takes a byte before. -/
theorem Delegates.limited (shallow : lookup.Shallow) {bytes : Nat}
    {inner : Formatter → Schema → Decode σ Datum}
    (deeper : ∀ formatter type, lookup.GivesOut formatter →
      Limited bytes 0 (inner formatter type))
    {place : Place} {read : (Formatter → Schema → Decode σ Datum) → Decode σ α}
    (delegates : Delegates lookup place read) :
    Limited (place.room bytes) place.slack (read inner) := by
  induction delegates with
  | pure result => exact .pure result
  | throw placeless => exact .throw placeless
  | bind _ _ head tail => exact head.bind tail
  | lift composed => exact .flat (composed.flat rfl)
  | skip => exact (limited_skip _).relax
  | value => exact (limited_read _).relax
  | supplied supplies => exact .flat ((shallow.composed _ supplies).flat rfl)
  | findThen _ each =>
      apply (Limited.find _).bindOf
      rintro formatter ⟨session, after, ok⟩
      exact each formatter (givesOut_of_find ok)
  | namesThen _ each =>
      apply (Limited.names _).bindOf
      rintro known ⟨session, after, ok⟩
      exact each known (keeps_of_names ok)
  | note registry type => exact .still fun memory => ⟨.ok (), _, .ok (), fun _ => rfl⟩
  | inner given type => exact deeper _ type given
  | @headThen place _ _ _ _ composed advances _ tail =>
      have flat := composed.flat rfl
      cases place with
      | outside => exact .headThen flat advances tail
      | headed | inside => exact (Limited.headThen flat advances tail).mono (Nat.le_succ bytes)
  | nested _ within => exact within.nested
  | request requests => exact absurd requests (shallow.lone _)

theorem limited_datum (shallow : lookup.Shallow) (bytes : Nat) {formatter : Formatter}
    (given : lookup.GivesOut formatter) (type : Schema) :
    Limited bytes 0 (datum lookup catalog formatter type) := by
  induction bytes generalizing formatter type with
  | zero => exact fun _ _ none => absurd none (Nat.not_lt_zero _)
  | succ bytes ih =>
      have delegates : Delegates lookup .outside (layer lookup catalog formatter type) :=
        delegates_layer given type
      rw [datum_eq shallow.steady delegates]
      exact delegates.limited shallow fun _ type given => ih given type

/-- Reading a value of any type needs no more levels than there are bytes. -/
theorem limited_value (shallow : lookup.Shallow) (bytes : Nat) (catalog : Catalog)
    (type : Schema) : Limited bytes 0 (value lookup catalog type) := by
  apply (Limited.find type).bindOf
  rintro formatter ⟨session, after, ok⟩
  exact limited_datum shallow bytes (givesOut_of_find ok) type

end Decode

/-! ## The limit as a cut-off -/

/-- Whether a limit does nothing to attempts but cut them off.  There is a threshold, no higher
than some bound.  With this limit or a higher one all attempts end alike, and not because of
nesting; with a lower one they run into the limit. -/
def CutsOff {α π : Type} (bound : Nat) (attempt : Nat → Except Error α × π) : Prop :=
  ∃ threshold, threshold ≤ bound ∧
    (∃ outcome place, InDepth outcome ∧
      ∀ limit, threshold ≤ limit → attempt limit = (outcome, place)) ∧
    ∀ limit, limit < threshold → (attempt limit).1 = .error (.depthExceeded limit)

/-- How a read from the start of a source ends with a limit, and where. -/
def Read.attempt {α : Type} (read : Read α) (cursor : Cursor) (limit : Nat) :
    Except Error α × Cursor :=
  match read (.ofCursor cursor limit) with
  | .ok result after => (.ok result, after.cursor)
  | .error failure after => (.error failure, after.cursor)

/-- How reading a value of a type from the start of a source ends with a limit, where, and what
the lookup remembers then. -/
def Decode.attempt {σ : Type} (lookup : Lookup σ) (catalog : Catalog) (type : Schema)
    (cursor : Cursor) (memory : σ) (limit : Nat) : Except Error Datum × Cursor × σ :=
  let (outcome, after) := run lookup catalog type (.ofCursor cursor limit) memory
  (outcome, after.state.cursor, after.memory)

/-- A computation that needs so many levels at most is cut off below as many. -/
theorem Decode.NeedsAtMost.cutsOff {σ α π : Type} {read : Decode σ α} {cursor : Cursor}
    {memory : σ} {bound : Nat} (needs : NeedsAtMost read cursor memory bound)
    (place : Session Reader σ → π) (unlimited : ∀ last kept depth maxDepth more,
      place ⟨⟨last, depth, maxDepth⟩, kept⟩ = place ⟨⟨last, depth, more⟩, kept⟩) :
    CutsOff bound fun limit =>
      let (outcome, after) := Session.run read (.ofCursor cursor limit) memory
      (outcome, place after) := by
  obtain ⟨levels, few, ⟨outcome, last, kept, shallow, _, ends⟩, short⟩ := needs
  refine ⟨levels, few, ⟨outcome, place ⟨⟨last, 0, levels⟩, kept⟩, shallow, fun limit room => ?_⟩,
    fun limit below => ?_⟩
  · simp only [Session.run, Reader.ofCursor, ends 0 limit room, unlimited last kept 0 levels limit]
    cases outcome <;> rfl
  · obtain ⟨after, error⟩ := short 0 limit below
    simp only [Session.run, Reader.ofCursor, error]

theorem Read.cutsOff {α : Type} {read : Read α} {cursor : Cursor} {bound : Nat}
    (needs : Decode.NeedsAtMost (Session.lift read) cursor () bound) :
    CutsOff bound (read.attempt cursor) := by
  have same (limit : Nat) : read.attempt cursor limit =
      let (outcome, after) :=
        Session.run (Session.lift read) (Reader.ofCursor cursor limit) ()
      (outcome, after.state.cursor) := by
    simp only [attempt, Session.run, Session.lift]
    cases read (.ofCursor cursor limit) <;> rfl
  rw [funext same]
  exact needs.cutsOff (fun after => after.state.cursor) fun _ _ _ _ _ => rfl

/-- The limit on nesting is a pure cut-off, for values of every type, for values of any shape and
for skipping: up to some threshold an attempt runs into the limit, and from there on it ends as
it does without a limit, in the same place.  The threshold is no higher than the number of bytes
of the source. -/
theorem limit_cutsOff {σ : Type} {lookup : Lookup σ} (shallow : lookup.Shallow)
    (catalog : Catalog) (type : Schema) (cursor : Cursor) (memory : σ) :
    CutsOff cursor.remaining (Decode.attempt lookup catalog type cursor memory) ∧
      CutsOff cursor.remaining (Value.read.attempt cursor) ∧
      CutsOff cursor.remaining (Read.skip.attempt cursor) := by
  have room := Nat.lt_succ_self cursor.remaining
  refine ⟨?_, Read.cutsOff ?_, Read.cutsOff ?_⟩
  · exact (Decode.limited_value shallow _ catalog type cursor memory room).cutsOff
      (fun after => (after.state.cursor, after.memory)) fun _ _ _ _ _ => rfl
  · exact Decode.limited_read _ cursor () room
  · exact Decode.limited_skip _ cursor () room

/-- A list of lists takes two levels: with one it runs into the limit, and with two or more it is
read, whatever follows it. -/
theorem limit_cutsOff_list :
    let type : Schema := .sequence .list (.sequence .list (.scalar (.int .u8)))
    let cursor := Cursor.ofBytes [0x91, 0x91, 0x07, 0xc1]
    let attempt := Decode.attempt (.standard .empty) .empty type cursor ()
    (attempt 1).1 = .error (.depthExceeded 1) ∧
      ∀ limit, 2 ≤ limit → (attempt limit).1 = .ok (.list [.list [.atom (.int 7)]]) ∧
        (attempt limit).2.1.unread = [0xc1] := by
  intro type cursor attempt
  have shallow := (Lookup.described_standard .empty).shallow
  obtain ⟨threshold, _, ⟨outcome, place, _, alike⟩, short⟩ :=
    (limit_cutsOff shallow .empty type cursor ()).1
  have two : (attempt 2).1 = .ok (.list [.list [.atom (.int 7)]]) := rfl
  have enough : threshold ≤ 2 := by
    apply Nat.le_of_not_lt
    intro above
    cases two.symm.trans (short 2 above)
  refine ⟨rfl, fun limit room => ?_⟩
  have same : attempt limit = attempt 2 :=
    (alike limit (Nat.le_trans enough room)).trans (alike 2 enough).symm
  rw [same]
  exact ⟨two, rfl⟩

end MsgPack
