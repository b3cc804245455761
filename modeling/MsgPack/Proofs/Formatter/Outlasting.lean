import MsgPack.Proofs.Formatter.Resolver
import MsgPack.Proofs.Formatter.Returning
import MsgPack.Proofs.Formatter.Typeless

/-!
# Typeless values and further registrations

A registry of names only grows, and what a name stands for never changes.  So what was written
under a name is read as what it was, however many types are registered in between.  This holds
for any resolver, whatever formatters it gives and whatever its places keep, and of any delegates
that bring back what they write: they may be registered with a type in place of its formatter.
-/

namespace MsgPack

/-! ## What comes back -/

/-- Whether a computation writes some bytes, whatever was written before, and another one reads
these bytes as a result, whatever follows them, where so many structures may be opened. -/
structure BringsBack {α : Type} (store : Store) (write : Encode Store Unit) (read : Decode Store α)
    (result : α) (bytes : Bytes) (levels : Nat) : Prop where
  written : ∀ writer, ∃ kept, write ⟨writer, store⟩ = .ok () ⟨writer.append bytes, kept⟩
  read : ∀ (reader : Reader) (rest : Bytes), reader.cursor.unread = bytes ++ rest →
    levels ≤ reader.budget → ∃ after kept,
      read ⟨reader, store⟩ = .ok result ⟨after, kept⟩ ∧ reader.Passed bytes after

/-- The bytes are those that are written first. -/
theorem BringsBack.bytes_eq {α : Type} {store : Store} {write : Encode Store Unit}
    {read : Decode Store α} {result : α} {bytes : Bytes} {levels : Nat}
    (back : BringsBack store write read result bytes levels) {written : Bytes} {kept : Store}
    (ok : write ⟨.empty, store⟩ = .ok () ⟨Writer.empty.append written, kept⟩) :
    bytes = written := by
  obtain ⟨last, again⟩ := back.written .empty
  have same := congrArg (fun ended : Session Writer Store => ended.state.toList)
    (EStateM.Result.ok.inj (again.symm.trans ok)).2
  simpa only [Writer.toList_append, List.append_cancel_left_eq] using same

namespace Resolver

variable {catalog : Catalog} {resolver : Resolver} {store : Store} {registry : Option Nat}
variable {type : Schema} {content : Datum} {bytes : Bytes} {levels : Nat}
variable {handle : TypeHandle} {delegates : TypelessDelegates}

/-- Whether the formatter that a resolver gives for a type brings back a value as it was. -/
abbrev FormatterReturns (resolver : Resolver) (catalog : Catalog) (store : Store) (type : Schema)
    (content : Datum) (bytes : Bytes) (levels : Nat) : Prop :=
  BringsBack store (Encode.value (resolver.lookup catalog) catalog type content)
    (Decode.value (resolver.lookup catalog) catalog type) content bytes levels

/-- Whether delegates bring back a value of a type as it was, with the formatters that a resolver
gives. -/
abbrev DelegatesReturn (resolver : Resolver) (catalog : Catalog) (store : Store)
    (delegates : TypelessDelegates) (type : Schema) (content : Datum) (bytes : Bytes)
    (levels : Nat) : Prop :=
  BringsBack store (Encode.byDelegates (resolver.lookup catalog) catalog delegates type content)
    (Decode.byDelegates (resolver.lookup catalog) catalog delegates) (type, content) bytes levels

/-- What comes back with all stores that show the same comes back with each of them. -/
theorem returns_of_comesBack {fits : Prop}
    (back : ComesBack (resolver.lookup catalog) catalog
      (fun memory => memory.view catalog = store.view catalog) levels type content content fits)
    (holds : fits) :
    ∃ bytes, resolver.FormatterReturns catalog store type content bytes levels := by
  obtain ⟨bytes, appends, takes⟩ := back
  refine ⟨bytes, fun writer => ?_, fun reader rest unread room => ?_⟩
  · obtain ⟨after, ok⟩ := (Encode.Appends.ok_iff appends rfl).2 holds
    obtain ⟨_, appended, _⟩ := Encode.Appends.of_ok appends rfl ok
    have same : after.state = writer.append bytes :=
      Writer.eq_of_toList (appended.trans (Writer.toList_append writer bytes).symm)
    exact ⟨after.memory, by rw [← same, ok]⟩
  · obtain ⟨after, kept, ok, passed, _⟩ := (takes holds).2 reader rest store rfl unread room
    exact ⟨after, kept, ok, passed⟩

/-- Delegates that leave everything to the formatter of a type bring back what it brings back. -/
theorem returns_of_formatter
    (back : resolver.FormatterReturns catalog store type content bytes levels) :
    resolver.DelegatesReturn catalog store (.of type) type content bytes levels := by
  constructor
  · rw [Encode.byDelegates_of]
    exact back.written
  · intro reader rest unread room
    obtain ⟨after, kept, ok, passed⟩ := back.read reader rest unread room
    refine ⟨after, kept, ?_, passed⟩
    rw [Decode.byDelegates_of, bind_of_ok ok]
    rfl

/-! ## More names -/

section Delegates

variable {σ : Type} {lookup : Lookup σ} {grown : σ → σ → Prop}

theorem lasts_byDelegates_write (grows : lookup.GrowsAlong grown) :
    Session.Lasts grown (Encode.byDelegates lookup catalog delegates type content) :=
  .of_mirrors (Encode.mirrors_delegated
    (fun wanted => Encode.mirrors_value grows.mirrors catalog wanted content)
    (Encode.mirrors_inside grows.mirrors content) delegates type content)

theorem lasts_byDelegates_read (grows : lookup.GrowsAlong grown) :
    Session.Lasts grown (Decode.byDelegates lookup catalog delegates) := by
  apply Session.Lasts.of_mirrors
  intro reader
  have inner (formatter : Formatter) (type : Schema) :
      Session.Mirrors False grown (Decode.within lookup catalog reader.budget formatter type)
        (Decode.within lookup catalog reader.budget formatter type) :=
    Decode.mirrors_within grows.mirrors reader.budget formatter type
  exact Session.Mirrors.follow (Decode.mirrors_found grows.mirrors inner) delegates.read reader

end Delegates

section Returns

variable (back : resolver.DelegatesReturn catalog store delegates type content bytes levels)

include back

/-- Where more names are known, the value is written as the same bytes. -/
theorem appends_byDelegates :
    Encode.Appends (store.Grown catalog)
      (Encode.byDelegates (resolver.lookup catalog) catalog delegates type content) bytes True := by
  intro writer later grown
  obtain ⟨kept, ok⟩ := back.written writer
  obtain ⟨last, again, first, further⟩ :=
    (lasts_byDelegates_write (resolver.growsAlong_from catalog store)).of_ok
      ⟨.refl store, grown⟩ ok
  rw [again]
  exact ⟨trivial, Writer.toList_append writer bytes, first.trans further⟩

/-- Where more names are known, the bytes are read as the same value. -/
theorem takes_byDelegates :
    Decode.Takes (store.Grown catalog) levels
      (Decode.byDelegates (resolver.lookup catalog) catalog delegates) bytes (type, content) := by
  intro reader rest later grown unread room
  obtain ⟨after, kept, ok, passed⟩ := back.read reader rest unread room
  obtain ⟨last, again, first, further⟩ :=
    (lasts_byDelegates_read (resolver.growsAlong_from catalog store)).of_ok
      ⟨.refl store, grown⟩ ok
  exact ⟨after, last, again, passed, first.trans further⟩

end Returns

/-- Dealing with a type changes nothing that a store shows. -/
theorem grown_noted {later : Store} (grown : store.Grown catalog later) :
    store.Grown catalog ((resolver.lookup catalog).noted registry type later) := by
  cases registry with
  | none => exact grown
  | some number => exact grown.congr rfl (later.view_note catalog number type)

/-! ## Writing and reading -/

/-- Writes a typeless value that holds a value of a type, with a registry of names. -/
abbrev writeTypeless (resolver : Resolver) (catalog : Catalog) (registry : Option Nat)
    (held : Schema) (content : Datum) : Encode Store Unit :=
  Encode.datum (resolver.lookup catalog) catalog (.typeless held content) (.ofNames registry)
    .typeless

/-- Reads a typeless value with a registry of names. -/
abbrev readTypeless (resolver : Resolver) (catalog : Catalog) (registry : Option Nat) :
    Decode Store Datum :=
  Decode.datum (resolver.lookup catalog) catalog (.ofNames registry) .typeless

/-- A typeless value that comes back is written if the lengths in its envelope fit. -/
theorem appends_envelope
    (known : ((resolver.lookup catalog).names registry store).byType? handle.type = some handle)
    (other : handle.type ≠ .scalar .value)
    (back : resolver.DelegatesReturn catalog store handle.delegates handle.type content bytes
      levels) :
    Encode.Appends (store.Grown catalog)
      (resolver.writeTypeless catalog registry handle.type content)
      (handle.envelope bytes).encoding (handle.envelope bytes).Fits := by
  have stays (later : Store) (grown : store.Grown catalog later) :=
    (resolver.growsAlong catalog).byType registry grown known
  apply
    (Encode.appends_typeless other stays (fun _ => grown_noted) (appends_byDelegates back)).congr
  constructor
  · exact fun both => both.2
  · exact fun fits => ⟨⟨TypeHandle.fits_name fits, trivial⟩, fits⟩

/-- The envelope of a typeless value is read as that value, where its name is known. -/
theorem takes_envelope
    (known : ((resolver.lookup catalog).names registry store).byName? handle.name = some handle)
    (fits : (handle.envelope bytes).Fits)
    (back : resolver.DelegatesReturn catalog store handle.delegates handle.type content bytes
      levels) :
    Decode.Takes (store.Grown catalog) (levels + 1) (resolver.readTypeless catalog registry)
      (handle.envelope bytes).encoding (.typeless handle.type content) := by
  have stays (later : Store) (grown : store.Grown catalog later) :=
    (resolver.growsAlong catalog).byName registry grown known
  exact Decode.takes_envelope fits stays (fun _ => grown_noted) (takes_byDelegates back)

/-- A typeless value of any shape is written as that value. -/
theorem writeTypeless_value (value : Value) :
    resolver.writeTypeless catalog registry (.scalar .value) (.atom (.value value)) =
      Session.lift value.write := by
  rw [writeTypeless, Encode.datum_typeless]
  rfl

/-! ## The promise -/

/-- A formatter that brings back a value does so as the delegates of a type that is registered
with it.  A typeless value that holds a value of a registered type, and that its delegates bring
back, is written just if the lengths in the envelope fit, and is then read as it was in every
store that has grown from the one that was left, up to what follows and with one level more than
its content needs.  A typeless value of any shape is written as the value itself, without an
envelope unless it looks like one, and read as its normal form.  And if a typeless value that
carries a name is not written, the writer is left as it was. -/
theorem typeless_outlasts_registrations
    (reachable : ((resolver.lookup catalog).names registry store).Reachable) :
    (∀ (type : Schema) (content : Datum) (bytes : Bytes) (levels : Nat),
      resolver.FormatterReturns catalog store type content bytes levels →
        resolver.DelegatesReturn catalog store (.of type) type content bytes levels) ∧
    (∀ (handle : TypeHandle) (content : Datum) (bytes : Bytes) (levels : Nat) (writer : Writer),
      ((resolver.lookup catalog).names registry store).byType? handle.type = some handle →
      handle.type ≠ .scalar .value →
      resolver.DelegatesReturn catalog store handle.delegates handle.type content bytes levels →
        ((∃ after, resolver.writeTypeless catalog registry handle.type content ⟨writer, store⟩ =
            .ok () after) ↔ (handle.envelope bytes).Fits) ∧
        ∀ after, resolver.writeTypeless catalog registry handle.type content ⟨writer, store⟩ =
            .ok () after →
          after.state.toList = writer.toList ++ (handle.envelope bytes).encoding ∧
          ∀ (later : Store) (reader : Reader) (rest : Bytes), after.memory.Grown catalog later →
            reader.cursor.unread = (handle.envelope bytes).encoding ++ rest →
            levels + 1 ≤ reader.budget → ∃ last kept,
              resolver.readTypeless catalog registry ⟨reader, later⟩ =
                .ok (.typeless handle.type content) ⟨last, kept⟩ ∧
              last.cursor.unread = rest ∧ last.depth = reader.depth) ∧
    (∀ (value : Value) (writer written : Writer),
      (∀ payload, value ≠ .extension ExtensionCode.typeless payload) →
      value.write writer = .ok () written →
        resolver.writeTypeless catalog registry (.scalar .value) (.atom (.value value))
          ⟨writer, store⟩ = .ok () ⟨written, store⟩ ∧
        ∃ bytes, written.toList = writer.toList ++ bytes ∧
          ∀ (later : Store) (reader : Reader) (rest : Bytes),
            reader.cursor.unread = bytes ++ rest → value.nesting ≤ reader.budget → ∃ last kept,
              resolver.readTypeless catalog registry ⟨reader, later⟩ =
                .ok (.typeless (.scalar .value) (.atom (.value value.normal))) ⟨last, kept⟩ ∧
              last.cursor.unread = rest ∧ last.depth = reader.depth) ∧
    ∀ (held : Schema) (content : Datum) (writer : Writer) (failure : Error)
      (after : Session Writer Store), held ≠ .scalar .value →
      resolver.writeTypeless catalog registry held content ⟨writer, store⟩ =
        .error failure after → after.state = writer := by
  refine ⟨fun _ _ _ _ => returns_of_formatter, ?_, ?_, ?_⟩
  · intro handle content bytes levels writer known other back
    have writes := appends_envelope known other back
    refine ⟨writes.ok_iff (.refl store), fun after ok => ?_⟩
    obtain ⟨fits, appended, grown⟩ := writes.of_ok (.refl store) ok
    refine ⟨appended, fun later reader rest further unread room => ?_⟩
    have stands := reachable.oneToOne.byName?_of_byType? known
    obtain ⟨last, kept, ok, passed, _⟩ := takes_envelope stands fits back reader rest later
      (grown.trans further) unread room
    exact ⟨last, kept, ok, passed.unread_eq unread, passed.depth⟩
  · intro value writer written plain ok
    have fits := Value.fits_of_write ok
    rw [writeTypeless_value]
    refine ⟨Session.lift_eq_ok.2 ⟨ok, rfl⟩, value.encoding, ?_, ?_⟩
    · rw [Value.write_of_fits fits] at ok
      cases ok
      exact Writer.toList_append writer _
    · intro later reader rest unread room
      have takes : Decode.Takes (fun _ => True) value.nesting
          (resolver.readTypeless catalog registry) value.encoding
          (.typeless (.scalar .value) (.atom (.value value.normal))) :=
        Decode.takes_unnamed fits plain
      obtain ⟨last, kept, ok, passed, _⟩ := takes reader rest later trivial unread room
      exact ⟨last, kept, ok, passed.unread_eq unread, passed.depth⟩
  · intro held content writer failure after other error
    rw [writeTypeless, Encode.datum_typeless] at error
    exact Encode.spares_typeless other content _ _ writer store failure after error

/-- A store with a builtin place and a formatter of typeless values with a registry of names. -/
def storeOfNames (names : TypeRegistry) : Store :=
  ⟨[], [[]], ⟨[⟨names, []⟩], .primitives⟩⟩

/-- The formatter of a scalar type brings back what belongs to the type, if there are normal values
of any shape in it. -/
theorem scalar_returns (type : Scalar) (content : Atom) (covered : type.Covered)
    (holds : type.Holds content) (normal : ∀ value, content = .value value → value.normal = value)
    (whole : content.restored = content) (fits : (type.image content).Fits)
    (names : TypeRegistry) :
    ∃ bytes, (builtin 0).FormatterReturns .empty (storeOfNames names) (.scalar type)
      (.atom content) bytes (type.image content).nesting := by
  have found : (find .empty (.scalar type) (builtin 0) (storeOfNames names)).1 = some .builtin :=
    rfl
  have comes : ComesBack ((builtin 0).lookup .empty) .empty _ _ (.scalar type) (.atom content)
      (.atom content.restored) _ :=
    comesBack_scalar covered holds (gives_of_find .empty _ found) normal
  rw [whole] at comes
  exact returns_of_comesBack comes fits

/-- A number under its name, read at the limit of depth after two more registrations, of which
the second is refused. -/
theorem typeless_outlasts_registrations_number :
    ∃ after last kept,
      (builtin 0).writeTypeless .empty (some 0) (.scalar (.int .u8)) (.atom (.int 7))
        ⟨.empty, storeOfNames .primitives⟩ = .ok () after ∧
      after.state.toList = [0xd6, 0x64, 0xa2, 0x75, 0x38, 0x07] ∧
      (builtin 0).readTypeless .empty (some 0)
        ⟨.ofCursor (.ofBytes [0xd6, 0x64, 0xa2, 0x75, 0x38, 0x07, 0xc0]) 1,
          after.memory.attempts
            [(some 0, .of (.scalar .unit) "unit"), (some 0, .of (.scalar .bytes) "u8")]⟩ =
        .ok (.typeless (.scalar (.int .u8)) (.atom (.int 7))) ⟨last, kept⟩ ∧
      last.cursor.unread = [0xc0] := by
  obtain ⟨bytes, back⟩ := scalar_returns (.int .u8) (.int 7) trivial
    (show IntRange.u8.Contains 7 by decide) nofun rfl trivial .primitives
  have first : Encode.value ((builtin 0).lookup .empty) .empty (.scalar (.int .u8)) (.atom (.int 7))
      ⟨.empty, storeOfNames .primitives⟩ = .ok () ⟨Writer.empty.append [0x07], _⟩ := rfl
  obtain rfl := back.bytes_eq first
  have reachable : (((builtin 0).lookup .empty).names (some 0)
      (storeOfNames .primitives)).Reachable := ⟨[], .inr rfl⟩
  obtain ⟨own, carried, _⟩ := typeless_outlasts_registrations reachable
  obtain ⟨written, reads⟩ := carried (.of (.scalar (.int .u8)) "u8") (.atom (.int 7)) [0x07] _
    .empty rfl nofun (own _ _ _ _ back)
  have fits : ((Value.string "u8").encoding ++ [0x07]).length < 0x100000000 := by decide
  obtain ⟨after, ok⟩ := written.2 fits
  obtain ⟨appended, read⟩ := reads after ok
  obtain ⟨last, kept, ok', unread, _⟩ := read
    (after.memory.attempts
      [(some 0, .of (.scalar .unit) "unit"), (some 0, .of (.scalar .bytes) "u8")])
    (.ofCursor (.ofBytes [0xd6, 0x64, 0xa2, 0x75, 0x38, 0x07, 0xc0]) 1) [0xc0]
    (Store.grown_attempts ..) rfl (by decide)
  exact ⟨after, last, kept, ok, appended, ok', unread⟩

/-- The empty value under a name, but with what belongs to points in time. -/
def foreign : TypeHandle :=
  ⟨.scalar .unit, "unit", .of (.scalar .timestamp)⟩

/-- A type may be registered with delegates that are not of its formatter.  The empty value comes
back with its formatter, and yet a typeless value that holds it is not written. -/
theorem typeless_refused_by_delegates :
    let names := TypeRegistry.empty.after [foreign]
    names.Reachable ∧ names.byType? (.scalar .unit) = some foreign ∧
      (builtin 0).FormatterReturns .empty (storeOfNames names) (.scalar .unit) (.atom .unit) [0xc0]
        0 ∧
      (foreign.envelope [0xc0]).Fits ∧
      ¬∃ after, (builtin 0).writeTypeless .empty (some 0) (.scalar .unit) (.atom .unit)
        ⟨.empty, storeOfNames names⟩ = .ok () after := by
  intro names
  obtain ⟨bytes, back⟩ := scalar_returns .unit .unit trivial trivial nofun rfl trivial names
  have first : Encode.value ((builtin 0).lookup .empty) .empty (.scalar .unit) (.atom .unit)
      ⟨.empty, storeOfNames names⟩ = .ok () ⟨Writer.empty.append [0xc0], _⟩ := rfl
  obtain rfl := back.bytes_eq first
  have fits : ((Value.string "unit").encoding ++ [0xc0]).length < 0x100000000 := by decide
  refine ⟨⟨[foreign], .inl rfl⟩, rfl, back, fits, ?_⟩
  rintro ⟨after, ok⟩
  cases ok

end Resolver

end MsgPack
