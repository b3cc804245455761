import MsgPack.Proofs.Reader.Single

/-!
# What single values say to their reads

Which contents each read of a single value accepts, and with what result.  An integer says
its number to every read that wants one, whatever its form; a read of a floating point
number takes three kinds of content.  A string, binary data and an extension say their
payload to whatever comes after their header.
-/

namespace MsgPack

/-! ## Floating point numbers -/

namespace Content

/-- The content as a single; doubles and integers are rounded. -/
def single? : Content → Option UInt32
  | float32 bits => some bits
  | float64 bits => some (Float.narrow bits)
  | integer number => some (Float.narrow (Float.doubleOfInt number))
  | _ => none

/-- The content as a double; singles widen and integers are rounded. -/
def double? : Content → Option UInt64
  | float32 bits => some (Float.widen bits)
  | float64 bits => some bits
  | integer number => some (Float.doubleOfInt number)
  | _ => none

end Content

/-- Which formats can be read as a floating point number, and how. -/
theorem Format.float?_cases (format : Format) :
    match format.float? with
    | some .single => format = float32
    | some .double => format = float64
    | some .integer => ∃ form, format.integer? = some form
    | none => format ≠ float32 ∧ format ≠ float64 ∧ format.integer? = none := by
  cases format <;> simp [float?, integer?]

namespace Read

variable {α : Type}

/-! ## Nil, truth values and integers -/

theorem single_nil : Single nil fun content _ => content = .nil := by
  apply Single.of_codes
  intro code
  by_cases format : Format.ofCode code = .nil
  · rw [if_pos format]
    have announced : (Format.ofCode code).announcement code = .fixed 0 := by
      rw [format]
      rfl
    have accepted : AcceptsAfter code skipByte fun bytes result _ =>
        bytes.length = 0 ∧ result = () := by
      apply AcceptsAfter.skipByte.congr
      intro bytes result left
      rw [List.length_eq_zero_iff]
      exact and_iff_left rfl
    exact .fixed (fun _ => .nil) (fun _ => ()) announced
      (fun _ empty => ⟨format, List.length_eq_zero_iff.1 empty⟩) accepted (.nothing _)
      fun _ _ => iff_of_true rfl rfl
  · rw [if_neg format]
    apply SingleAfter.throw
    rintro content bytes result after rfl
    exact format after.1

theorem single_bool : Single bool fun content truth => content = .bool truth := by
  apply Single.of_codes
  intro code
  cases known : (Format.ofCode code).boolean? with
  | some truth =>
      have accepted : AcceptsAfter code (do skipByte; return truth) fun bytes result _ =>
          bytes.length = 0 ∧ result = truth := by
        apply (AcceptsAfter.skipByteThen truth).congr
        intro bytes result left
        rw [List.length_eq_zero_iff]
      refine .fixed (fun _ => .bool truth) (fun _ => truth)
        (Format.announcement_of_boolean known code)
        (fun _ empty => ⟨known, List.length_eq_zero_iff.1 empty⟩) accepted (.nothing _)
        fun _ result => ?_
      rw [Content.bool.injEq, eq_comm]
  | none =>
      apply SingleAfter.throw
      rintro content bytes result after rfl
      cases known.symm.trans after.1

/-- A code of integers and the bytes after it say their number. -/
theorem singleAfter_integer {code : UInt8} {form : IntegerForm} {read : Read Integer}
    {tells : Content → α → Prop} (known : (Format.ofCode code).integer? = some form)
    (accepted : AcceptsAfter code read fun bytes number _ =>
      bytes.length = form.payloadLength ∧ number = form.value code bytes)
    (wants : Wants code read form.payloadLength) (convert : Int → α)
    (same : ∀ number result, tells (.integer number) result ↔ result = convert number) :
    SingleAfter code (return convert (← read).toInt) tells := by
  have converted : AcceptsAfter code (return convert (← read).toInt) fun bytes result _ =>
      bytes.length = form.payloadLength ∧ result = convert (form.value code bytes).toInt := by
    apply (accepted.mapped fun number => convert number.toInt).congr
    intro bytes result left
    constructor
    · rintro ⟨whole, rfl⟩
      exact ⟨_, ⟨whole, rfl⟩, rfl⟩
    · rintro ⟨_, ⟨whole, rfl⟩, rfl⟩
      exact ⟨whole, rfl⟩
  exact .fixed (fun bytes => .integer (form.value code bytes).toInt) _
    (Format.announcement_of_integer known code) (fun _ whole => ⟨form, known, whole, rfl⟩)
    converted (wants.bind _) fun _ result => same _ result

/-- An integer says its number, in whatever form it is written. -/
theorem single_integerAs (expected : Expected) :
    Single (return (← integerAs expected).toInt) fun content number =>
      content = .integer number := by
  simp only [integerAs, bind_assoc]
  apply Single.of_codes
  intro code
  cases known : (Format.ofCode code).integer? with
  | some form =>
      apply singleAfter_integer known (AcceptsAfter.integerOf form) (Wants.integerOf form) id
      intro number result
      rw [Content.integer.injEq, eq_comm]
      rfl
  | none =>
      apply SingleAfter.throw
      rintro content bytes result after rfl
      rcases after with ⟨form, found, _⟩
      cases known.symm.trans found

/-! ## Floating point numbers -/

/-- A floating point number after its code, converted to what is wanted. -/
theorem singleAfter_float {code : UInt8} {width : Width} {tells : Content → α → Prop}
    (word : Bytes → Content) (value : Bytes → α)
    (announced : (Format.ofCode code).announcement code = .fixed width.bytes)
    (stands : ∀ bytes, bytes.length = width.bytes → (word bytes).After code bytes)
    (same : ∀ bytes result, tells (word bytes) result ↔ result = value bytes) :
    SingleAfter code (return value (← suffix width)) tells :=
  .fixed word value announced stands (AcceptsAfter.suffixThen width value)
    ((Wants.suffix width).bind _) same

/-- A code of no number says nothing to a read of a floating point number. -/
theorem silent_of_float? {code : UInt8} {bytes : Bytes} {content : Content}
    (other : (Format.ofCode code).float? = none) (after : content.After code bytes) :
    content.single? = none ∧ content.double? = none := by
  have apart := Format.float?_cases (Format.ofCode code)
  rw [other] at apart
  rcases apart with ⟨single, double, integer⟩
  cases content with
  | integer number =>
      rcases after with ⟨form, known, _⟩
      cases integer.symm.trans known
  | float32 bits => exact absurd after.1 single
  | float64 bits => exact absurd after.1 double
  | _ => exact ⟨rfl, rfl⟩

theorem single_float32 : Single float32 fun content bits => content.single? = some bits := by
  apply Single.of_codes
  intro code
  have format := Format.float?_cases (Format.ofCode code)
  cases form : (Format.ofCode code).float? with
  | none =>
      apply SingleAfter.throw
      intro content bytes result after said
      cases (silent_of_float? form after).1.symm.trans said
  | some form' =>
      rw [form] at format
      cases form' with
      | single =>
          refine singleAfter_float (fun bytes => .float32 (UInt32.ofNat (BigEndian.decode bytes)))
            _ ?_ (fun bytes whole => ⟨format, whole, rfl⟩) fun _ _ => ?_
          · rw [format]
            rfl
          · rw [Content.single?, Option.some.injEq, eq_comm]
      | double =>
          refine singleAfter_float (fun bytes => .float64 (UInt64.ofNat (BigEndian.decode bytes)))
            (fun bytes => Float.narrow (UInt64.ofNat (BigEndian.decode bytes)))
            ?_ (fun bytes whole => ⟨format, whole, rfl⟩) fun _ _ => ?_
          · rw [format]
            rfl
          · rw [Content.single?, Option.some.injEq, eq_comm]
      | integer =>
          rcases format with ⟨form, known⟩
          apply singleAfter_integer known (AcceptsAfter.integerAs known .integer)
            (Wants.integerAs known .integer) fun number => Float.narrow (Float.doubleOfInt number)
          intro number result
          rw [Content.single?, Option.some.injEq, eq_comm]

theorem single_float64 : Single float64 fun content bits => content.double? = some bits := by
  apply Single.of_codes
  intro code
  have format := Format.float?_cases (Format.ofCode code)
  cases form : (Format.ofCode code).float? with
  | none =>
      apply SingleAfter.throw
      intro content bytes result after said
      cases (silent_of_float? form after).2.symm.trans said
  | some form' =>
      rw [form] at format
      cases form' with
      | single =>
          refine singleAfter_float (fun bytes => .float32 (UInt32.ofNat (BigEndian.decode bytes)))
            (fun bytes => Float.widen (UInt32.ofNat (BigEndian.decode bytes)))
            ?_ (fun bytes whole => ⟨format, whole, rfl⟩) fun _ _ => ?_
          · rw [format]
            rfl
          · rw [Content.double?, Option.some.injEq, eq_comm]
      | double =>
          refine singleAfter_float (fun bytes => .float64 (UInt64.ofNat (BigEndian.decode bytes)))
            _ ?_ (fun bytes whole => ⟨format, whole, rfl⟩) fun _ _ => ?_
          · rw [format]
            rfl
          · rw [Content.double?, Option.some.injEq, eq_comm]
      | integer =>
          rcases format with ⟨form, known⟩
          apply singleAfter_integer known (AcceptsAfter.integerAs known .integer)
            (Wants.integerAs known .integer) Float.doubleOfInt
          intro number result
          rw [Content.double?, Option.some.injEq, eq_comm]

/-! ## Headers -/

/-- The header of a kind is accepted in all its forms. -/
theorem accepts_lengthAs (form? : Format → Option LengthForm) (expected : Expected) :
    Accepts (lengthAs form? expected) fun bytes length _ => HeaderGives form? bytes length := by
  refine accepts_peekThen (fun code => ?_) ?_
  · cases known : form? (Format.ofCode code) with
    | some form =>
        apply (AcceptsAfter.lengthOf form).congr
        intro bytes length left
        constructor
        · rintro ⟨_, _, form', same, known', gives⟩
          cases same
          cases known.symm.trans known'
          exact gives
        · intro gives
          exact ⟨code, bytes, form, rfl, known, gives⟩
    | none =>
        apply (AcceptsAfter.throw _).congr
        intro bytes length left
        refine iff_of_false ?_ id
        rintro ⟨_, _, form, same, known', _⟩
        cases same
        cases known.symm.trans known'
  · rintro length left ⟨_, _, _, same, _⟩
    cases same

theorem starves_lengthAs {form? : Format → Option LengthForm} {header : Bytes} {length : Nat}
    {reader : Reader} (gives : HeaderGives form? header length) (ends : reader.EndsWithin header)
    (expected : Expected) : Starves (lengthAs form? expected) reader := by
  rcases gives with ⟨code, bytes, form, rfl, known, gives⟩
  refine Wants.starves ?_ ends
  simp only [known]
  exact Wants.lengthOf gives

/-- A count is accepted where enough bytes are left for what it counts. -/
theorem accepts_countAs (form? : Format → Option LengthForm) (expected : Expected)
    (needed : Nat → Nat) :
    Accepts (do
      let count ← lengthAs form? expected
      ensure (needed count)
      return count) fun bytes count left =>
        HeaderGives form? bytes count ∧ needed count ≤ left := by
  refine ((accepts_lengthAs form? expected).bind fun count =>
    (accepts_ensure (needed count)).bind fun _ => accepts_pure count).congr
      fun bytes count left => ?_
  constructor
  · rintro ⟨given, enough⟩
    exact ⟨count, bytes, [], (List.append_nil bytes).symm, given, (), [], [], rfl,
      ⟨rfl, by simpa using enough⟩, rfl, rfl⟩
  · rintro ⟨_, _, _, rfl, given, _, _, _, rfl, ⟨rfl, enough⟩, rfl, rfl⟩
    exact ⟨by simpa using given, by simpa using enough⟩

theorem accepts_arrayHeader : Accepts arrayHeader fun bytes count left =>
    HeaderGives Format.array? bytes count ∧ count ≤ left :=
  accepts_countAs Format.array? .array id

/-- Where the bytes of what a count counts are cut off, reading the count starves, or it goes
well and what it counts is cut off. -/
theorem countAs_cut {form? : Format → Option LengthForm} {header inside : Bytes} {count : Nat}
    {reader : Reader} (gives : HeaderGives form? header count)
    (ends : reader.EndsWithin (header ++ inside)) (expected : Expected) (needed : Nat → Nat) :
    let counted := do
      let count ← lengthAs form? expected
      ensure (needed count)
      return count
    Starves counted reader ∨ ∃ middle, counted reader = .ok count middle ∧
      reader.Passed header middle ∧ middle.EndsWithin inside := by
  intro counted
  rcases ends.split with early | ⟨rest, unread, late⟩
  · exact .inl ((starves_lengthAs gives early expected).head _)
  · by_cases enough : needed count ≤ rest.length
    · obtain ⟨middle, ok, passed⟩ :=
        (accepts_countAs form? expected needed).complete ⟨gives, enough⟩ unread
      exact .inr ⟨middle, ok, passed, late middle passed⟩
    · obtain ⟨middle, ok, passed⟩ := (accepts_lengthAs form? expected).complete gives unread
      rw [← passed.unread_eq unread, Cursor.length_unread] at enough
      exact .inl (.tail ok ((starves_ensure (Nat.lt_of_not_le enough)).head _))

/-- The header of an extension is accepted in all its forms. -/
theorem accepts_extensionHeader :
    Accepts extensionHeader fun bytes header _ => ExtensionGives bytes header := by
  refine accepts_peekThen (fun code => ?_) ?_
  · cases known : (Format.ofCode code).extension? with
    | some form =>
        apply (AcceptsAfter.extensionHeaderOf form).congr
        intro bytes header left
        constructor
        · rintro ⟨_, _, form', same, known', gives⟩
          cases same
          cases known.symm.trans known'
          exact gives
        · intro gives
          exact ⟨code, bytes, form, rfl, known, gives⟩
    | none =>
        apply (AcceptsAfter.throw _).congr
        intro bytes header left
        refine iff_of_false ?_ id
        rintro ⟨_, _, form, same, known', _⟩
        cases same
        cases known.symm.trans known'
  · rintro header left ⟨_, _, _, same, _⟩
    cases same

theorem starves_extensionHeader {header : Bytes} {found : ExtensionHeader} {reader : Reader}
    (gives : ExtensionGives header found) (ends : reader.EndsWithin header) :
    Starves extensionHeader reader := by
  rcases gives with ⟨code, bytes, form, rfl, known, gives⟩
  refine Wants.starves ?_ ends
  simp only [known]
  exact Wants.extensionHeaderOf gives

/-! ## Payloads -/

/-- A header that gives the length of a payload, and what is made of the payload. -/
theorem single_lengthThen {form? : Format → Option LengthForm} {wrap : Bytes → Content}
    (stands : ∀ bytes payload, (wrap payload).Stands bytes ↔
      ∃ header, bytes = header ++ payload ∧ HeaderGives form? header payload.length)
    (expected : Expected) {next : Nat → Read α} {tells : Nat → Bytes → α → Prop}
    (payload : ∀ length, Payload length (next length) (tells length)) :
    Single (lengthAs form? expected >>= next) fun content result =>
      ∃ bytes, content = wrap bytes ∧ tells bytes.length bytes result := by
  apply Single.headerThen (accepts_lengthAs form? expected)
    (fun gives ends => starves_lengthAs gives ends expected) payload
  intro bytes result
  constructor
  · rintro ⟨_, content, payload, rfl, said⟩
    rcases (stands _ _).1 content with ⟨header, rfl, gives⟩
    exact ⟨_, header, payload, rfl, gives, rfl, said⟩
  · rintro ⟨_, header, payload, rfl, gives, rfl, said⟩
    exact ⟨_, (stands _ _).2 ⟨header, rfl, gives⟩, payload, rfl, said⟩

theorem single_strThen {next : Nat → Read α} {tells : Nat → Bytes → α → Prop}
    (payload : ∀ length, Payload length (next length) (tells length)) :
    Single (strHeader >>= next) fun content result =>
      ∃ bytes, content = .string bytes ∧ tells bytes.length bytes result :=
  single_lengthThen Content.stands_string .str payload

theorem single_binThen {next : Nat → Read α} {tells : Nat → Bytes → α → Prop}
    (payload : ∀ length, Payload length (next length) (tells length)) :
    Single (binHeader >>= next) fun content result =>
      ∃ bytes, content = .binary bytes ∧ tells bytes.length bytes result :=
  single_lengthThen Content.stands_binary .bin payload

theorem single_extensionThen {next : ExtensionHeader → Read α}
    {tells : ExtensionHeader → Bytes → α → Prop}
    (payload : ∀ header, Payload header.length (next header) (tells header)) :
    Single (extensionHeader >>= next) fun content result =>
      ∃ typeCode bytes, content = .extension typeCode bytes ∧
        tells ⟨typeCode, bytes.length⟩ bytes result := by
  apply Single.headerThen accepts_extensionHeader starves_extensionHeader payload
  intro bytes result
  constructor
  · rintro ⟨_, content, typeCode, payload, rfl, said⟩
    rcases (Content.stands_extension _ _ _).1 content with ⟨header, rfl, gives⟩
    exact ⟨_, header, payload, rfl, gives, rfl, said⟩
  · rintro ⟨⟨typeCode, _⟩, header, payload, rfl, gives, rfl, said⟩
    exact ⟨_, (Content.stands_extension _ _ _).2 ⟨header, rfl, gives⟩, typeCode, payload, rfl,
      said⟩

end Read

end MsgPack
