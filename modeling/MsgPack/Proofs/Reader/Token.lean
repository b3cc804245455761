import MsgPack.Proofs.Reader.Header
import MsgPack.Proofs.Wire.Row
import MsgPack.Reader.Skip

/-!
# The bytes of tokens

A token accepts exactly the values that hold no others, and the headers of arrays and maps
with enough bytes after them for the values they announce.
-/

namespace MsgPack

/-- The bytes of a token, with the number of values that it announces and what must be left
for them. -/
def Announces (bytes : Bytes) (announced : Option Nat) (left : Nat) : Prop :=
  match announced with
  | none => Leaf bytes
  | some count => Opens bytes count ∧ count ≤ left

/-! ## Leaves by their codes -/

namespace Leaf

variable {code : UInt8} {bytes : Bytes}

/-- The leaves of a code that gives the length of a payload. -/
theorem iff_of_length {form : LengthForm}
    (announced : (Format.ofCode code).announcement code = form.announcement code) :
    Leaf (code :: bytes) ↔ ∃ start payload, bytes = start ++ payload ∧
      form.Gives code start payload.length := by
  rw [cons_iff, announced]
  cases form with
  | fixed mask =>
      constructor
      · intro length
        exact ⟨[], bytes, rfl, rfl, length⟩
      · rintro ⟨_, payload, rfl, rfl, length⟩
        exact length
  | sized width => exact Iff.rfl

/-- The leaves of a code that gives the length of an extension. -/
theorem iff_of_extension {form : ExtensionForm}
    (announced : (Format.ofCode code).announcement code = form.announcement) :
    Leaf (code :: bytes) ↔ ∃ header start payload, bytes = start ++ payload ∧
      form.Gives start header ∧ payload.length = header.length := by
  rw [cons_iff, announced]
  cases form with
  | fixed size =>
      constructor
      · intro length
        cases bytes with
        | nil => cases length
        | cons typeByte payload =>
            exact ⟨⟨_, size⟩, [typeByte], payload, rfl, ⟨[], typeByte, rfl, rfl, rfl, rfl⟩,
              Nat.succ.inj length⟩
      · rintro ⟨_, _, payload, rfl, ⟨_, typeByte, rfl, _, rfl, rfl⟩, length⟩
        exact congrArg Nat.succ length
  | sized width =>
      constructor
      · rintro ⟨length, payload, rfl, whole, counted⟩
        cases payload with
        | nil => cases counted
        | cons typeByte payload =>
            exact ⟨⟨_, BigEndian.decode length⟩, length ++ [typeByte], payload, by simp,
              ⟨length, typeByte, rfl, rfl, whole, rfl⟩, Nat.succ.inj counted⟩
      · rintro ⟨_, _, payload, rfl, ⟨length, typeByte, rfl, _, whole, counted⟩, sized⟩
        exact ⟨length, typeByte :: payload, by simp, whole, by simp [sized, counted]⟩

end Leaf

namespace Read

/-! ## Tokens by their codes -/

variable {code : UInt8}

/-- A value of known size is a token. -/
theorem token_of_value {α : Type} {read : Read α} {grammar : Bytes → α → Nat → Prop}
    (accepted : AcceptsAfter code read grammar)
    (leaf : ∀ bytes left, Leaf (code :: bytes) ↔ ∃ result, grammar bytes result left)
    (closed : ∀ each form, (Format.ofCode code).announcement code ≠ .values each form) :
    AcceptsAfter code (do let _ ← read; return none) fun bytes => Announces (code :: bytes) := by
  apply (accepted.mapped fun _ => none).congr
  intro bytes announced left
  constructor
  · intro given
    cases announced with
    | none =>
        rcases (leaf bytes left).1 given with ⟨result, given⟩
        exact ⟨result, given, rfl⟩
    | some count =>
        rcases opens_iff.1 given.1 with ⟨each, form, _, values, _⟩
        exact absurd values (closed each form)
  · rintro ⟨result, given, rfl⟩
    exact (leaf bytes left).2 ⟨result, given⟩

/-- A header and the payload whose length it gives are a token. -/
theorem token_of_header {α : Type} {header : Read α} {size : α → Nat}
    {grammar : Bytes → α → Nat → Prop} (accepted : AcceptsAfter code header grammar)
    (leaf : ∀ bytes left, Leaf (code :: bytes) ↔ ∃ found start payload, bytes = start ++ payload ∧
      grammar start found (payload.length + left) ∧ payload.length = size found)
    (closed : ∀ each form, (Format.ofCode code).announcement code ≠ .values each form) :
    AcceptsAfter code (do
        let found ← header
        advance (size found)
        return none) fun bytes => Announces (code :: bytes) := by
  have both := accepted.bind fun found => accepts_advance (size found)
  have skipped := token_of_value both (fun bytes left => ?_) closed
  · simpa only [bind_assoc] using skipped
  · rw [leaf bytes left]
    constructor
    · rintro ⟨found, start, payload, rfl, given, length⟩
      exact ⟨(), found, start, payload, rfl, given, length⟩
    · rintro ⟨_, found, start, payload, rfl, given, length⟩
      exact ⟨found, start, payload, rfl, given, length⟩

/-- The header of an array or a map is a token. -/
theorem token_of_count {read : Read Nat} {form : LengthForm} {each : Nat}
    (announced : (Format.ofCode code).announcement code = .values each form)
    (accepted : AcceptsAfter code read fun bytes count left =>
      form.Gives code bytes count ∧ count * each ≤ left) :
    AcceptsAfter code (return some ((← read) * each)) fun bytes => Announces (code :: bytes) := by
  apply (accepted.mapped fun count => some (count * each)).congr
  intro bytes result left
  constructor
  · intro given
    cases result with
    | none =>
        rw [Announces, Leaf.cons_iff, announced] at given
        exact given.elim
    | some inner =>
        rcases given with ⟨opens, enough⟩
        rcases opens_iff.1 opens with ⟨_, _, count, same, gives, rfl⟩
        rw [announced] at same
        cases same
        exact ⟨count, ⟨gives, enough⟩, rfl⟩
  · rintro ⟨count, ⟨gives, enough⟩, rfl⟩
    exact ⟨opens_iff.2 ⟨each, form, count, announced, gives, rfl⟩, enough⟩

/-- A number or another value of fixed size is a token. -/
theorem token_of_fixed {α : Type} {read : Read α} {size : Nat} {value : Bytes → α}
    (announced : (Format.ofCode code).announcement code = .fixed size)
    (accepted : AcceptsAfter code read fun bytes result _ =>
      bytes.length = size ∧ result = value bytes) :
    AcceptsAfter code (do let _ ← read; return none) fun bytes => Announces (code :: bytes) := by
  refine token_of_value accepted (fun bytes left => ?_) fun each form => ?_
  · rw [Leaf.cons_iff, announced]
    constructor
    · intro length
      exact ⟨value bytes, length, rfl⟩
    · rintro ⟨_, length, _⟩
      exact length
  · rw [announced]
    exact Announcement.noConfusion

theorem token_of_length {read : Read Nat} {form : LengthForm}
    (announced : (Format.ofCode code).announcement code = form.announcement code)
    (accepted : AcceptsAfter code read fun bytes length _ => form.Gives code bytes length) :
    AcceptsAfter code (do advance (← read); return none) fun bytes =>
      Announces (code :: bytes) := by
  refine token_of_header accepted (fun bytes left => ?_) fun each values => ?_
  · rw [Leaf.iff_of_length announced]
    constructor
    · rintro ⟨start, payload, rfl, gives⟩
      exact ⟨_, start, payload, rfl, gives, rfl⟩
    · rintro ⟨_, start, payload, rfl, gives, rfl⟩
      exact ⟨start, payload, rfl, gives⟩
  · rw [announced]
    cases form <;> exact Announcement.noConfusion

theorem token_of_extension {read : Read ExtensionHeader} {form : ExtensionForm}
    (announced : (Format.ofCode code).announcement code = form.announcement)
    (accepted : AcceptsAfter code read fun bytes header _ => form.Gives bytes header) :
    AcceptsAfter code (do advance (← read).length; return none) fun bytes =>
      Announces (code :: bytes) := by
  refine token_of_header accepted (fun bytes left => ?_) fun each values => ?_
  · rw [Leaf.iff_of_extension announced]
  · rw [announced]
    cases form <;> exact Announcement.noConfusion

/-- No value starts with a code that announces nothing. -/
theorem token_of_nothing (announced : (Format.ofCode code).announcement code = .nothing)
    (failure : Error) :
    AcceptsAfter code (throw failure : Read (Option Nat)) fun bytes =>
      Announces (code :: bytes) := by
  apply (AcceptsAfter.throw failure).congr
  intro bytes result left
  refine iff_of_false ?_ id
  intro given
  cases result with
  | none =>
      rw [Announces, Leaf.cons_iff, announced] at given
      exact given
  | some count =>
      rcases opens_iff.1 given.1 with ⟨_, _, _, values, _⟩
      rw [announced] at values
      cases values

/-! ## Tokens -/

/-- A token accepts exactly the leaves, and the headers with enough bytes after them. -/
theorem accepts_token : Accepts token Announces := by
  refine accepts_peekThen (fun code => ?_) ?_
  · cases kind : (Format.ofCode code).kind with
    | integer =>
        rcases Option.isSome_iff_exists.1 ((Format.integer?_isSome _).2 kind) with ⟨form, integer⟩
        exact token_of_fixed (Format.announcement_of_integer integer code)
          (AcceptsAfter.integerAs integer .integer)
    | nil =>
        have format : Format.ofCode code = .nil := by
          revert kind
          cases Format.ofCode code <;> simp [Format.kind]
        have announced : (Format.ofCode code).announcement code = .fixed 0 := by
          rw [format]
          rfl
        have accepted : AcceptsAfter code Read.nil fun bytes result _ =>
            bytes.length = 0 ∧ result = () := by
          apply (AcceptsAfter.nil format).congr
          intro bytes result left
          rw [List.length_eq_zero_iff]
          exact and_iff_left rfl
        exact token_of_fixed announced accepted
    | boolean =>
        obtain ⟨truth, boolean⟩ :=
          Option.isSome_iff_exists.1 ((Format.boolean?_isSome _).2 kind)
        apply token_of_fixed (Format.announcement_of_boolean boolean code)
        apply (AcceptsAfter.bool boolean).congr
        intro bytes result left
        exact and_congr_left' List.length_eq_zero_iff
    | float =>
        rcases Format.float32_or_float64 kind with format | format
        · have announced : (Format.ofCode code).announcement code = .fixed 4 := by
            rw [format]
            rfl
          exact token_of_fixed announced (AcceptsAfter.float64_single format)
        · have announced : (Format.ofCode code).announcement code = .fixed 8 := by
            rw [format]
            rfl
          exact token_of_fixed announced (AcceptsAfter.float64 format)
    | string =>
        rcases Option.isSome_iff_exists.1 ((Format.string?_isSome _).2 kind) with ⟨form, string⟩
        exact token_of_length (Format.announcement_of_string string code)
          (AcceptsAfter.lengthAs string .str)
    | binary =>
        rcases Option.isSome_iff_exists.1 ((Format.binary?_isSome _).2 kind) with ⟨form, binary⟩
        exact token_of_length (Format.announcement_of_binary binary code)
          (AcceptsAfter.lengthAs binary .bin)
    | extension =>
        obtain ⟨form, extension⟩ :=
          Option.isSome_iff_exists.1 ((Format.extension?_isSome _).2 kind)
        exact token_of_extension (Format.announcement_of_extension extension code)
          (AcceptsAfter.extensionHeader extension)
    | array =>
        rcases Option.isSome_iff_exists.1 ((Format.array?_isSome _).2 kind) with ⟨form, array⟩
        have accepted := token_of_count (Format.announcement_of_array array code)
          ((AcceptsAfter.arrayHeader array).congr fun bytes count left => by rw [Nat.mul_one])
        simpa only [Nat.mul_one] using accepted
    | map =>
        rcases Option.isSome_iff_exists.1 ((Format.map?_isSome _).2 kind) with ⟨form, map⟩
        exact token_of_count (Format.announcement_of_map map code) (AcceptsAfter.mapHeader map)
    | unknown => exact token_of_nothing (Format.announcement_of_unknown kind code) _
  · intro result left given
    cases result with
    | none => exact Leaf.not_nil given
    | some count => cases given.1

end Read

end MsgPack
