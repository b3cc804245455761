import MsgPack.Value.Basic
import MsgPack.Text.Utf8

/-!
# Normal values

What can be said of a value without writing it: the value that it is once it has been on the
wire, how deep it is nested, and whether its lengths can be written at all.  The wire knows
one form of an integer that is not negative, the unsigned one; everything else comes back as
it was.
-/

namespace MsgPack.Value

/-! ## The form on the wire -/

mutual

/-- The value with every integer that is not negative unsigned. -/
def normal : Value → Value
  | int word => ofInteger (.signed word)
  | array items => array (normalItems items)
  | map entries => map (normalEntries entries)
  | other => other

/-- The normal forms of items. -/
def normalItems : List Value → List Value
  | [] => []
  | item :: items => normal item :: normalItems items

/-- The normal forms of entries. -/
def normalEntries : List (Value × Value) → List (Value × Value)
  | [] => []
  | (key, value) :: entries => (normal key, normal value) :: normalEntries entries

end

/-! ## Nesting -/

mutual

/-- How deep a value is nested; every array and every map counts, empty ones too. -/
def nesting : Value → Nat
  | array items => nestingItems items + 1
  | map entries => nestingEntries entries + 1
  | _ => 0

/-- How deep the deepest of some items is nested. -/
def nestingItems : List Value → Nat
  | [] => 0
  | item :: items => max (nesting item) (nestingItems items)

/-- How deep the deepest key or value of some entries is nested. -/
def nestingEntries : List (Value × Value) → Nat
  | [] => 0
  | (key, value) :: entries => max (max (nesting key) (nesting value)) (nestingEntries entries)

end

/-! ## Lengths -/

/-- Whether a length can be written. -/
def FitsLength (length : Nat) : Prop :=
  length < 0x100000000

instance (length : Nat) : Decidable (FitsLength length) :=
  inferInstanceAs (Decidable (_ < _))

mutual

/-- Whether every length and every count inside a value can be written. -/
def Fits : Value → Prop
  | string text => FitsLength (Utf8.encode text).length
  | binary bytes => FitsLength bytes.length
  | extension _ payload => FitsLength payload.length
  | array items => FitsLength items.length ∧ FitsItems items
  | map entries => FitsLength entries.length ∧ FitsEntries entries
  | _ => True

/-- Whether everything inside some items can be written. -/
def FitsItems : List Value → Prop
  | [] => True
  | item :: items => Fits item ∧ FitsItems items

/-- Whether everything inside some entries can be written. -/
def FitsEntries : List (Value × Value) → Prop
  | [] => True
  | (key, value) :: entries => Fits key ∧ Fits value ∧ FitsEntries entries

end

end MsgPack.Value
