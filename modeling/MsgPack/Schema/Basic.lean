import MsgPack.Integer

/-!
# Descriptions of types

The types whose values are read and written.  A *scalar* is written without help: its
layout does not depend on any other type.  All other types are built from types, and the
values inside theirs are handed to whatever formatter is in force for those types.  A named
type is described by a definition of its own, if it has one; so descriptions stay finite
also for types that contain themselves.

Two types are the same exactly when their descriptions are equal, which is decided here.
-/

namespace MsgPack

/-- The types that are written without help of other types. -/
inductive Scalar where
  | unit
  | bool
  | int (range : IntRange)
  | float32
  | float64
  | char
  /-- Text. -/
  | string
  /-- Text that is cheap to copy. -/
  | smallString
  /-- Binary data. -/
  | bytes
  /-- Binary data in a buffer that can be changed. -/
  | byteBuffer
  /-- A value of any shape. -/
  | value
  | timestamp
  | systemTime
  | duration
  | ipv4
  | ipv6
  | ip
  | socket
  /-- An instant on a clock that shows UTC. -/
  | utcDateTime
  /-- A date and a time of day on no particular clock. -/
  | plainDateTime
  /-- An instant on a clock with a fixed offset from UTC. -/
  | offsetDateTime
  | date
  | time
  | guid
  | decimal
  deriving DecidableEq

/-- The collections that are written as arrays of their items. -/
inductive SequenceKind where
  | list
  | deque
  | linkedList
  | slice
  /-- A set without order. -/
  | hashSet
  /-- A set in the order of its items. -/
  | treeSet
  /-- A set in the order of insertion. -/
  | indexSet
  /-- A stack, written from the top down. -/
  | stack
  deriving DecidableEq

/-- The collections that are written as maps. -/
inductive MapKind where
  /-- A map without order. -/
  | hash
  /-- A map in the order of its keys. -/
  | tree
  /-- A map in the order of insertion. -/
  | index
  deriving DecidableEq

/-- A type. -/
inductive Schema where
  | scalar (scalar : Scalar)
  /-- A value that carries the name of its type. -/
  | typeless
  | option (item : Schema)
  /-- A value behind a pointer of its own. -/
  | boxed (item : Schema)
  /-- A value behind a shared pointer. -/
  | shared (item : Schema)
  | sequence (kind : SequenceKind) (item : Schema)
  /-- An array of fixed length. -/
  | array (length : Nat) (item : Schema)
  /-- A two-dimensional array. -/
  | grid (item : Schema)
  | map (kind : MapKind) (key value : Schema)
  | tuple (items : List Schema)
  /-- A type known by its name. -/
  | named (name : String)
  deriving Inhabited

namespace Schema

/-! ## Equality -/

mutual

/-- Whether two types are the same. -/
def same : Schema → Schema → Bool
  | scalar left, scalar right => left == right
  | typeless, typeless => true
  | option left, option right => same left right
  | boxed left, boxed right => same left right
  | shared left, shared right => same left right
  | sequence leftKind left, sequence rightKind right => leftKind == rightKind && same left right
  | array leftLength left, array rightLength right =>
      leftLength == rightLength && same left right
  | grid left, grid right => same left right
  | map leftKind leftKey left, map rightKind rightKey right =>
      leftKind == rightKind && same leftKey rightKey && same left right
  | tuple left, tuple right => sameItems left right
  | named left, named right => left == right
  | _, _ => false

/-- Whether two lists of types are the same. -/
def sameItems : List Schema → List Schema → Bool
  | [], [] => true
  | left :: lefts, right :: rights => same left right && sameItems lefts rights
  | _, _ => false

end

mutual

theorem same_iff : (left right : Schema) → (same left right = true ↔ left = right)
  | scalar _, right => by cases right <;> simp [same]
  | typeless, right => by cases right <;> simp [same]
  | option item, right => by cases right <;> simp [same, same_iff item]
  | boxed item, right => by cases right <;> simp [same, same_iff item]
  | shared item, right => by cases right <;> simp [same, same_iff item]
  | sequence _ item, right => by cases right <;> simp [same, same_iff item]
  | array _ item, right => by cases right <;> simp [same, same_iff item]
  | grid item, right => by cases right <;> simp [same, same_iff item]
  | map _ key value, right => by
      cases right <;> simp [same, same_iff key, same_iff value, and_assoc]
  | tuple items, right => by cases right <;> simp [same, sameItems_iff items]
  | named _, right => by cases right <;> simp [same]

theorem sameItems_iff : (lefts rights : List Schema) →
    (sameItems lefts rights = true ↔ lefts = rights)
  | [], rights => by cases rights <;> simp [sameItems]
  | left :: lefts, rights => by
      cases rights <;> simp [sameItems, same_iff left, sameItems_iff lefts]

end

instance : DecidableEq Schema := fun left right =>
  decidable_of_iff _ (same_iff left right)

end Schema

end MsgPack
