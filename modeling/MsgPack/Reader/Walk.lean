import MsgPack.Reader.Skip

/-!
# Walking over tokens

Values can be passed over without any nesting: each token passes one of the values that are
pending, and the header of an array or a map makes those inside it pending.  A walk keeps
their number and nothing else, so no depth limits it.
-/

namespace MsgPack.Read

/-- Passes over tokens until no value is pending or `steps` tokens have been passed.  The
result is the number of values that are still pending. -/
def walk : (steps pending : Nat) → Read Nat
  | _, 0 => pure 0
  | 0, pending => pure pending
  | steps + 1, pending + 1 => do
      let inside ← token
      walk steps (pending + inside.getD 0)

end MsgPack.Read
