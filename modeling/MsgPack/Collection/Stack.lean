/-!
# Stacks

A stack is kept as the list of its items from the bottom up: the item pushed last stands at the
end and is popped first.  It is written from the top down, so that the first item on the wire is
the next one that is popped.  Whoever reads it gathers the items as they come and turns them
over at the end.
-/

namespace MsgPack

/-- A stack. -/
structure Stack (α : Type) where
  /-- The items from the bottom up. -/
  items : List α
  deriving DecidableEq

namespace Stack

variable {α : Type}

/-- A stack without items. -/
def empty : Stack α := ⟨[]⟩

/-- Puts an item on top. -/
def push (stack : Stack α) (item : α) : Stack α :=
  ⟨stack.items ++ [item]⟩

/-- The stack of items that are pushed in order. -/
def ofPushes (items : List α) : Stack α :=
  ⟨items⟩

/-- The item on top. -/
def peek? (stack : Stack α) : Option α :=
  stack.items.getLast?

/-- The stack without its top item. -/
def pop (stack : Stack α) : Stack α :=
  ⟨stack.items.dropLast⟩

/-- The number of items. -/
def size (stack : Stack α) : Nat :=
  stack.items.length

/-- Whether there is no item. -/
def isEmpty (stack : Stack α) : Bool :=
  stack.items.isEmpty

/-- The items from the top down. -/
def fromTop (stack : Stack α) : List α :=
  stack.items.reverse

/-- The stack whose items were gathered from the top down. -/
def ofTop (gathered : Array α) : Stack α :=
  ⟨gathered.toList.reverse⟩

@[simp]
theorem peek?_push (stack : Stack α) (item : α) : (stack.push item).peek? = some item :=
  List.getLast?_concat

@[simp]
theorem pop_push (stack : Stack α) (item : α) : (stack.push item).pop = stack :=
  congrArg mk List.dropLast_concat

@[simp]
theorem size_push (stack : Stack α) (item : α) : (stack.push item).size = stack.size + 1 :=
  List.length_append

theorem foldl_push (items : List α) : items.foldl push empty = ofPushes items := by
  have pushed : ∀ (items : List α) (stack : Stack α),
      items.foldl push stack = ⟨stack.items ++ items⟩ := by
    intro items
    induction items with
    | nil => intro stack; simp
    | cons item rest ih => intro stack; simp [ih, push]
  exact pushed items empty

/-- The item on top is the first one from the top down, -/
theorem head?_fromTop (stack : Stack α) : stack.fromTop.head? = stack.peek? :=
  List.head?_reverse

/-- and the others are those that are left without it. -/
theorem fromTop_pop (stack : Stack α) : stack.pop.fromTop = stack.fromTop.tail :=
  List.tail_reverse.symm

@[simp]
theorem fromTop_ofTop (gathered : Array α) : (ofTop gathered).fromTop = gathered.toList :=
  List.reverse_reverse _

end Stack

end MsgPack
