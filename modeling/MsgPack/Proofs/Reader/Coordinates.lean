import MsgPack.Cursor

/-!
# Coordinates in a list of segments

A place among segments counts the segments that were left behind and the bytes that were read of
the current one.  These two counts denote a position in the source, and what lies ahead of the
place is what lies behind that position.

The moves are loops over the two counts alone.  They are told here as such, step by step: a step
reads the segment with the number it is at, and takes no more from a count than the count holds.
A run of a loop is finite, so a loop that has a run ends; and it has no run where it would go
beyond the last segment or below zero.
-/

namespace MsgPack

/-- How many bytes lie before the segment with a number. -/
def startOf (segments : List Bytes) (index : Nat) : Nat :=
  (segments.take index).flatten.length

section Start

variable {segments : List Bytes} {segment : Bytes} {index : Nat}

theorem startOf_succ (found : segments[index]? = some segment) :
    startOf segments (index + 1) = startOf segments index + segment.length := by
  simp [startOf, List.take_add_one, found]

theorem startOf_of_length_le (beyond : segments.length ≤ index) :
    startOf segments index = segments.flatten.length := by
  rw [startOf, List.take_of_length_le beyond]

/-- A segment ends before any later one starts. -/
theorem startOf_add_length_le {later : Nat} (found : segments[index]? = some segment)
    (before : index < later) :
    startOf segments index + segment.length ≤ startOf segments later := by
  induction before with
  | refl => exact Nat.le_of_eq (startOf_succ found).symm
  | @step later _ ih =>
      cases next : segments[later]? with
      | none =>
          have beyond := List.getElem?_eq_none_iff.1 next
          rw [startOf_of_length_le (Nat.le_succ_of_le beyond), ← startOf_of_length_le beyond]
          exact ih
      | some other =>
          rw [startOf_succ next]
          exact Nat.le_trans ih (Nat.le_add_right _ _)

theorem startOf_le (segments : List Bytes) (index : Nat) :
    startOf segments index ≤ segments.flatten.length := by
  have joined := congrArg List.flatten (List.take_append_drop index segments)
  rw [← joined, List.flatten_append, List.length_append]
  exact Nat.le_add_right _ _

/-- What lies behind the start of a segment is the segment and those after it. -/
theorem drop_startOf (segments : List Bytes) (index : Nat) :
    segments.flatten.drop (startOf segments index) = (segments.drop index).flatten := by
  have joined := congrArg List.flatten (List.take_append_drop index segments)
  rw [List.flatten_append] at joined
  rw [← joined, startOf, List.drop_left]

end Start

namespace Place

/-! ## Positions -/

/-- The coordinates of a place denote a position, and what lies ahead of it is known from them. -/
inductive Denotes (segments : List Bytes) : Place → (position : Nat) → Prop where
  | ended : Denotes segments ⟨segments.length, 0, []⟩ segments.flatten.length
  | inside {index offset : Nat} {segment : Bytes} (found : segments[index]? = some segment)
      (room : offset ≤ segment.length) :
      Denotes segments ⟨index, offset, segment.drop offset :: segments.drop (index + 1)⟩
        (startOf segments index + offset)

variable {segments : List Bytes} {position : Nat} {place : Place}

/-- The start of a segment, or of the end. -/
theorem denotes_start {index : Nat} (known : index ≤ segments.length) :
    Denotes segments ⟨index, 0, segments.drop index⟩ (startOf segments index) := by
  cases found : segments[index]? with
  | none =>
      obtain rfl := Nat.le_antisymm known (List.getElem?_eq_none_iff.1 found)
      rw [List.drop_length, startOf_of_length_le (Nat.le_refl _)]
      exact .ended
  | some segment =>
      have inside := Denotes.inside found (Nat.zero_le _)
      obtain ⟨bound, rfl⟩ := List.getElem?_eq_some_iff.1 found
      rwa [List.drop_zero, ← List.drop_eq_getElem_cons bound] at inside

namespace Denotes

/-- What lies ahead is what lies behind the position. -/
theorem flatten_ahead (denotes : place.Denotes segments position) :
    place.ahead.flatten = segments.flatten.drop position := by
  cases denotes with
  | ended => rw [List.drop_length, List.flatten_nil]
  | @inside index offset segment found room =>
      obtain ⟨bound, rfl⟩ := List.getElem?_eq_some_iff.1 found
      have behind := congrArg (List.drop offset) (drop_startOf segments index)
      rw [List.drop_drop, List.drop_eq_getElem_cons bound, List.flatten_cons,
        List.drop_append_of_le_length room] at behind
      exact behind.symm

theorem position_le (denotes : place.Denotes segments position) :
    position ≤ segments.flatten.length := by
  cases denotes with
  | ended => exact Nat.le_refl _
  | @inside index offset segment found room =>
      have bound := startOf_le segments (index + 1)
      rw [startOf_succ found] at bound
      omega

/-- The position is the number of bytes in the segments left behind and in the part read of the
current one. -/
theorem position_eq (denotes : place.Denotes segments position) :
    position = startOf segments place.index + place.offset := by
  cases denotes with
  | ended => exact (startOf_of_length_le (Nat.le_refl _)).symm
  | inside found room => rfl

/-- While bytes are unread, a settled place lies strictly inside a segment. -/
theorem strictly_inside (denotes : place.Denotes segments position)
    (settled : place.ahead.head? ≠ some []) (unread : place.ahead.flatten ≠ []) :
    ∃ segment, segments[place.index]? = some segment ∧ place.offset < segment.length ∧
      place.span = segment.drop place.offset := by
  cases denotes with
  | ended => exact absurd rfl unread
  | @inside index offset segment found room =>
      have short : ¬ segment.length ≤ offset := fun exhausted =>
        settled (congrArg some (List.drop_of_length_le exhausted))
      exact ⟨segment, found, Nat.lt_of_not_le short, rfl⟩

/-- A segment that has been read is left behind. -/
theorem leave {index offset : Nat} {span : Bytes} {later : List Bytes}
    (denotes : Denotes segments ⟨index, offset, span :: later⟩ position) :
    Denotes segments ⟨index + 1, 0, later⟩ (position + span.length) := by
  cases denotes with
  | @inside _ _ segment found room =>
      have start := denotes_start (List.getElem?_eq_some_iff.1 found).1
      have bound : startOf segments index + offset + (segment.drop offset).length =
          startOf segments (index + 1) := by
        rw [startOf_succ found, List.length_drop]
        omega
      rwa [bound]

/-- Bytes of the current segment are read. -/
theorem shift {index offset count : Nat} {span : Bytes} {later : List Bytes}
    (denotes : Denotes segments ⟨index, offset, span :: later⟩ position)
    (held : count ≤ span.length) :
    Denotes segments ⟨index, offset + count, span.drop count :: later⟩ (position + count) := by
  cases denotes with
  | @inside _ _ segment found room =>
      rw [List.length_drop] at held
      rw [List.drop_drop, Nat.add_assoc]
      exact .inside found (by omega)

theorem settle {index offset : Nat} {ahead : List Bytes}
    (denotes : Denotes segments ⟨index, offset, ahead⟩ position) :
    (Place.settle index offset ahead).Denotes segments position := by
  induction ahead generalizing index offset with
  | nil => exact denotes
  | cons span later ih =>
      cases span with
      | nil => exact ih denotes.leave
      | cons byte span => exact denotes

theorem pass {left index offset : Nat} {ahead : List Bytes}
    (denotes : Denotes segments ⟨index, offset, ahead⟩ position)
    (enough : left ≤ ahead.flatten.length) :
    (Place.pass left index offset ahead).Denotes segments (position + left) := by
  induction ahead generalizing left index offset position with
  | nil =>
      obtain rfl := Nat.le_zero.1 enough
      exact denotes
  | cons span later ih =>
      rw [List.flatten_cons, List.length_append] at enough
      by_cases exhausted : span.length ≤ left
      · have moved := ih denotes.leave (show left - span.length ≤ later.flatten.length by omega)
        rw [Nat.add_assoc, Nat.add_sub_cancel' exhausted] at moved
        rwa [pass_of_exhausted exhausted]
      · have short := Nat.lt_of_not_le exhausted
        rw [pass_of_lt short]
        exact denotes.shift (Nat.le_of_lt short)

end Denotes

/-! ## Loops over the coordinates -/

/-- A run of the loop that leaves exhausted segments behind. -/
inductive Settles (segments : List Bytes) : (index offset index' offset' : Nat) → Prop where
  | beyond {index offset : Nat} (last : segments.length ≤ index) :
      Settles segments index offset index offset
  | stays {index offset : Nat} {segment : Bytes} (found : segments[index]? = some segment)
      (short : offset < segment.length) : Settles segments index offset index offset
  | next {index offset index' offset' : Nat} {segment : Bytes}
      (found : segments[index]? = some segment) (exhausted : segment.length ≤ offset)
      (rest : Settles segments (index + 1) 0 index' offset') :
      Settles segments index offset index' offset'

/-- A run of the loop that moves over `left` bytes: each time over those that the current segment
holds, but over no more than are left to move over. -/
inductive Advances (segments : List Bytes) : (left index offset index' offset' : Nat) → Prop where
  | done {index offset : Nat} : Advances segments 0 index offset index offset
  | step {left index offset middle inner index' offset' : Nat} {segment : Bytes}
      (more : 0 < left) (found : segments[index]? = some segment)
      (room : offset ≤ segment.length)
      (settles : Settles segments index (offset + min (segment.length - offset) left) middle inner)
      (rest : Advances segments (left - min (segment.length - offset) left) middle inner
        index' offset') :
      Advances segments left index offset index' offset'

/-- A run of the loop that gathers `wanted` bytes, segment after segment. -/
inductive Gathers (segments : List Bytes) : (wanted index offset : Nat) → Bytes → Prop where
  | done {index offset : Nat} : Gathers segments 0 index offset []
  | step {wanted index offset : Nat} {segment bytes : Bytes} (more : 0 < wanted)
      (found : segments[index]? = some segment) (room : offset ≤ segment.length)
      (rest : Gathers segments (wanted - min (segment.length - offset) wanted) (index + 1) 0
        bytes) :
      Gathers segments wanted index offset
        ((segment.drop offset).take (min (segment.length - offset) wanted) ++ bytes)

/-- The loop that settles runs to the settled place. -/
theorem settles {index offset : Nat} {ahead : List Bytes}
    (denotes : Denotes segments ⟨index, offset, ahead⟩ position) :
    Settles segments index offset (settle index offset ahead).index
      (settle index offset ahead).offset := by
  induction ahead generalizing index offset with
  | nil =>
      cases denotes
      exact .beyond (Nat.le_refl _)
  | cons span later ih =>
      have left := denotes.leave
      generalize read : span :: later = ahead at denotes
      cases denotes with
      | ended => cases read
      | @inside _ _ segment found room =>
          obtain ⟨rfl, rfl⟩ := List.cons.inj read
          cases rest : segment.drop offset with
          | nil =>
              rw [rest] at left
              exact .next found (List.drop_eq_nil_iff.1 rest) (ih left)
          | cons byte span =>
              refine .stays found (Nat.lt_of_not_le fun exhausted => ?_)
              rw [List.drop_of_length_le exhausted] at rest
              cases rest

/-- The loop that settles after bytes of the span runs to the place moved to. -/
theorem settles_moveWithin {count : Nat} (denotes : place.Denotes segments position)
    (held : count ≤ place.span.length) :
    Settles segments place.index (place.offset + count) (place.moveWithin count).index
      (place.moveWithin count).offset := by
  rcases place with ⟨index, offset, _ | ⟨span, later⟩⟩
  · cases denotes
    obtain rfl := Nat.le_zero.1 held
    exact .beyond (Nat.le_refl _)
  · exact settles (denotes.shift held)

/-- To move from where one settles is to move. -/
theorem pass_settle (left index offset : Nat) (ahead : List Bytes) :
    pass left (settle index offset ahead).index (settle index offset ahead).offset
      (settle index offset ahead).ahead = pass left index offset ahead := by
  induction ahead generalizing index offset with
  | nil => rfl
  | cons span later ih =>
      cases span with
      | nil =>
          rw [pass_of_exhausted (Nat.zero_le left)]
          exact ih (index + 1) 0
      | cons byte span => rfl

/-- Where a place is settled, nothing is left behind by moving over nothing. -/
theorem pass_zero (settled : place.ahead.head? ≠ some []) :
    pass 0 place.index place.offset place.ahead = place := by
  rcases place with ⟨index, offset, _ | ⟨span, later⟩⟩
  · rfl
  · have unread : span ≠ [] := fun empty => settled (congrArg some empty)
    rw [← settle_eq_pass, settle_cons unread]

/-- To move is to move over what the current segment holds, and then over the rest. -/
theorem pass_step (left index offset : Nat) (span : Bytes) (later : List Bytes) :
    pass (left - min span.length left) index (offset + min span.length left)
      (span.drop (min span.length left) :: later) = pass left index offset (span :: later) := by
  rcases Nat.lt_or_ge left span.length with short | exhausted
  · have unread : 0 < (span.drop left).length := by
      rw [List.length_drop]
      exact Nat.sub_pos_of_lt short
    rw [Nat.min_eq_right (Nat.le_of_lt short), Nat.sub_self, pass_of_lt unread, pass_of_lt short]
    rfl
  · rw [Nat.min_eq_left exhausted, List.drop_length, pass_of_exhausted (Nat.zero_le _),
      pass_of_exhausted exhausted]
    rfl

/-- The loop that moves runs to the place moved to.  It comes nearer to it each time, because it
starts where bytes of the current segment are unread, and settles at such a place again. -/
theorem advances {left : Nat} (denotes : place.Denotes segments position)
    (settled : place.ahead.head? ≠ some []) (enough : left ≤ place.ahead.flatten.length) :
    Advances segments left place.index place.offset
      (pass left place.index place.offset place.ahead).index
      (pass left place.index place.offset place.ahead).offset := by
  induction left using Nat.strongRecOn generalizing place position with
  | ind left ih =>
      rcases Nat.eq_zero_or_pos left with rfl | more
      · rw [pass_zero settled]
        exact .done
      · cases denotes with
        | ended => exact absurd enough (Nat.not_le_of_lt more)
        | @inside index offset segment found room =>
            have unread : 0 < (segment.drop offset).length :=
              List.length_pos_iff.2 fun empty => settled (congrArg some empty)
            have taken := (Denotes.inside found room).shift (Nat.min_le_left _ left)
            have still : left - min (segment.drop offset).length left ≤
                ((segment.drop offset).drop (min (segment.drop offset).length left) ::
                  segments.drop (index + 1)).flatten.length := by
              simp only [List.flatten_cons, List.length_append, List.length_drop] at enough ⊢
              omega
            rw [← flatten_settle index (offset + min (segment.drop offset).length left)] at still
            have rest := ih _ (Nat.sub_lt more (Nat.lt_min.2 ⟨unread, more⟩)) taken.settle
              (settled_settle _ _ _) still
            rw [pass_settle, pass_step, List.length_drop] at rest
            have settles := settles taken
            rw [List.length_drop] at settles
            exact .step more found room settles rest

/-- The loop that gathers runs to the next bytes. -/
theorem gathers {wanted index offset : Nat} {ahead : List Bytes}
    (denotes : Denotes segments ⟨index, offset, ahead⟩ position)
    (enough : wanted ≤ ahead.flatten.length) :
    Gathers segments wanted index offset (gather wanted ahead) := by
  induction ahead generalizing wanted index offset position with
  | nil =>
      obtain rfl := Nat.le_zero.1 enough
      exact .done
  | cons span later ih =>
      rcases Nat.eq_zero_or_pos wanted with rfl | more
      · rw [gather_eq, List.take_zero]
        exact .done
      · rw [List.flatten_cons, List.length_append] at enough
        have rest := ih denotes.leave (show wanted - span.length ≤ later.flatten.length by omega)
        have spent : wanted - span.length = wanted - min span.length wanted := by omega
        rw [gather, List.take_eq_take_min, Nat.min_comm]
        rw [spent] at rest ⊢
        generalize read : span :: later = ahead at denotes
        cases denotes with
        | ended => cases read
        | inside found room =>
            obtain ⟨rfl, rfl⟩ := List.cons.inj read
            rw [List.length_drop] at rest ⊢
            exact .step more found room rest

end Place

end MsgPack
