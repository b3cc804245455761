import MsgPack.Proofs.Formatter.Reads

/-!
# How deep typed reads go

The limit of a reader bounds how deep the arrays and maps are nested that a typed read passes
over, but for one kind of value.  A duration, a time of day and the address of a socket are
pairs, and are read without a level of their own.  So a type that may hold one of them can
overrun the limit, though never by more than that one level.
-/

namespace MsgPack

namespace WellFormed

variable {levels count inner : Nat} {header rest : Bytes}

/-- Where a header comes first, the values that it announces are one level deeper. -/
theorem inside_of_opens (opens : Opens header inner)
    (given : WellFormed levels 1 (header ++ rest)) :
    ∃ below, levels = below + 1 ∧ WellFormed below inner rest := by
  obtain ⟨below, inside, tail, less, split, nested, others⟩ :=
    of_opens opens (List.append_nil (header ++ rest)).symm given
  rw [others.eq_nil, List.append_nil, List.append_nil] at split
  exact ⟨below, less, split ▸ nested⟩

end WellFormed

namespace Decode

open Session

variable {σ : Type} {lookup : Lookup σ} {catalog : Catalog} {overruns : String → Bool}

/-- Where a value of a type was read, the arrays and maps in its bytes are nested deeper than the
reader might go by no more than the type overruns. -/
theorem wellFormed_of_value_eq_ok (borne : catalog.Overruns overruns)
    (described : lookup.Described) (type : Schema) {reader after : Reader} {memory kept : σ}
    {content : Datum}
    (ok : value lookup catalog type ⟨reader, memory⟩ = .ok content ⟨after, kept⟩) :
    ∃ bytes, reader.Passed bytes after ∧
      WellFormed (reader.budget + type.overrun overruns) 1 bytes := by
  obtain ⟨_, bytes, _, _, passed, _, levels, less, row⟩ :=
    reads_overrun borne described type ok
  exact ⟨bytes, passed, row.mono (Nat.le_of_lt_succ less)⟩

/-- A list of one duration needs two levels, and is read where there is one. -/
theorem wellFormed_of_list_of_duration :
    let bytes : Bytes := [0x91, 0x92, 0x05, 0x07]
    let content : Datum := .list [.atom (.duration ⟨5, 7, by decide⟩)]
    ∃ after, value (.standard .empty) .empty (.sequence .list (.scalar .duration))
      ⟨.ofCursor (.ofBytes bytes) 1, ()⟩ = .ok content ⟨after, ()⟩ ∧
      WellFormed 2 1 bytes ∧ ¬ WellFormed 1 1 bytes := by
  intro bytes content
  obtain ⟨after, ok, done⟩ : ∃ after,
      value (.standard .empty) .empty (.sequence .list (.scalar .duration))
        ⟨.ofCursor (.ofBytes bytes) 1, ()⟩ = .ok content ⟨after, ()⟩ ∧
      after.cursor.unread = [] := ⟨_, rfl, rfl⟩
  have borne : Catalog.empty.Overruns fun _ => false := nofun
  obtain ⟨front, passed, row⟩ :=
    wellFormed_of_value_eq_ok borne (Lookup.described_standard .empty) _ ok
  have whole : bytes = front := by
    have unread := passed.unread
    rwa [done, List.append_nil] at unread
  rw [← whole] at row
  refine ⟨after, ok, row, fun shallow => ?_⟩
  have array : Opens [0x91] 1 := .fixArray (by decide) (by decide)
  have pair : Opens [0x92] 2 := .fixArray (by decide) (by decide)
  obtain ⟨_, one, inside⟩ := WellFormed.inside_of_opens array shallow
  obtain ⟨_, two, _⟩ := WellFormed.inside_of_opens pair inside
  omega

/-- A duration is read where no array may be opened. -/
theorem value_of_duration_at_limit :
    ∃ after, value (.standard .empty) .empty (.scalar .duration)
      ⟨.ofCursor (.ofBytes [0x92, 0x05, 0x07]) 0, ()⟩ =
        .ok (.atom (.duration ⟨5, 7, by decide⟩)) ⟨after, ()⟩ ∧
      after.cursor.unread = [] ∧ ¬ WellFormed 0 1 [0x92, 0x05, 0x07] := by
  refine ⟨_, rfl, rfl, fun shallow => ?_⟩
  have pair : Opens [0x92] 2 := .fixArray (by decide) (by decide)
  obtain ⟨_, level, _⟩ := WellFormed.inside_of_opens pair shallow
  cases level

end Decode

end MsgPack
