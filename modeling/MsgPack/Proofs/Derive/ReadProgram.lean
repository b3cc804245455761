import MsgPack.Derive.Execution
import MsgPack.Proofs.Formatter.Session

/-!
# Programs that read

The program that is derived to read a type does what the formatter does that follows from the
definition of the type: from every state both end in the same way, with the same value or the same
failure.  They run side by side: where the program puts a value into a slot, the formatter finds
one for a field.
-/

namespace MsgPack.Derive

open Session

variable {σ α β : Type}

/-! ## Running side by side -/

/-- Two computations have ended in the same state, both with a failure or both with results that
are related. -/
inductive EndTogether (related : α → β → Prop) :
    EStateM.Result Error (Session Reader σ) α → EStateM.Result Error (Session Reader σ) β →
      Prop where
  | ok {left : α} {right : β} {after : Session Reader σ} (same : related left right) :
      EndTogether related (.ok left after) (.ok right after)
  | error (failure : Error) (after : Session Reader σ) :
      EndTogether related (.error failure after) (.error failure after)

/-- From every state, a computation ends together with another. -/
def Tracks (related : α → β → Prop) (left : Decode σ α) (right : Decode σ β) : Prop :=
  ∀ session, EndTogether related (left session) (right session)

namespace Tracks

variable {related : α → β → Prop} {left : Decode σ α} {right : Decode σ β}

theorem refl (read : Decode σ α) : Tracks Eq read read := fun session => by
  cases read session with
  | ok result after => exact .ok rfl
  | error failure after => exact .error failure after

theorem eq {left right : Decode σ α} (tracks : Tracks Eq left right) : left = right := by
  funext session
  have together := tracks session
  generalize left session = ended at together ⊢
  generalize right session = ended' at together ⊢
  cases together with
  | ok same => rw [same]
  | error => rfl

theorem pure {result : α} {other : β} (same : related result other) :
    Tracks related (pure result : Decode σ α) (pure other) :=
  fun _ => .ok same

theorem bind {γ δ : Type} {next : α → Decode σ γ} {next' : β → Decode σ δ}
    {related' : γ → δ → Prop} (head : Tracks related left right)
    (tail : ∀ result other, related result other → Tracks related' (next result) (next' other)) :
    Tracks related' (left >>= next) (right >>= next') := by
  intro session
  have together := head session
  simp only [Bind.bind, EStateM.bind]
  generalize left session = ended at together ⊢
  generalize right session = ended' at together ⊢
  cases together with
  | ok same => exact tail _ _ same _
  | error failure after => exact .error failure after

/-- What is made of the second result alone. -/
theorem mapRight {γ : Type} {related' : α → γ → Prop} (tracks : Tracks related left right)
    (convert : β → γ) (same : ∀ result other, related result other →
      related' result (convert other)) :
    Tracks related' left (return convert (← right)) := by
  rw [← bind_pure left]
  exact tracks.bind fun result other held => .pure (same result other held)

theorem nested (inside : Tracks related left right) :
    Tracks related (Decode.nested left) (Decode.nested right) := by
  intro session
  unfold Decode.nested
  cases Read.enterNested session.state with
  | error failure after => exact .error _ _
  | ok entered after =>
      have together := inside { session with state := after }
      dsimp only
      generalize left _ = ended at together ⊢
      generalize right _ = ended' at together ⊢
      cases together with
      | ok same => exact .ok same
      | error => exact .error _ _

end Tracks

/-! ## Slots -/

variable {lookup : Lookup σ} {inner : Formatter → Schema → Decode σ Datum} {catalog : Catalog}
variable {type : Code → Schema} {frame after : Frame} {fields : List (Field Code)}

/-- From a place on, the slots hold what was found for the fields.  For a field that is never
written nothing is found. -/
def Frame.Shows (frame : Frame) : Nat → List (Field Code) → List (Option Datum) → Prop
  | _, [], _ => True
  | place, field :: fields, found =>
      found.head?.join = (if field.skip then none else frame.slots place) ∧
        frame.Shows (place + 1) fields found.tail

/-- No slot from a place on holds a value. -/
def Frame.EmptyFrom (frame : Frame) (place : Nat) : Prop :=
  ∀ other, place ≤ other → frame.slots other = none

/-- A frame keeps the count and the slots before a place. -/
structure Frame.Keeps (frame after : Frame) (place : Nat) : Prop where
  count : after.count = frame.count
  slots : ∀ other, other < place → after.slots other = frame.slots other

theorem Frame.Keeps.before {place : Nat} (keeps : frame.Keeps after (place + 1)) :
    frame.Keeps after place where
  count := keeps.count
  slots other below := keeps.slots other (Nat.lt_succ_of_lt below)

/-- The values that are made from slots are those that are made from what was found. -/
theorem mapM_fieldValue (typeName : String) {place : Nat} {found : List (Option Datum)}
    (shows : frame.Shows place fields found) :
    ((fields.zipIdx place).map (fieldValue typeName)).mapM
        (fun member => member.2.eval type catalog frame) =
      Decode.construct catalog typeName (fields.map (Field.map type)) found := by
  induction fields generalizing place found with
  | nil => rfl
  | cons field fields ih =>
      obtain ⟨head, rest⟩ := shows
      rw [List.zipIdx_cons, List.map_cons, List.map_cons, List.mapM_cons, Decode.construct,
        ih rest, head]
      cases skip : field.skip with
      | true => simp [fieldValue, Field.map, FieldValue.eval, skip]
      | false =>
          cases slot : frame.slots place with
          | some value =>
              cases lenient : field.lenient <;>
                simp [fieldValue, FieldValue.eval, target, skip, lenient, slot]
          | none =>
              cases lenient : field.lenient <;>
                simp [fieldValue, Field.map, FieldValue.eval, target, skip, lenient, slot]

/-! ## Items of an array -/

/-- The statements that read the items of an array for fields from a place on. -/
def itemStatements (before place : Nat) (fields : List (Field Code)) : List InnerStatement :=
  (((fields.zipIdx place).filter fun placed => !placed.1.skip).zipIdx before).map fun numbered =>
    .item numbered.2 (target numbered.1)

theorem itemStatements_skipped (before place : Nat) (fields : List (Field Code))
    {field : Field Code} (skip : field.skip = true) :
    itemStatements before place (field :: fields) =
      itemStatements before (place + 1) fields := by
  simp [itemStatements, List.zipIdx_cons, skip]

theorem itemStatements_written (before place : Nat) (fields : List (Field Code))
    {field : Field Code} (written : field.skip = false) :
    itemStatements before place (field :: fields) =
      .item before ⟨place, field.type⟩ :: itemStatements (before + 1) (place + 1) fields := by
  simp [itemStatements, List.zipIdx_cons, written, target]

theorem tracks_items (before place : Nat) (empty : frame.EmptyFrom place) :
    Tracks (fun after found => frame.Keeps after place ∧ after.Shows place fields found)
      ((itemStatements before place fields).foldlM (InnerStatement.run lookup inner type) frame)
      (Decode.slots lookup inner (frame.count - before) (fields.map (Field.map type))) := by
  -- The program counts the items it has passed, the formatter those that are left.  The slots of
  -- later fields stay empty, so a field without item finds none.
  induction fields generalizing before place frame with
  | nil => exact .pure ⟨⟨rfl, fun _ _ => rfl⟩, trivial⟩
  | cons field fields ih =>
      have later : frame.EmptyFrom (place + 1) := fun other above =>
        empty other (Nat.le_of_succ_le above)
      cases skip : field.skip with
      | true =>
          have passed : (Field.map type field).skip = true := skip
          rw [itemStatements_skipped before place fields skip, List.map_cons, Decode.slots,
            passed, Bool.true_or, if_pos rfl]
          exact (ih before (place + 1) later).mapRight _ fun after found held =>
            ⟨held.1.before, by rw [skip]; rfl, held.2⟩
      | false =>
          have kept : (Field.map type field).skip = false := skip
          rw [itemStatements_written before place fields skip, List.map_cons, Decode.slots,
            List.foldlM_cons, kept, Bool.false_or, InnerStatement.run]
          by_cases more : before < frame.count
          · have unread : ¬decide (frame.count - before = 0) = true := by
              rw [decide_eq_true_eq]
              omega
            rw [if_pos more, if_neg unread, Target.run, bind_assoc]
            apply (Tracks.refl _).bind
            rintro value _ rfl
            rw [pure_bind, Nat.sub_sub]
            have apart : (frame.assign place (.some value)).EmptyFrom (place + 1) :=
              fun other above => (if_neg (Nat.ne_of_gt above)).trans (later other above)
            refine (ih (before + 1) (place + 1) apart).mapRight _ fun after found held =>
              ⟨?_, ?_, held.2⟩
            · exact ⟨held.1.count, fun other below =>
                (held.1.slots other (Nat.lt_succ_of_lt below)).trans (if_neg (Nat.ne_of_lt below))⟩
            · rw [skip, held.1.slots place (Nat.lt_succ_self place)]
              exact (if_pos rfl).symm
          · have exhausted : decide (frame.count - before = 0) = true := by
              rw [decide_eq_true_eq]
              omega
            have still : frame.count - before = frame.count - (before + 1) := by omega
            rw [if_neg more, if_pos exhausted, pure_bind, still]
            exact (ih (before + 1) (place + 1) later).mapRight _ fun after found held =>
              ⟨held.1.before, by
                rw [skip, held.1.slots place (Nat.lt_succ_self place), empty place (Nat.le_refl _)]
                rfl, held.2⟩

theorem length_writtenFields (fields : List (Field Code)) (type : Code → Schema) :
    (Field.written (fields.map (Field.map type))).length = (writtenFields fields).length := by
  have origin : Field.written (fields.map (Field.map type)) =
      (Field.written fields).map (Field.map type) := List.filter_map
  have fields_eq : (fields.zipIdx).map Prod.fst = fields := List.zipIdx_map_fst _ _
  rw [origin, List.length_map, Field.written, ← fields_eq, List.filter_map, List.length_map,
    fields_eq]
  rfl

/-- The inside of an array is read as the formatter reads it. -/
theorem tracks_array (empty : frame.EmptyFrom 0) :
    Tracks (fun after found => after.Shows 0 fields found)
      (ReadStatement.run lookup inner type frame (.nested (itemStatements 0 0 fields ++
        [.skipFrom (writtenFields fields).length])))
      (Decode.slotsOfArray lookup inner (fields.map (Field.map type)) frame.count) := by
  rw [ReadStatement.run, Decode.slotsOfArray, length_writtenFields, List.foldlM_append]
  apply Tracks.nested
  apply (tracks_items 0 0 empty).bind
  rintro after found ⟨keeps, shows⟩
  rw [List.foldlM_cons, InnerStatement.run, keeps.count, bind_assoc]
  apply (Tracks.refl _).bind
  rintro _ _ rfl
  exact .pure shows

/-- Slots that are declared before anything is read are empty already. -/
theorem foldlM_declarations (fields : List (Field Code)) (count : Nat) :
    (declarations fields).foldlM (ReadStatement.run lookup inner type)
      { Frame.start with count } = pure { Frame.start with count } := by
  rw [declarations]
  induction (writtenFields fields).map target with
  | nil => rfl
  | cons target targets ih =>
      have same : ({ Frame.start with count } : Frame).assign target.place none =
          { Frame.start with count } := by
        simp [Frame.assign, Frame.start]
      rw [List.map_cons, List.foldlM_cons, ReadStatement.run, pure_bind, same, ih]

/-- Reads the inside of a structure with a count, and then makes the values of fields. -/
theorem run_nested (typeName : String) {body : List InnerStatement} {count : Nat}
    {read : Decode σ (List (Option Datum))}
    (tracks : Tracks (fun after found => after.Shows 0 fields found)
      (ReadStatement.run lookup inner type { Frame.start with count } (.nested body)) read) :
    (do let frame ← (declarations fields ++ [ReadStatement.nested body]).foldlM
          (ReadStatement.run lookup inner type) { Frame.start with count }
        lift (Read.ofExcept ((fields.zipIdx.map (fieldValue typeName)).mapM
          fun member => member.2.eval type catalog frame)) : Decode σ (List Datum)) =
      (do let found ← read
          lift (Read.ofExcept
            (Decode.construct catalog typeName (fields.map (Field.map type)) found))) := by
  rw [List.foldlM_append, foldlM_declarations, pure_bind, List.foldlM_cons]
  simp only [List.foldlM_nil, bind_pure]
  apply Tracks.eq
  apply tracks.bind
  intro frame found shows
  rw [mapM_fieldValue typeName shows]
  exact .refl _

theorem emptyFrom_start (count : Nat) : ({ Frame.start with count } : Frame).EmptyFrom 0 :=
  fun _ _ => rfl

/-- Fields are read from an array of any length, -/
theorem run_readArray (fields : List (Field Code)) (typeName : String) :
    (readArray fields typeName false).run lookup inner type catalog = (do
      let count ← lift Read.arrayHeader
      let found ← Decode.slotsOfArray lookup inner (fields.map (Field.map type)) count
      lift (Read.ofExcept
        (Decode.construct catalog typeName (fields.map (Field.map type)) found))) := by
  have program : (readArray fields typeName false).statements = .arrayCount ::
      (declarations fields ++ [.nested (itemStatements 0 0 fields ++
        [.skipFrom (writtenFields fields).length])]) := rfl
  rw [FieldReading.run, program, List.foldlM_cons, ReadStatement.run, bind_assoc, bind_assoc]
  congr 1
  funext count
  rw [pure_bind]
  exact run_nested typeName (tracks_array (emptyFrom_start count))

/-- or from one of exactly their number. -/
theorem run_readArray_strict (fields : List (Field Code)) (typeName : String) :
    (readArray fields typeName true).run lookup inner type catalog = (do
      lift (Read.arrayOf (writtenFields fields).length typeName)
      let found ← Decode.slotsOfArray lookup inner (fields.map (Field.map type))
        (writtenFields fields).length
      lift (Read.ofExcept
        (Decode.construct catalog typeName (fields.map (Field.map type)) found))) := by
  have program : (readArray fields typeName true).statements = .arrayCount ::
      .expectCount typeName (writtenFields fields).length ::
      (declarations fields ++ [.nested (itemStatements 0 0 fields ++
        [.skipFrom (writtenFields fields).length])]) := rfl
  rw [FieldReading.run, program, List.foldlM_cons, ReadStatement.run, bind_assoc, bind_assoc,
    Read.arrayOf, lift_bind, bind_assoc]
  congr 1
  funext count
  rw [pure_bind, List.foldlM_cons, ReadStatement.run]
  by_cases same : count = (writtenFields fields).length
  · rw [if_pos same, if_pos same, pure_bind, lift_pure, pure_bind, ← same]
    exact same ▸ run_nested typeName (tracks_array (emptyFrom_start count))
  · rw [if_neg same, if_neg same]
    rfl

/-! ## Entries of a map -/

/-- The frame after an entry, which may belong to no field. -/
def Frame.assigned (frame : Frame) : Option (Nat × Datum) → Frame
  | none => frame
  | some (place, value) => frame.assign place (some value)

/-- A slot holds the last value that was assigned to it. -/
theorem slots_foldl_assigned (assignments : List (Option (Nat × Datum))) (place : Nat) :
    (assignments.foldl Frame.assigned frame).slots place =
      (((assignments.filterMap id).reverse.find? fun assigned => assigned.1 = place).map
        Prod.snd).or (frame.slots place) := by
  induction assignments generalizing frame with
  | nil => rfl
  | cons assignment assignments ih =>
      rw [List.foldl_cons, ih]
      rcases assignment with _ | ⟨other, value⟩
      · rfl
      · have entry : (some (other, value) :: assignments).filterMap id =
            (other, value) :: assignments.filterMap id := rfl
        rw [entry, List.reverse_cons, List.find?_append, Option.map_or, Option.or_assoc]
        by_cases same : other = place
        · simp [Frame.assigned, Frame.assign, same]
        · simp [Frame.assigned, Frame.assign, same, Ne.symm same]

/-- The field of a key, by the types as they are written. -/
theorem fieldOf?_map (key : String) :
    Decode.fieldOf? (fields.map (Field.map type)) key =
      ((writtenFields fields).find? fun placed => placed.1.key = key).map fun placed =>
        (Field.map type placed.1, placed.2) := by
  have same (placed : Field Code × Nat) :
      ((fun placed => !placed.1.skip && placed.1.key == key) ∘
          Prod.map (Field.map type) id) placed =
        decide ((!placed.1.skip) = true ∧ decide (placed.1.key = key) = true) := by
    simp [Field.map]
    rfl
  rw [Decode.fieldOf?, List.zipIdx_map, List.find?_map, writtenFields, List.find?_filter,
    funext same]
  rfl

/-- Whether an entry belongs to a field that is written, if it belongs to one. -/
def Assigns (fields : List (Field Code)) (assignment : Option (Nat × Datum)) : Prop :=
  ∀ assigned, assignment = some assigned →
    ∃ field, fields[assigned.1]? = some field ∧ field.skip = false

theorem tracks_entry (frame : Frame) :
    Tracks (fun after assignment => after = frame.assigned assignment ∧ Assigns fields assignment)
      (runEntry lookup inner type
        ((writtenFields fields).map fun placed => (placed.1.key, target placed)) frame)
      (Decode.assignment lookup inner (fields.map (Field.map type))) := by
  apply (Tracks.refl _).bind
  rintro key _ rfl
  rw [fieldOf?_map, List.find?_map]
  cases held : (writtenFields fields).find? fun placed => placed.1.key = key with
  | none =>
      have unheld : (writtenFields fields).find? ((fun arm => decide (arm.1 = key)) ∘
          fun placed => (placed.1.key, target placed)) = none := held
      rw [unheld]
      apply (Tracks.refl _).bind
      rintro _ _ rfl
      exact .pure ⟨rfl, nofun⟩
  | some placed =>
      have found : (writtenFields fields).find? ((fun arm => decide (arm.1 = key)) ∘
          fun placed => (placed.1.key, target placed)) = some placed := held
      obtain ⟨member, written⟩ := List.mem_filter.1 (List.mem_of_find?_eq_some held)
      rw [found]
      apply (Tracks.refl _).bind
      rintro value _ rfl
      refine .pure ⟨rfl, ?_⟩
      rintro _ ⟨⟩
      exact ⟨placed.1, List.mem_zipIdx_iff_getElem?.1 member, Bool.not_eq_true' _ ▸ written⟩

/-- Entries are read one after the other. -/
theorem tracks_entries (count : Nat) (frame : Frame) :
    Tracks (fun after assignments => after = assignments.foldl Frame.assigned frame ∧
        ∀ assignment ∈ assignments, Assigns fields assignment)
      (repeated (runEntry lookup inner type
        ((writtenFields fields).map fun placed => (placed.1.key, target placed))) count frame)
      (Loop.times count (Decode.assignment lookup inner (fields.map (Field.map type)))) := by
  induction count generalizing frame with
  | zero => exact .pure ⟨rfl, nofun⟩
  | succ count ih =>
      rw [repeated, Loop.times_succ]
      apply (tracks_entry frame).bind
      rintro _ assignment ⟨rfl, first⟩
      exact (ih (frame.assigned assignment)).mapRight _ fun after assignments held =>
        ⟨held.1, List.forall_mem_cons.2 ⟨first, held.2⟩⟩

/-- What the slots hold, place by place. -/
theorem shows_of_slots {place : Nat} {found : List (Option Datum)}
    (each : ∀ other (inside : other < fields.length), found[other]?.join =
      if fields[other].skip then none else frame.slots (place + other)) :
    frame.Shows place fields found := by
  induction fields generalizing place found with
  | nil => trivial
  | cons field fields ih =>
      refine ⟨?_, ih fun other inside => ?_⟩
      · have first := each 0 (Nat.succ_pos _)
        rwa [← List.head?_eq_getElem?] at first
      · have next := each (other + 1) (Nat.succ_lt_succ inside)
        rw [← List.getElem?_tail] at next
        rw [Nat.add_assoc, Nat.add_comm 1 other]
        exact next

/-- Every slot holds the last value that was assigned to its field. -/
theorem shows_lastAssigned {count : Nat} {assignments : List (Option (Nat × Datum))}
    (written : ∀ assignment ∈ assignments, Assigns fields assignment) :
    (assignments.foldl Frame.assigned { Frame.start with count }).Shows 0 fields
      (Decode.lastAssigned (fields.map (Field.map type)) (assignments.filterMap id)) := by
  apply shows_of_slots
  intro place inside
  have last : (Decode.lastAssigned (fields.map (Field.map type))
      (assignments.filterMap id))[place]?.join =
        ((assignments.filterMap id).reverse.find? fun assigned => assigned.1 = place).map
          Prod.snd := by
    rw [Decode.lastAssigned, List.getElem?_map, List.length_map, List.getElem?_range inside]
    rfl
  rw [last, Nat.zero_add]
  split
  case isTrue skip =>
    rw [Option.map_eq_none_iff, List.find?_eq_none]
    intro assigned member here
    obtain ⟨assignment, held, same⟩ := List.mem_filterMap.1 (List.mem_reverse.1 member)
    obtain ⟨field, known, kept⟩ := written assignment held assigned same
    rw [of_decide_eq_true here, List.getElem?_eq_getElem inside] at known
    cases known
    exact Bool.false_ne_true (kept.symm.trans skip)
  case isFalse =>
    rw [slots_foldl_assigned]
    exact (Option.or_none).symm

theorem run_readMap (fields : List (Field Code)) (typeName : String) :
    (readMap fields typeName).run lookup inner type catalog = (do
      let found ← Decode.slotsOfMap lookup inner (fields.map (Field.map type))
      lift (Read.ofExcept
        (Decode.construct catalog typeName (fields.map (Field.map type)) found))) := by
  have program : (readMap fields typeName).statements = .mapCount :: (declarations fields ++
      [.nested [.entries ((writtenFields fields).map fun placed =>
        (placed.1.key, target placed))]]) := rfl
  rw [FieldReading.run, program, List.foldlM_cons, ReadStatement.run, bind_assoc, bind_assoc,
    Decode.slotsOfMap, bind_assoc]
  congr 1
  funext count
  rw [pure_bind]
  apply run_nested typeName
  rw [ReadStatement.run, List.foldlM_cons]
  simp only [List.foldlM_nil, bind_pure, InnerStatement.run]
  exact (tracks_entries count _).nested.mapRight _ fun after assignments held =>
    held.1 ▸ shows_lastAssigned held.2

/-! ## Programs -/

/-- A number finds the item that has it. -/
theorem find?_zipIdx (items : List α) (start index : Nat) :
    (items.zipIdx start).find? (fun numbered => numbered.2 = start + index) =
      items[index]?.map fun item => (item, start + index) := by
  induction items generalizing start index with
  | nil => rfl
  | cons item items ih =>
      rw [List.zipIdx_cons]
      cases index with
      | zero => simp
      | succ index =>
          have next := ih (start + 1) index
          rw [Nat.add_assoc, Nat.add_comm 1 index] at next
          rw [List.find?_cons_of_neg (by simp), next, List.getElem?_cons_succ]

theorem find?_numbered (variants : List (Variant Code)) (index : Nat) :
    (numberedVariants variants).find? (fun numbered => numbered.2.index = index) =
      variants[index]?.map fun variant => (variant, ⟨variant.identifier, index⟩) := by
  have found := find?_zipIdx variants 0 index
  rw [Nat.zero_add] at found
  rw [numberedVariants, List.find?_map]
  exact (congrArg _ found).trans (Option.map_map _ _ _)

/-- The arm of a number is the one of the variant that has it. -/
theorem find?_indexArms (variants : List (Variant Code)) (arm : Variant Code × VariantName → β)
    (index : Nat) :
    ((numberedVariants variants).map fun numbered => (numbered.2.index, arm numbered)).find?
        (fun arm => arm.1 = index) =
      variants[index]?.map fun variant => (index, arm (variant, ⟨variant.identifier, index⟩)) := by
  rw [List.find?_map]
  exact (congrArg _ (find?_numbered variants index)).trans (Option.map_map _ _ _)

/-- The arm of a name is the one of the first variant that has it. -/
theorem find?_nameArms (variants : List (Variant Code)) (chosen : String) :
    (((numberedVariants variants).map fun numbered => (numbered.1.name, numbered.2)).find?
        fun arm => arm.1 = chosen).map (fun arm => arm.2.index) =
      (variants.map (Variant.map type)).findIdx? fun variant => variant.name = chosen := by
  rw [List.find?_map, numberedVariants, List.find?_map, Option.map_map, Option.map_map,
    List.findIdx?_map, List.findIdx?_eq_fst_find?_zipIdx]
  rfl

/-- The payload of a variant is read as that of the variant of the definition. -/
theorem payload_map (name : String) (variant : Variant Code) :
    Decode.payload lookup catalog inner name (variant.map type) =
      match variant.fields with
      | none => do
          lift Read.nil
          return []
      | some fields =>
          (readArray fields (variant.qualifiedName name) true).run lookup inner type catalog := by
  rcases variant with ⟨identifier, wire, _ | fields⟩
  · rfl
  · simp only [run_readArray_strict, ← length_writtenFields fields type]
    rfl

/-- The program that is derived to read variants with payloads does what their definition says. -/
theorem run_readProgram_tagged (name : String) (variants : List (Variant Code)) :
    (readProgram name (.tagged variants)).run lookup inner type catalog name =
      Decode.defined lookup catalog inner ⟨name, (Layout.tagged variants).mapTypes type⟩ := by
  rw [readProgram, ReadProgram.run, Layout.mapTypes, Decode.defined]
  simp only
  rw [Read.arrayOf, lift_bind, bind_assoc]
  congr 1
  funext count
  by_cases pair : count = 2
  · rw [if_pos pair, if_pos pair, lift_pure, pure_bind]
    congr 1
    rw [Decode.tagged]
    congr 1
    funext number
    dsimp only
    rw [find?_indexArms, Decode.variantOf, List.getElem?_map]
    rcases variants[number.toNat]? with _ | variant
    · rfl
    · have chosen : lift (Read.ofExcept (.ok (variant.map type))) =
          (pure (variant.map type) : Decode σ (Variant Schema)) := rfl
      simp only [Option.map_some]
      rw [chosen, pure_bind, payload_map]
      cases variant.fields with
      | none =>
          simp only [Option.map_none, bind_assoc, pure_bind]
      | some fields => rfl
  · rw [if_neg pair, if_neg pair]
    rfl

/-- The program that is derived to read a type does what the definition of the type says. -/
theorem run_readProgram (name : String) (layout : Layout Code) :
    (readProgram name layout).run lookup inner type catalog name =
      Decode.defined lookup catalog inner ⟨name, layout.mapTypes type⟩ := by
  cases layout with
  | unit => rfl
  | array fields =>
      rw [readProgram, ReadProgram.run, run_readArray, Layout.mapTypes, Decode.defined]
      simp only [bind_assoc]
  | map fields =>
      rw [readProgram, ReadProgram.run, run_readMap, Layout.mapTypes, Decode.defined]
      simp only [bind_assoc]
  | byIndex variants =>
      rw [readProgram, ReadProgram.run, Layout.mapTypes, Decode.defined]
      congr 1
      funext number
      dsimp only
      rw [find?_indexArms, Decode.variantOf, List.getElem?_map]
      cases variants[number.toNat]? <;> rfl
  | byName variants =>
      rw [readProgram, ReadProgram.run, Layout.mapTypes, Decode.defined]
      congr 1
      funext chosen
      rw [← find?_nameArms]
      cases List.find? _ _ <;> rfl
  | tagged variants => exact run_readProgram_tagged name variants

end MsgPack.Derive
