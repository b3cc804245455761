/-!
# Dictionaries

A dictionary is a list of keys with their values, each key once.  A value that is inserted takes
the place of any that its key had.  Nothing that is promised of a dictionary depends on the order
of its entries.
-/

namespace MsgPack.Dictionary

variable {κ α : Type} [DecidableEq κ]

/-- The value of a key. -/
def get? (entries : List (κ × α)) (key : κ) : Option α :=
  (entries.find? fun entry => entry.1 = key).map (·.2)

/-- Gives a key a value, in place of any that it had. -/
def insert (entries : List (κ × α)) (key : κ) (value : α) : List (κ × α) :=
  (key, value) :: entries.filter fun entry => entry.1 ≠ key

@[simp]
theorem get?_nil (key : κ) : get? ([] : List (κ × α)) key = none :=
  rfl

theorem get?_cons (entries : List (κ × α)) (key wanted : κ) (value : α) :
    get? ((key, value) :: entries) wanted =
      if key = wanted then some value else get? entries wanted := by
  by_cases same : key = wanted <;> simp [get?, same]

/-- Entries of other keys do not matter. -/
theorem get?_filter {entries : List (κ × α)} {key wanted : κ} (other : key ≠ wanted) :
    get? (entries.filter fun entry => entry.1 ≠ key) wanted = get? entries wanted := by
  induction entries with
  | nil => rfl
  | cons entry entries ih =>
      obtain ⟨first, value⟩ := entry
      rw [get?_cons]
      by_cases same : first = key
      · subst same
        rw [List.filter_cons_of_neg (by simp), ih, if_neg other]
      · rw [List.filter_cons_of_pos (by simpa using same), get?_cons, ih]

/-- The value that was inserted last is the one that is found. -/
theorem get?_insert (entries : List (κ × α)) (key wanted : κ) (value : α) :
    get? (insert entries key value) wanted =
      if key = wanted then some value else get? entries wanted := by
  rw [insert, get?_cons]
  by_cases same : key = wanted
  · rw [if_pos same, if_pos same]
  · rw [if_neg same, if_neg same, get?_filter same]

/-- Just the keys of entries have values. -/
theorem isSome_get? {entries : List (κ × α)} {key : κ} :
    (get? entries key).isSome ↔ key ∈ entries.map Prod.fst := by
  induction entries with
  | nil => simp
  | cons entry entries ih =>
      obtain ⟨first, value⟩ := entry
      rw [get?_cons, List.map_cons, List.mem_cons]
      by_cases same : first = key
      · simp [same]
      · rw [if_neg same, ih]
        simp [Ne.symm same]

theorem get?_eq_none {entries : List (κ × α)} {key : κ} :
    get? entries key = none ↔ key ∉ entries.map Prod.fst := by
  rw [← isSome_get?, Bool.not_eq_true, Option.isSome_eq_false_iff, Option.isNone_iff_eq_none]

/-- No entry stands in the way of a new key. -/
theorem insert_of_notMem {entries : List (κ × α)} {key : κ} (fresh : key ∉ entries.map Prod.fst)
    (value : α) : insert entries key value = (key, value) :: entries := by
  have all : ∀ entry ∈ entries, decide (entry.1 ≠ key) = true := by
    intro entry member
    have apart : entry.1 ≠ key := fun same => fresh (same ▸ List.mem_map_of_mem member)
    exact decide_eq_true apart
  rw [insert, List.filter_eq_self.2 all]

end MsgPack.Dictionary
