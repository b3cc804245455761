import MsgPack.Proofs.Formatter.Simulation

/-!
# Formatters where more names are known

What a lookup answers may depend on its memory.  From one memory to another it may come to know
more names of types, while the formatters that it gives and the names that it knew stay the
same.  What is written or read with the first memory is then written or read with the second one
as well: as the same bytes, and as the same value.

Nothing is said of failures: a name may be new.
-/

namespace MsgPack

variable {ρ σ α : Type}

/-- Whether a relation leads from memories to memories in which the lookup gives the same
formatters and knows at least the names that it knew, now and after further questions. -/
structure Lookup.GrowsAlong (lookup : Lookup σ) (grown : σ → σ → Prop) : Prop where
  find : ∀ {memory later : σ} (type : Schema), grown memory later →
    (lookup.find type later).1 = (lookup.find type memory).1 ∧
      grown (lookup.find type memory).2 (lookup.find type later).2
  byName : ∀ {memory later : σ} (registry : Option Nat) {name : String} {handle : TypeHandle},
    grown memory later → (lookup.names registry memory).byName? name = some handle →
      (lookup.names registry later).byName? name = some handle
  byType : ∀ {memory later : σ} (registry : Option Nat) {type : Schema} {handle : TypeHandle},
    grown memory later → (lookup.names registry memory).byType? type = some handle →
      (lookup.names registry later).byType? type = some handle
  note : ∀ {memory later : σ} (number : Nat) (type : Schema), grown memory later →
    grown (lookup.note number type memory) (lookup.note number type later)

/-- A lookup mirrors itself where more names are known, as far as only successes count. -/
theorem Lookup.GrowsAlong.mirrors {lookup : Lookup σ} {grown : σ → σ → Prop}
    (grows : lookup.GrowsAlong grown) : lookup.Mirrors lookup False grown where
  chain := False.elim
  find type step := by
    obtain ⟨same, after⟩ := grows.find type step
    exact ⟨same.symm, after⟩
  names registry step :=
    ⟨fun known => grows.byName registry step known, fun known => grows.byType registry step known,
      False.elim⟩
  note number type step := grows.note number type step

namespace Session

variable {grown : σ → σ → Prop}

/-- A computation that succeeds with a memory succeeds with every grown one, with the same
result, and leaves the same behind. -/
def Lasts (grown : σ → σ → Prop) (step : EStateM Error (Session ρ σ) α) : Prop :=
  ∀ (state after : ρ) (memory kept later : σ) (result : α), grown memory later →
    step ⟨state, memory⟩ = .ok result ⟨after, kept⟩ →
      ∃ last, step ⟨state, later⟩ = .ok result ⟨after, last⟩ ∧ grown kept last

namespace Lasts

theorem of_ok {step : EStateM Error (Session ρ σ) α} (lasts : Lasts grown step)
    {state after : ρ} {memory kept later : σ} {result : α} (grows : grown memory later)
    (ok : step ⟨state, memory⟩ = .ok result ⟨after, kept⟩) :
    ∃ last, step ⟨state, later⟩ = .ok result ⟨after, last⟩ ∧ grown kept last :=
  lasts state after memory kept later result grows ok

theorem of_mirrors {step : EStateM Error (Session ρ σ) α}
    (mirrors : Mirrors False grown step step) : Lasts grown step :=
  fun _ _ _ _ _ _ grows ok => mirrors.of_ok grows ok

end Lasts

end Session

variable {lookup : Lookup σ} {grown : σ → σ → Prop}

/-- A value of any type that is read is read in the same way where more names are known. -/
theorem Decode.lasts_value (grows : lookup.GrowsAlong grown) (catalog : Catalog) (type : Schema) :
    Session.Lasts grown (value lookup catalog type) :=
  .of_mirrors (mirrors_value grows.mirrors catalog type)

/-- A datum of any type that is written is written in the same way where more names are
known. -/
theorem Encode.lasts_value (grows : lookup.GrowsAlong grown) (catalog : Catalog) (type : Schema)
    (content : Datum) : Session.Lasts grown (value lookup catalog type content) :=
  .of_mirrors (mirrors_value grows.mirrors catalog type content)

end MsgPack
