import MsgPack.Proofs.Derive.Layout

/-!
# Lists of options

What a list of options is, said without reading it: options with commas between them, where a comma
may also stand after the last one.  Reading accepts exactly these lists.  So the attributes of one
place have options just if each of them that is not foreign holds such a list, and then they give
the options that stand in one of the lists.
-/

namespace MsgPack.Derive

/-! ## Lists -/

/-- The tokens of an option, for each place where it may stand. -/
inductive Setting.Spelled : Scope → Code → Setting → Prop where
  | map : Spelled .container [.word "map"] .map
  | asString : Spelled .container [.word "as_string"] .asString
  | rename {spelling name : String} :
      Spelled .field [.word "rename", .mark '=', .string spelling name] (.rename name)
  | skip : Spelled .field [.word "skip"] .skip
  | lenient : Spelled .field [.word "default"] .lenient

/-- The tokens of options with commas between them.  A comma may stand after the last option. -/
inductive Setting.Lists (scope : Scope) : Code → List Setting → Prop where
  | nil : Lists scope [] []
  | last {tokens : Code} {setting : Setting} (spelled : Spelled scope tokens setting) :
      Lists scope tokens [setting]
  | cons {tokens rest : Code} {setting : Setting} {settings : List Setting}
      (spelled : Spelled scope tokens setting) (others : Lists scope rest settings) :
      Lists scope (tokens ++ .mark ',' :: rest) (setting :: settings)

namespace Setting

variable {scope : Scope} {tokens code : Code} {setting : Setting} {settings : List Setting}

namespace Spelled

theorem listed (spelled : Spelled scope tokens setting) :
    Setting.listed scope tokens = .ok [setting] := by
  cases spelled <;> rfl

/-- After an option and a comma the other options are read. -/
theorem listed_append (spelled : Spelled scope tokens setting) (rest : Code) :
    Setting.listed scope (tokens ++ .mark ',' :: rest) = (do
      return setting :: (← Setting.listed scope rest)) := by
  cases spelled <;> rfl

theorem of_flag {name : String} (known : flag? scope name = some setting) :
    Spelled scope [.word name] setting := by
  unfold flag? at known
  split at known <;> cases known
  · exact .map
  · exact .asString
  · exact .skip
  · exact .lenient

theorem of_takesName {word : String} (takes : takesName scope word = true)
    (spelling name : String) :
    Spelled scope [.word word, .mark '=', .string spelling name] (.rename name) := by
  simp only [takesName, Bool.and_eq_true, decide_eq_true_eq] at takes
  rcases takes with ⟨rfl, rfl⟩
  exact .rename

end Spelled

/-- Reading accepts the lists of options and nothing else. -/
theorem listed_eq_ok_iff :
    Setting.listed scope code = .ok settings ↔ Lists scope code settings := by
  constructor
  · intro ok
    -- Three cases succeed for a name and for a flag each: the end, a comma, and nothing at all.
    fun_induction Setting.listed scope code generalizing settings with
    | case1 =>
        cases ok
        exact .nil
    | case3 _ _ takes spelling name =>
        cases ok
        exact .last (.of_takesName takes spelling name)
    | case4 _ _ takes spelling name rest ih =>
        rcases bind_eq_ok.1 ok with ⟨others, read, ok⟩
        cases ok
        exact .cons (.of_takesName takes spelling name) (ih read)
    | case10 _ _ _ _ known =>
        cases ok
        exact .last (.of_flag known)
    | case11 _ _ _ _ rest known ih =>
        rcases bind_eq_ok.1 ok with ⟨others, read, ok⟩
        cases ok
        exact .cons (.of_flag known) (ih read)
    | _ => cases ok
  · intro lists
    induction lists with
    | nil => rfl
    | last spelled => exact spelled.listed
    | cons spelled _ ih =>
        rw [spelled.listed_append, ih]
        rfl

/-- A list of options can be read in one way only. -/
theorem Lists.unique {others : List Setting} (lists : Lists scope code settings)
    (lists' : Lists scope code others) : settings = others :=
  Except.ok.inj ((listed_eq_ok_iff.2 lists).symm.trans (listed_eq_ok_iff.2 lists'))

end Setting

/-! ## Attributes -/

namespace Attribute

variable {scope : Scope} {given : Attribute} {attributes : List Attribute}
variable {setting : Setting} {settings : List Setting}

/-- An attribute that is not foreign holds a list of options. -/
def Holds (scope : Scope) (given : Attribute) (settings : List Setting) : Prop :=
  given.isOwn = true ∧ ∃ tokens, given.arguments = .listed tokens ∧
    Setting.Lists scope tokens settings

/-- Whether an attribute holds a list of options, if it is not foreign. -/
def IsListed (scope : Scope) (given : Attribute) : Prop :=
  given.isOwn = true → ∃ settings, given.Holds scope settings

/-- Whether one of the attributes of a place gives an option. -/
def Gives (scope : Scope) (attributes : List Attribute) (setting : Setting) : Prop :=
  ∃ given ∈ attributes, ∃ settings, given.Holds scope settings ∧ setting ∈ settings

theorem Holds.unique {others : List Setting} (holds : given.Holds scope settings)
    (holds' : given.Holds scope others) : settings = others := by
  rcases holds with ⟨_, tokens, listed, lists⟩
  rcases holds' with ⟨_, tokens', listed', lists'⟩
  cases listed.symm.trans listed'
  exact lists.unique lists'

theorem settings_eq_ok_iff (own : given.isOwn = true) :
    given.settings scope = .ok settings ↔ given.Holds scope settings := by
  rw [Attribute.settings, if_pos own]
  cases arguments : given.arguments with
  | absent => simp [Holds, arguments]
  | assigned => simp [Holds, arguments]
  | listed tokens => simp [Holds, arguments, own, Setting.listed_eq_ok_iff]

theorem settings_foreign (foreign : given.isOwn = false) : given.settings scope = .ok [] := by
  rw [Attribute.settings, foreign, if_neg Bool.false_ne_true]

/-- The options of a place can be read just if each attribute that is not foreign holds a list of
them. -/
theorem exists_allSettings_iff :
    (∃ settings, allSettings scope attributes = .ok settings) ↔
      ∀ given ∈ attributes, given.IsListed scope := by
  induction attributes with
  | nil => simp [allSettings]
  | cons given attributes ih =>
      rw [List.forall_mem_cons, ← ih]
      constructor
      · rintro ⟨settings, ok⟩
        rcases bind_eq_ok.1 ok with ⟨first, read, ok⟩
        rcases bind_eq_ok.1 ok with ⟨others, rest, _⟩
        exact ⟨fun own => ⟨first, (settings_eq_ok_iff own).1 read⟩, others, rest⟩
      · rintro ⟨listed, others, rest⟩
        have first : ∃ first, given.settings scope = .ok first := by
          cases own : given.isOwn with
          | false => exact ⟨[], settings_foreign own⟩
          | true => exact (listed own).imp fun _ => (settings_eq_ok_iff own).2
        rcases first with ⟨first, read⟩
        exact ⟨first ++ others, bind_eq_ok.2 ⟨first, read, bind_eq_ok.2 ⟨others, rest, rfl⟩⟩⟩

/-- The options that were read are those that an attribute gives. -/
theorem mem_allSettings (ok : allSettings scope attributes = .ok settings) :
    setting ∈ settings ↔ Gives scope attributes setting := by
  induction attributes generalizing settings with
  | nil =>
      cases ok
      simp [Gives]
  | cons given attributes ih =>
      rcases bind_eq_ok.1 ok with ⟨first, read, ok⟩
      rcases bind_eq_ok.1 ok with ⟨others, rest, ok⟩
      cases ok
      have here : setting ∈ first ↔
          ∃ settings, given.Holds scope settings ∧ setting ∈ settings := by
        cases own : given.isOwn with
        | false =>
            rw [settings_foreign own] at read
            cases read
            simp [Holds, own]
        | true =>
            constructor
            · exact fun member => ⟨first, (settings_eq_ok_iff own).1 read, member⟩
            · rintro ⟨settings, holds, member⟩
              rwa [((settings_eq_ok_iff own).1 read).unique holds]
      rw [List.mem_append, ih rest, here]
      simp only [Gives, List.mem_cons, exists_eq_or_imp]

end Attribute

end MsgPack.Derive
