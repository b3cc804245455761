import MsgPack.Formatter.Resolver
import MsgPack.Proofs.Formatter.Growth
import MsgPack.Proofs.Formatter.Takes
import MsgPack.Proofs.Formatter.TypeRegistry

/-!
# What resolvers answer

A builtin place keeps what it was asked, and a formatter of typeless values notes the types it
has dealt with.  Neither can be seen from outside: a store shows the same after every lookup.
Registering names of types is different.  The store then shows registries that have grown, and
all else as before.
-/

namespace MsgPack

namespace Store

variable {catalog : Catalog} {store later : Store}

/-! ## What a store shows -/

/-- What a store shows to those who ask it, whatever its places keep. -/
structure View where
  /-- The formatters of each registry. -/
  formatters : Nat → List (Schema × Formatter)
  /-- What each builtin place answers. -/
  answers : Nat → Schema → Option Formatter
  /-- The registries of names. -/
  names : Option Nat → TypeRegistry

/-- What a store shows. -/
def view (catalog : Catalog) (store : Store) : View where
  formatters := store.formatters
  answers number type := (store.ask catalog number type).1
  names := store.names.registry

/-- Whether a second store shows what a first one does, with registries of names that have
grown by registrations, of which some may have failed. -/
structure Grown (catalog : Catalog) (store later : Store) : Prop where
  formatters : (later.view catalog).formatters = (store.view catalog).formatters
  answers : (later.view catalog).answers = (store.view catalog).answers
  names : ∀ number, ∃ handles,
    (later.view catalog).names number = ((store.view catalog).names number).after handles

theorem Grown.refl (store : Store) : Grown catalog store store :=
  ⟨rfl, rfl, fun _ => ⟨[], rfl⟩⟩

/-- Growth is told from what stores show. -/
theorem Grown.congr {before after : Store} (grown : Grown catalog store later)
    (first : before.view catalog = store.view catalog)
    (second : after.view catalog = later.view catalog) : Grown catalog before after := by
  constructor
  · rw [first, second, grown.formatters]
  · rw [first, second, grown.answers]
  · rw [first, second]
    exact grown.names

theorem Grown.trans {middle : Store} (first : Grown catalog store middle)
    (second : Grown catalog middle later) : Grown catalog store later := by
  constructor
  · rw [second.formatters, first.formatters]
  · rw [second.answers, first.answers]
  · intro number
    obtain ⟨earlier, start⟩ := first.names number
    obtain ⟨further, rest⟩ := second.names number
    refine ⟨earlier ++ further, ?_⟩
    rw [rest, start, TypeRegistry.after_append]

/-! ## Places that keep answers -/

/-- A builtin place answers what it answered before, and else with the formatter that the type
brings. -/
theorem ask_fst (catalog : Catalog) (store : Store) (number : Nat) (type : Schema) :
    (store.ask catalog number type).1 =
      (Dictionary.get? (store.asked number) type).getD (catalog.formatter? type) := by
  rw [ask]
  cases Dictionary.get? (store.asked number) type <;> rfl

/-- A place that keeps an answer answers as before. -/
theorem get?_asked_ask (catalog : Catalog) (store : Store) (number : Nat) (type : Schema)
    (place : Nat) (wanted : Schema) :
    (Dictionary.get? ((store.ask catalog number type).2.asked place) wanted).getD
        (catalog.formatter? wanted) =
      (Dictionary.get? (store.asked place) wanted).getD (catalog.formatter? wanted) := by
  rw [ask]
  cases kept : Dictionary.get? (store.asked number) type with
  | some known => rfl
  | none =>
      simp only [asked, List.getElem?_set]
      by_cases here : number = place
      · subst here
        by_cases inside : number < store.builtins.length
        · simp only [if_true, if_pos inside, Option.getD_some, Dictionary.get?_insert]
          by_cases same : type = wanted
          · subst same
            rw [asked] at kept
            rw [if_pos rfl, kept, Option.getD_some, Option.getD_none]
          · rw [if_neg same]
        · simp only [if_true, if_neg inside, List.getElem?_eq_none (Nat.le_of_not_lt inside)]
      · simp only [if_neg here]

@[simp]
theorem view_ask (catalog : Catalog) (store : Store) (number : Nat) (type : Schema) :
    (store.ask catalog number type).2.view catalog = store.view catalog := by
  have answers : ((store.ask catalog number type).2.view catalog).answers =
      (store.view catalog).answers := by
    funext place wanted
    simp only [view, ask_fst, get?_asked_ask]
  have others : ((store.ask catalog number type).2.view catalog).formatters =
      (store.view catalog).formatters ∧
        ((store.ask catalog number type).2.view catalog).names = (store.view catalog).names := by
    rw [ask]
    cases Dictionary.get? (store.asked number) type <;> exact ⟨rfl, rfl⟩
  exact View.mk.injEq .. ▸ ⟨others.1, answers, others.2⟩

/-! ## Formatters of typeless values -/

/-- The answers of builtin places do not depend on the registries of names. -/
theorem answers_names (catalog : Catalog) (store : Store) (names : TypeBooks) :
    (view catalog { store with names }).answers = (store.view catalog).answers := by
  funext number type
  simp only [view, ask_fst]
  rfl

/-- To note a type changes no registry. -/
theorem registry_note (names : TypeBooks) (number : Nat) (type : Schema) :
    (names.note number type).registry = names.registry := by
  rw [TypeBooks.note]
  cases there : names.books[number]? with
  | none => rfl
  | some book =>
      simp only
      split
      · rfl
      funext place
      cases place with
      | none => rfl
      | some place =>
          obtain ⟨inside, _⟩ := List.getElem?_eq_some_iff.1 there
          simp only [TypeBooks.registry, List.getElem?_set]
          by_cases here : number = place
          · subst here
            simp only [if_true, if_pos inside, there]
          · simp only [if_neg here]

@[simp]
theorem view_note (catalog : Catalog) (store : Store) (number : Nat) (type : Schema) :
    view catalog { store with names := store.names.note number type } = store.view catalog :=
  View.mk.injEq .. ▸ ⟨rfl, answers_names .., registry_note ..⟩

/-- A registry in the place of another one, or of none. -/
theorem registry_replace (names : TypeBooks) (registry : TypeRegistry) (number place : Option Nat) :
    (names.replace registry number).registry place = names.registry place ∨
      number = place ∧ (names.replace registry number).registry place = registry := by
  cases number with
  | none =>
      cases place with
      | none => exact .inr ⟨rfl, rfl⟩
      | some place => exact .inl rfl
  | some number =>
      cases place with
      | none => exact .inl rfl
      | some place =>
          simp only [TypeBooks.replace, TypeBooks.registry, List.getElem?_modify]
          by_cases here : number = place
          · subst here
            cases names.books[number]? with
            | none => exact .inl rfl
            | some book => exact .inr ⟨rfl, by simp⟩
          · left
            cases names.books[place]? <;> simp [here]

/-- The store after an attempt to register a type name.  A refusal changes nothing. -/
def attempt (store : Store) (number : Option Nat) (handle : TypeHandle) : Store :=
  match store.registerType number handle with
  | .ok after => after
  | .error _ => store

/-- Registering a type name changes the registry that it is for, and nothing else. -/
theorem grown_attempt (catalog : Catalog) (store : Store) (number : Option Nat)
    (handle : TypeHandle) : Grown catalog store (store.attempt number handle) := by
  cases registered : TypeRegistry.register handle (store.names.registry number) with
  | error failure refused =>
      have still : store.attempt number handle = store := by
        simp only [attempt, registerType, TypeBooks.register, registered]
        rfl
      rw [still]
      exact .refl store
  | ok entered registry =>
      have changed : store.attempt number handle =
          { store with names := store.names.replace registry number } := by
        simp only [attempt, registerType, TypeBooks.register, registered]
        rfl
      rw [changed]
      refine ⟨rfl, answers_names .., fun place => ?_⟩
      rcases registry_replace store.names registry number place with same | ⟨rfl, entered⟩
      · exact ⟨[], same⟩
      · refine ⟨[handle], entered.trans ?_⟩
        simp only [view, TypeRegistry.after, List.foldl, TypeRegistry.attempt, registered]

/-- The store after attempts to register type names, one after the other. -/
def attempts (store : Store) (registrations : List (Option Nat × TypeHandle)) : Store :=
  registrations.foldl (fun reached each => reached.attempt each.1 each.2) store

theorem grown_attempts (catalog : Catalog) (store : Store)
    (registrations : List (Option Nat × TypeHandle)) :
    Grown catalog store (store.attempts registrations) := by
  induction registrations generalizing store with
  | nil => exact .refl store
  | cons first registrations ih => exact (grown_attempt catalog store first.1 first.2).trans (ih _)

end Store

/-! ## Resolvers -/

namespace Resolver

variable (catalog : Catalog) (type : Schema)

mutual

/-- Looking for a formatter changes nothing that a store shows. -/
theorem view_find : ∀ (resolver : Resolver) (store : Store),
    (find catalog type resolver store).2.view catalog = store.view catalog
  | registry _ _, _ => rfl
  | builtin number, store => store.view_ask catalog number type
  | composite _ members, store => view_findFirst members store

theorem view_findFirst : ∀ (members : List Resolver) (store : Store),
    (findFirst catalog type members store).2.view catalog = store.view catalog
  | [], _ => rfl
  | member :: members, store => by
      have first := view_find member store
      rw [findFirst]
      split
      · rename_i formatter after found
        rw [found] at first
        exact first
      · rename_i after missed
        rw [missed] at first
        exact (view_findFirst members after).trans first

end

mutual

/-- A resolver finds the same formatters where more names are known. -/
theorem find_eq_of_grown : ∀ (resolver : Resolver) {store later : Store},
    Store.Grown catalog store later →
      (find catalog type resolver later).1 = (find catalog type resolver store).1
  | registry _ number, _, _, grown =>
      congrArg (Dictionary.get? · type) (congrFun grown.formatters number)
  | builtin number, _, _, grown => congrFun (congrFun grown.answers number) type
  | composite _ members, _, _, grown => findFirst_eq_of_grown members grown

theorem findFirst_eq_of_grown : ∀ (members : List Resolver) {store later : Store},
    Store.Grown catalog store later →
      (findFirst catalog type members later).1 = (findFirst catalog type members store).1
  | [], _, _, _ => rfl
  | member :: members, store, later, grown => by
      have first := find_eq_of_grown member grown
      have before := view_find catalog type member store
      have after := view_find catalog type member later
      rw [findFirst, findFirst]
      generalize find catalog type member store = one at first before ⊢
      generalize find catalog type member later = two at first after ⊢
      obtain ⟨found, kept⟩ := one
      obtain ⟨found', kept'⟩ := two
      cases first
      cases found with
      | some formatter => rfl
      | none =>
          exact findFirst_eq_of_grown members (grown.congr before after)

end

/-- Where more names are known, a resolver gives the same formatters, and the names that were
known still stand for the same types. -/
theorem growsAlong (resolver : Resolver) :
    (resolver.lookup catalog).GrowsAlong (Store.Grown catalog) where
  find type grown := ⟨find_eq_of_grown catalog type resolver grown,
    grown.congr (view_find catalog type resolver _) (view_find catalog type resolver _)⟩
  byName number name handle grown known := by
    obtain ⟨handles, same⟩ := grown.names number
    have still := TypeRegistry.byName?_after known handles
    exact (congrArg (·.byName? name) same).trans still
  byType number type handle grown known := by
    obtain ⟨handles, same⟩ := grown.names number
    have still := TypeRegistry.byType?_after known handles
    exact (congrArg (·.byType? type) same).trans still
  note number type grown := grown.congr (Store.view_note ..) (Store.view_note ..)

/-- A formatter that is found once is found in all stores that show the same. -/
theorem gives_of_find {resolver : Resolver} {store : Store} {formatter : Formatter}
    (found : (find catalog type resolver store).1 = some formatter) :
    (resolver.lookup catalog).Gives (fun memory => memory.view catalog = store.view catalog) type
      formatter := by
  intro memory same
  have grown : store.Grown catalog memory := (Store.Grown.refl store).congr rfl same
  exact ⟨(find_eq_of_grown catalog type resolver grown).trans found,
    (view_find catalog type resolver memory).trans same⟩

/-- The same for stores that have all grown from a first one. -/
theorem growsAlong_from (resolver : Resolver) (store : Store) :
    (resolver.lookup catalog).GrowsAlong fun memory later =>
      Store.Grown catalog store memory ∧ Store.Grown catalog memory later where
  find type grown := by
    obtain ⟨same, grows⟩ := (growsAlong catalog resolver).find type grown.2
    exact ⟨same, grown.1.congr rfl (view_find catalog type resolver _), grows⟩
  byName number _ _ grown := (growsAlong catalog resolver).byName number grown.2
  byType number _ _ grown := (growsAlong catalog resolver).byType number grown.2
  note number type grown :=
    ⟨grown.1.congr rfl (Store.view_note ..), (growsAlong catalog resolver).note number type grown.2⟩

end Resolver

end MsgPack
