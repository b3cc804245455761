import MsgPack.Derive.TypeExpression

/-!
# Type expressions in parentheses

What stands behind a type does not change how the type is read, unless it could go on with it: a
separator would go on with a path, and an angle bracket with arguments.  A parenthesis that closes
does neither, so a type in parentheses is the type.
-/

namespace MsgPack.Schema

open Derive

variable {path : String} {given : List (String × Schema)} {fuel : Nat} {more : Code}

/-- A path ends where it ended before a parenthesis closed behind it. -/
theorem segments_append (code more : Code) :
    segments (code ++ .mark ')' :: more) =
      ((segments code).1, (segments code).2 ++ .mark ')' :: more) := by
  fun_induction segments code with
  | case1 word rest words after same ih =>
      rw [same] at ih
      simp only [List.cons_append, segments, ih]
  | case2 word rest other =>
      have ended : ∀ after, rest ++ .mark ')' :: more ≠ .mark ':' :: .mark ':' :: after := by
        intro after same
        rcases rest with _ | ⟨first, _ | ⟨second, rest⟩⟩
        · simp at same
        · simp at same
        · cases same
          exact other _ rfl
      exact segments.eq_2 word _ ended
  | case3 rest _ other =>
      rcases rest with _ | ⟨_ | _ | _ | _, rest⟩
      · rfl
      · exact absurd rfl (other _ rest)
      all_goals rfl

theorem arrayOf_append {item type : Schema} {code rest : Code} (behind : Code)
    (ok : arrayOf item code = some (type, rest)) :
    arrayOf item (code ++ behind) = some (type, rest ++ behind) := by
  unfold arrayOf at ok
  split at ok
  case h_1 =>
    obtain ⟨length, number, result⟩ := Option.bind_eq_some_iff.1 ok
    cases result
    simp [arrayOf, number]
  case h_2 => cases ok

theorem boxOf_append {item type : Schema} {code rest : Code} (behind : Code)
    (ok : boxOf item code = some (type, rest)) :
    boxOf item (code ++ behind) = some (type, rest ++ behind) := by
  unfold boxOf at ok
  split at ok
  case h_1 =>
    cases ok
    rfl
  case h_2 =>
    obtain ⟨length, number, result⟩ := Option.bind_eq_some_iff.1 ok
    cases result
    simp [boxOf, number]
  case h_3 => cases ok

/-- No type begins at the end of code or where a parenthesis closes. -/
theorem ofCodeWithin_eq_none {code : Code}
    (closed : code.head? = none ∨ code.head? = some (.mark ')')) :
    ofCodeWithin path given fuel code = none := by
  cases fuel with
  | zero => rw [ofCodeWithin]
  | succ fuel =>
      rcases closed with ended | closed
      · rw [List.head?_eq_none_iff.1 ended]
        rfl
      · obtain ⟨rest, rfl⟩ := List.head?_eq_some_iff.1 closed
        rfl

/-- What is read in so many steps is read in more steps, too, and to the same end when a parenthesis
closes behind it. -/
structure EndsAlike (path : String) (given : List (String × Schema)) (more : Code)
    (fuel : Nat) : Prop where
  type : ∀ {code rest : Code} {type : Schema},
    ofCodeWithin path given fuel code = some (type, rest) → ∀ {larger : Nat}, fuel ≤ larger →
      ofCodeWithin path given larger (code ++ .mark ')' :: more) =
        some (type, rest ++ .mark ')' :: more)
  items : ∀ {close : Char} {code rest : Code} {items : List Schema} {ended : Bool},
    itemsWithin path given fuel close code = some (items, ended, rest) →
      ∀ {larger : Nat}, fuel ≤ larger →
        itemsWithin path given larger close (code ++ .mark ')' :: more) =
          some (items, ended, rest ++ .mark ')' :: more)

section

variable (inside : EndsAlike path given more fuel) {larger : Nat} (enough : fuel ≤ larger)

include inside enough

theorem ofCodeWithin_word_append {first : String} {code rest : Code} {type : Schema}
    (ok : ofCodeWithin path given (fuel + 1) (.word first :: code) = some (type, rest)) :
    ofCodeWithin path given (larger + 1) (.word first :: code ++ .mark ')' :: more) =
      some (type, rest ++ .mark ')' :: more) := by
  have words := segments_append (.word first :: code) more
  rw [List.cons_append] at words
  simp only [List.cons_append, ofCodeWithin, words] at ok ⊢
  split at ok
  case h_1 after opened =>
    rw [opened]
    simp only [List.cons_append]
    split at ok
    case isTrue boxed =>
      obtain ⟨after, rfl⟩ := List.head?_eq_some_iff.1 boxed.2
      obtain ⟨⟨item, rest⟩, read, result⟩ := Option.bind_eq_some_iff.1 ok
      rw [List.tail_cons] at read
      rw [if_pos ⟨boxed.1, rfl⟩, List.cons_append, List.tail_cons, inside.type read enough]
      exact boxOf_append _ result
    case isFalse other =>
      have plain : ¬(wordOf? (segments (.word first :: code)).1 = some "Box" ∧
          (after ++ .mark ')' :: more).head? = some (.mark '[')) := by
        cases after with
        | nil => simp
        | cons token after => exact other
      obtain ⟨⟨arguments, ended, rest⟩, read, result⟩ := Option.bind_eq_some_iff.1 ok
      cases result
      rw [if_neg plain, inside.items read enough]
      rfl
  case h_2 other =>
    cases ok
    split
    case h_1 after opened =>
      cases behind : (segments (.word first :: code)).2 with
      | nil => simp [behind] at opened
      | cons token rest =>
          rw [behind] at opened
          cases opened
          exact absurd behind (other _)
    case h_2 => rfl

theorem ofCodeWithin_append {code rest : Code} {type : Schema}
    (ok : ofCodeWithin path given (fuel + 1) code = some (type, rest)) :
    ofCodeWithin path given (larger + 1) (code ++ .mark ')' :: more) =
      some (type, rest ++ .mark ')' :: more) := by
  have read := ok
  unfold ofCodeWithin at ok
  split at ok
  case h_1 => cases ok
  case h_2 same =>
    cases same
    obtain ⟨⟨items, ended, after⟩, read, result⟩ := Option.bind_eq_some_iff.1 ok
    cases result
    simp only [List.cons_append, ofCodeWithin, inside.items read enough]
    rfl
  case h_3 same =>
    cases same
    obtain ⟨⟨item, after⟩, read, result⟩ := Option.bind_eq_some_iff.1 ok
    simp only [List.cons_append, ofCodeWithin, inside.type read enough]
    exact arrayOf_append _ result
  case h_4 same =>
    cases same
    exact inside.type ok enough
  case h_5 => exact ofCodeWithin_word_append inside enough read
  case h_6 => cases ok

theorem itemsWithin_append {close : Char} {code rest : Code} {items : List Schema} {ended : Bool}
    (ok : itemsWithin path given (fuel + 1) close code = some (items, ended, rest)) :
    itemsWithin path given (larger + 1) close (code ++ .mark ')' :: more) =
      some (items, ended, rest ++ .mark ')' :: more) := by
  rw [itemsWithin] at ok ⊢
  split at ok
  case isTrue closed =>
    obtain ⟨code, rfl⟩ := List.head?_eq_some_iff.1 closed
    cases ok
    exact if_pos rfl
  case isFalse item =>
    obtain ⟨⟨first, after⟩, read, result⟩ := Option.bind_eq_some_iff.1 ok
    have same : (code ++ .mark ')' :: more).head? = code.head? := by
      cases code with
      | nil => exact absurd (read.symm.trans (ofCodeWithin_eq_none (.inl rfl))) nofun
      | cons token code => rfl
    rw [same, if_neg item, inside.type read enough]
    simp only [Option.bind_eq_bind, Option.bind_some]
    dsimp only at result
    split at result
    case h_1 rest =>
      obtain ⟨⟨items, ended, after⟩, read, result⟩ := Option.bind_eq_some_iff.1 result
      cases result
      simp only [List.cons_append, inside.items read enough]
      rfl
    case h_2 mark rest other =>
      split at result
      case isTrue closed =>
        cases result
        cases closed
        simp
      case isFalse => cases result
    case h_3 => cases result

end

/-- Whatever is read ends alike when a parenthesis closes behind it. -/
theorem endsAlike (fuel : Nat) : EndsAlike path given more fuel := by
  induction fuel with
  | zero =>
      constructor
      · intro _ _ _ ok
        rw [ofCodeWithin] at ok
        cases ok
      · intro _ _ _ _ _ ok
        rw [itemsWithin] at ok
        cases ok
  | succ fuel inside =>
      constructor
      · intro code rest type ok larger enough
        obtain ⟨larger, rfl⟩ := Nat.exists_eq_add_of_le' (Nat.le_of_add_left_le enough)
        exact ofCodeWithin_append inside (Nat.le_of_succ_le_succ enough) ok
      · intro close code rest items ended ok larger enough
        obtain ⟨larger, rfl⟩ := Nat.exists_eq_add_of_le' (Nat.le_of_add_left_le enough)
        exact itemsWithin_append inside (Nat.le_of_succ_le_succ enough) ok

/-- A type in parentheses is the type. -/
theorem ofCode?_parentheses {code : Code} {type : Schema}
    (denotes : ofCode? path given code = some type) :
    ofCode? path given (.mark '(' :: code ++ [.mark ')']) = some type := by
  have read : ofCodeWithin path given (code.length + 1) code = some (type, []) := by
    rw [ofCode?] at denotes
    split at denotes
    case h_1 read =>
      cases denotes
      exact read
    case h_2 => cases denotes
  have opened : (code ++ [Token.mark ')']).head? ≠ some (.mark ')') := by
    cases code with
    | nil => exact absurd (read.symm.trans (ofCodeWithin_eq_none (.inl rfl))) nofun
    | cons token code =>
        exact fun closed => absurd (read.symm.trans (ofCodeWithin_eq_none (.inr closed))) nofun
  have again : ofCodeWithin path given (code.length + 1) (code ++ [Token.mark ')']) =
      some (type, [Token.mark ')']) := (endsAlike _).type read (Nat.le_refl _)
  have items : itemsWithin path given (code.length + 2) ')' (code ++ [Token.mark ')']) =
      some ([type], false, []) := by
    rw [itemsWithin, if_neg opened, again]
    rfl
  have whole : (Token.mark '(' :: code ++ [Token.mark ')']).length + 1 = code.length + 2 + 1 := by
    rw [List.length_append, List.length_cons, List.length_singleton]
  rw [ofCode?, whole, List.cons_append, ofCodeWithin, items]
  rfl

end MsgPack.Schema
