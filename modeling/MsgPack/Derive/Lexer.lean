import MsgPack.Derive.Token
import MsgPack.Text.Quoted

/-!
# From characters to tokens

Source text is read from left to right; blanks and comments only separate tokens, except
that a comment which documents something stands for an attribute with its text.  Reading a
token takes at least its first character, so what remains is shorter than what was there
before, and every text has its tokens.

Of a text literal the content is found by resolving the escapes of its spelling; a raw one
has none.
-/

namespace MsgPack.Derive.Lexer

/-! ## Characters -/

/-- The characters that have the white space property: single ones, and the first and the
last of each range. -/
def spaceRanges : List (Nat × Nat) :=
  [(0x09, 0x0d), (0x20, 0x20), (0x85, 0x85), (0xa0, 0xa0), (0x1680, 0x1680),
    (0x2000, 0x200a), (0x2028, 0x2029), (0x202f, 0x202f), (0x205f, 0x205f), (0x3000, 0x3000)]

/-- Whether a character has the white space property. -/
def isSpace (character : Char) : Bool :=
  spaceRanges.any fun range => range.1 ≤ character.toNat && character.toNat ≤ range.2

/-- Whether a character separates tokens: white space and the marks of writing direction. -/
def isBlank (character : Char) : Bool :=
  isSpace character || character.toNat = 0x200e || character.toNat = 0x200f

/-- Whether a character may begin a word.  Every character beyond the first 128 that can
stand outside literals may, unless it separates tokens. -/
def isWordStart (character : Char) : Bool :=
  character.isAlpha || character = '_' || 0x80 ≤ character.toNat && !isBlank character

/-- Whether a character may stand in a word. -/
def isWordPart (character : Char) : Bool :=
  isWordStart character || character.isDigit

/-- Whether a character may stand among the digits of a decimal number. -/
def isDigitPart (character : Char) : Bool :=
  character.isDigit || character = '_'

/-! ## Escapes -/

/-- The number that hexadecimal digits denote; separators between them do not count. -/
def hexNumber (digits : List Char) : Nat :=
  (digits.filter fun digit => digit ≠ '_').foldl
    (fun number digit =>
      number * 16
        + if digit.isDigit then digit.toNat - '0'.toNat
          else digit.toLower.toNat - 'a'.toNat + 10)
    0

/-- The character of a short escape. -/
def shortEscape : Char → Char
  | 'n' => '\n'
  | 'r' => '\r'
  | 't' => '\t'
  | '0' => Char.ofNat 0
  | other => other

/-- Whether a character is left out after an escaped end of line: a space, a tab or a
further end of line. -/
def isIndent (character : Char) : Bool :=
  character = ' ' || character = '\t' || character = '\n' || character = '\r'

/-- The text that the characters between the quotes of a literal denote.  An escaped end of
line takes the spaces, tabs and ends of line after it along, and no other white space. -/
def unescape : List Char → List Char
  | [] => []
  | '\\' :: 'x' :: high :: low :: rest => Char.ofNat (hexNumber [high, low]) :: unescape rest
  | '\\' :: 'u' :: '\x7b' :: rest =>
      Char.ofNat (hexNumber (rest.takeWhile (· ≠ '\x7d')))
        :: unescape (rest.dropWhile (· ≠ '\x7d')).tail
  | '\\' :: '\n' :: rest => unescape (rest.dropWhile isIndent)
  | '\\' :: '\r' :: rest => unescape (rest.dropWhile isIndent)
  | '\\' :: escaped :: rest => shortEscape escaped :: unescape rest
  | '\r' :: '\n' :: rest => '\n' :: unescape rest
  | character :: rest => character :: unescape rest
termination_by characters => characters.length
decreasing_by
  all_goals simp only [List.length_cons, List.length_tail]
  · omega
  · have shorter := (List.dropWhile_sublist (· ≠ '\x7d') (l := rest)).length_le
    omega
  · have shorter := (List.dropWhile_sublist isIndent (l := rest)).length_le
    omega
  · have shorter := (List.dropWhile_sublist isIndent (l := rest)).length_le
    omega
  · omega
  · omega
  · omega

/-! ## Parts of tokens -/

/-- The longest run of word characters, and what follows it. -/
def wordRun (characters : List Char) : List Char × List Char :=
  (characters.takeWhile isWordPart, characters.dropWhile isWordPart)

/-- The suffix of a literal, and what follows it. -/
def suffixRun (characters : List Char) : List Char × List Char :=
  match characters with
  | first :: _ => if isWordStart first then wordRun characters else ([], characters)
  | [] => ([], [])

/-- The characters up to a closing quote that is not escaped, and what follows the quote. -/
def quotedBody (quote : Char) : List Char → List Char × List Char
  | [] => ([], [])
  | '\\' :: escaped :: rest =>
      let (body, after) := quotedBody quote rest
      ('\\' :: escaped :: body, after)
  | character :: rest =>
      if character = quote then ([], rest)
      else
        let (body, after) := quotedBody quote rest
        (character :: body, after)

/-- The characters up to a quote with `hashes` number signs, and what follows these. -/
def rawBody (hashes : Nat) : List Char → List Char × List Char
  | [] => ([], [])
  | character :: rest =>
      if character = '"' && rest.take hashes = List.replicate hashes '#' then
        ([], rest.drop hashes)
      else
        let (body, after) := rawBody hashes rest
        (character :: body, after)

/-- The fraction of a number with its point, and what follows it.  A point before another
point or before a word is none of the number's. -/
def fractionRun : List Char → Option (List Char × List Char)
  | '.' :: beyond =>
      if beyond.head?.any fun next => next = '.' || isWordStart next then none
      else some ('.' :: beyond.takeWhile isDigitPart, beyond.dropWhile isDigitPart)
  | _ => none

/-- The sign of an exponent, if it has one, and what follows it. -/
def signRun : List Char → List Char × List Char
  | '+' :: rest => (['+'], rest)
  | '-' :: rest => (['-'], rest)
  | rest => ([], rest)

/-- The exponent of a number with its letter, and what follows it.  Without a digit it is no
exponent. -/
def exponentRun : List Char → Option (List Char × List Char)
  | letter :: rest =>
      let lead := rest.takeWhile (· = '_')
      let (sign, unsigned) := signRun (rest.dropWhile (· = '_'))
      let digits := unsigned.takeWhile isDigitPart
      if (letter = 'e' || letter = 'E') && digits.any Char.isDigit then
        some (letter :: lead ++ sign ++ digits, unsigned.dropWhile isDigitPart)
      else none
  | [] => none

/-! ## Comments -/

/-- The text of a comment that ends with its line, and what follows it. -/
def lineBody (characters : List Char) : List Char × List Char :=
  let text := characters.takeWhile (· ≠ '\n')
  (if text.getLast? = some '\r' then text.dropLast else text, characters.dropWhile (· ≠ '\n'))

/-- The text of a comment with `depth` open comments around it, and what follows it. -/
def commentBody : Nat → List Char → List Char × List Char
  | 0, rest => ([], rest)
  | _, [] => ([], [])
  | depth + 1, '/' :: '*' :: rest =>
      let (body, after) := commentBody (depth + 2) rest
      ('/' :: '*' :: body, after)
  | depth + 1, '*' :: '/' :: rest =>
      let (body, after) := commentBody depth rest
      (if depth = 0 then [] else '*' :: '/' :: body, after)
  | depth + 1, character :: rest =>
      let (body, after) := commentBody (depth + 1) rest
      (character :: body, after)

/-- The attribute that a comment stands for which documents what follows it, or else what it
stands in. -/
def documentation (isInner : Bool) (text : List Char) : Code :=
  let content := String.ofList text
  .mark '#' :: (if isInner then [.mark '!'] else []) ++ [.mark '[', .word "doc", .mark '=',
    .string (Quoted.literal content) content, .mark ']']

/-- The tokens of a comment that ends with its line, and what follows it.  It documents
something if a third slash stands before its text, but no fourth one, or an exclamation
mark. -/
def lineComment (characters : List Char) : Code × List Char :=
  match characters with
  | '/' :: '/' :: _ => ([], (lineBody characters).2)
  | '/' :: rest => (documentation false (lineBody rest).1, (lineBody rest).2)
  | '!' :: rest => (documentation true (lineBody rest).1, (lineBody rest).2)
  | _ => ([], (lineBody characters).2)

/-- The tokens of a comment with an end of its own, and what follows it.  It documents
something if a second star stands before its text, but no third one, or an exclamation
mark. -/
def blockComment (characters : List Char) : Code × List Char :=
  match characters with
  | '*' :: '*' :: _ => ([], (commentBody 1 characters).2)
  | '*' :: '/' :: rest => ([], rest)
  | '*' :: rest => (documentation false (commentBody 1 rest).1, (commentBody 1 rest).2)
  | '!' :: rest => (documentation true (commentBody 1 rest).1, (commentBody 1 rest).2)
  | _ => ([], (commentBody 1 characters).2)

/-! ## Tokens -/

/-- A literal in quotes.  `content?` finds the text that it denotes, if it is text. -/
def quoted (before : List Char) (quote : Char) (content? : List Char → Option (List Char))
    (characters : List Char) : Token × List Char :=
  let (body, after) := quotedBody quote characters
  let (suffix, rest) := suffixRun after
  let spelling := String.ofList (before ++ quote :: body ++ quote :: suffix)
  match content? body with
  | some content => (.string spelling (String.ofList content), rest)
  | none => (.literal spelling, rest)

/-- A raw literal, of whose text there are `hashes` number signs on both sides. -/
def raw (before : List Char) (isText : Bool) (hashes : Nat) (characters : List Char) :
    Token × List Char :=
  let (body, after) := rawBody hashes characters
  let (suffix, rest) := suffixRun after
  let signs := List.replicate hashes '#'
  let spelling := String.ofList (before ++ signs ++ '"' :: body ++ '"' :: signs ++ suffix)
  if isText then (.string spelling (String.ofList body), rest) else (.literal spelling, rest)

/-- A number that has a part beyond its digits, and the suffix after that. -/
def extended (before : List Char) (part : List Char × List Char) : Token × List Char :=
  let (suffix, rest) := suffixRun part.2
  (.literal (String.ofList (before ++ part.1 ++ suffix)), rest)

/-- A number, after its first digit: one with a fraction or an exponent, or else a whole one
in any base. -/
def number (first : Char) (characters : List Char) : Token × List Char :=
  let digits := first :: characters.takeWhile isDigitPart
  let after := characters.dropWhile isDigitPart
  match fractionRun after with
  | some (fraction, rest) =>
      extended (digits ++ fraction) ((exponentRun rest).getD ([], rest))
  | none =>
      match exponentRun after with
      | some part => extended digits part
      | none =>
          let (whole, rest) := wordRun characters
          (.literal (String.ofList (first :: whole)), rest)

/-- A character literal, after its first quote, if it is one.  One character without an
escape is all of it, even if that is a quote. -/
def characterLiteral (before : List Char) : List Char → Option (Token × List Char)
  | '\\' :: rest => some (quoted before '\'' (fun _ => none) ('\\' :: rest))
  | character :: '\'' :: rest =>
      let (suffix, rest) := suffixRun rest
      some (.literal (String.ofList (before ++ ['\'', character, '\''] ++ suffix)), rest)
  | _ => none

/-- A character literal or the mark of a lifetime, after the quote. -/
def apostrophe (characters : List Char) : Token × List Char :=
  (characterLiteral [] characters).getD (.mark '\'', characters)

/-- The prefixes of literals; the value says whether the literal is text. -/
def rawPrefix? (word : List Char) : Option Bool :=
  if word = ['r'] then some true
  else if word = ['b', 'r'] || word = ['c', 'r'] then some false
  else none

/-- A word, or a literal that begins with letters. -/
def wordOrLiteral (characters : List Char) : Token × List Char :=
  let (word, after) := wordRun characters
  let plain : Token × List Char := (.word (String.ofList word), after)
  let signs := after.takeWhile (· = '#')
  let beyond := after.dropWhile (· = '#')
  match rawPrefix? word, beyond with
  | some isText, '"' :: rest => raw word isText signs.length rest
  | some true, first :: _ =>
      if signs = ['#'] && isWordStart first then
        let (name, rest) := wordRun beyond
        (.word (String.ofList (word ++ '#' :: name)), rest)
      else plain
  | _, _ =>
      match after with
      | '"' :: rest =>
          if word = ['b'] || word = ['c'] then quoted word '"' (fun _ => none) rest else plain
      | '\'' :: rest => if word = ['b'] then (characterLiteral word rest).getD plain else plain
      | _ => plain

/-- The first token of a text that begins with a character that is no blank. -/
def next (first : Char) (rest : List Char) : Token × List Char :=
  if first = '"' then quoted [] '"' (fun body => some (unescape body)) rest
  else if first = '\'' then apostrophe rest
  else if first.isDigit then number first rest
  else if isWordStart first then wordOrLiteral (first :: rest)
  else (.mark first, rest)

/-! ## Progress

No step gives back more than it was given, and reading a token takes its first character. -/

theorem length_wordRun_le (characters : List Char) :
    (wordRun characters).2.length ≤ characters.length :=
  (List.dropWhile_sublist _).length_le

theorem length_suffixRun_le (characters : List Char) :
    (suffixRun characters).2.length ≤ characters.length := by
  unfold suffixRun
  split
  · split
    · exact length_wordRun_le _
    · exact Nat.le_refl _
  · exact Nat.le_refl _

theorem length_quotedBody_le (quote : Char) (characters : List Char) :
    (quotedBody quote characters).2.length ≤ characters.length := by
  fun_induction quotedBody quote characters <;> simp_all <;> omega

theorem length_rawBody_le (hashes : Nat) (characters : List Char) :
    (rawBody hashes characters).2.length ≤ characters.length := by
  fun_induction rawBody hashes characters <;> simp_all <;> omega

theorem length_lineBody_le (characters : List Char) :
    (lineBody characters).2.length ≤ characters.length :=
  (List.dropWhile_sublist _).length_le

theorem length_commentBody_le (depth : Nat) (characters : List Char) :
    (commentBody depth characters).2.length ≤ characters.length := by
  fun_induction commentBody depth characters <;> simp_all <;> omega

theorem length_lineComment_le (characters : List Char) :
    (lineComment characters).2.length ≤ characters.length := by
  unfold lineComment
  split
  · exact length_lineBody_le _
  · exact Nat.le_trans (length_lineBody_le _) (Nat.le_succ _)
  · exact Nat.le_trans (length_lineBody_le _) (Nat.le_succ _)
  · exact length_lineBody_le _

theorem length_blockComment_le (characters : List Char) :
    (blockComment characters).2.length ≤ characters.length := by
  unfold blockComment
  split
  · exact length_commentBody_le _ _
  · exact Nat.le_add_right _ 2
  · exact Nat.le_trans (length_commentBody_le _ _) (Nat.le_succ _)
  · exact Nat.le_trans (length_commentBody_le _ _) (Nat.le_succ _)
  · exact length_commentBody_le _ _

theorem length_quoted_le (before : List Char) (quote : Char)
    (content? : List Char → Option (List Char)) (characters : List Char) :
    (quoted before quote content? characters).2.length ≤ characters.length := by
  have bounded := Nat.le_trans (length_suffixRun_le (quotedBody quote characters).2)
    (length_quotedBody_le quote characters)
  unfold quoted
  dsimp only
  split <;> exact bounded

theorem length_raw_le (before : List Char) (isText : Bool) (hashes : Nat)
    (characters : List Char) :
    (raw before isText hashes characters).2.length ≤ characters.length := by
  have bounded := Nat.le_trans (length_suffixRun_le (rawBody hashes characters).2)
    (length_rawBody_le hashes characters)
  unfold raw
  dsimp only
  split <;> exact bounded

theorem length_fractionRun_le {characters : List Char} {part : List Char × List Char}
    (found : fractionRun characters = some part) : part.2.length ≤ characters.length := by
  unfold fractionRun at found
  split at found
  · split at found
    · exact nomatch found
    · rw [← Option.some.inj found]
      exact Nat.le_trans (List.dropWhile_sublist _).length_le (Nat.le_succ _)
  · exact nomatch found

theorem length_signRun_le (characters : List Char) :
    (signRun characters).2.length ≤ characters.length := by
  unfold signRun
  split
  · exact Nat.le_succ _
  · exact Nat.le_succ _
  · exact Nat.le_refl _

theorem length_exponentRun_le {characters : List Char} {part : List Char × List Char}
    (found : exponentRun characters = some part) : part.2.length ≤ characters.length := by
  unfold exponentRun at found
  split at found
  · dsimp only at found
    split at found
    · rw [← Option.some.inj found]
      exact Nat.le_trans (List.dropWhile_sublist _).length_le
        (Nat.le_trans (length_signRun_le _)
          (Nat.le_trans (List.dropWhile_sublist _).length_le (Nat.le_succ _)))
    · exact nomatch found
  · exact nomatch found

theorem length_extended_le (before : List Char) (part : List Char × List Char) :
    (extended before part).2.length ≤ part.2.length :=
  length_suffixRun_le part.2

theorem length_number_le (first : Char) (characters : List Char) :
    (number first characters).2.length ≤ characters.length := by
  have bounded : (characters.dropWhile isDigitPart).length ≤ characters.length :=
    (List.dropWhile_sublist _).length_le
  unfold number
  dsimp only
  split
  · rename_i rest fractional
    have shorter := Nat.le_trans (length_fractionRun_le fractional) bounded
    refine Nat.le_trans (length_extended_le _ _) ?_
    cases exponential : exponentRun rest with
    | none => exact shorter
    | some part => exact Nat.le_trans (length_exponentRun_le exponential) shorter
  · split
    · rename_i exponential
      exact Nat.le_trans (length_extended_le _ _)
        (Nat.le_trans (length_exponentRun_le exponential) bounded)
    · exact length_wordRun_le characters

theorem length_characterLiteral_le {before characters : List Char} {read : Token × List Char}
    (found : characterLiteral before characters = some read) :
    read.2.length ≤ characters.length := by
  unfold characterLiteral at found
  split at found
  · rw [← Option.some.inj found]
    exact length_quoted_le _ _ _ _
  · rw [← Option.some.inj found]
    exact Nat.le_trans (length_suffixRun_le _) (Nat.le_add_right _ 2)
  · exact nomatch found

theorem length_apostrophe_le (characters : List Char) :
    (apostrophe characters).2.length ≤ characters.length := by
  unfold apostrophe
  cases found : characterLiteral [] characters with
  | none => exact Nat.le_refl _
  | some read => exact length_characterLiteral_le found

theorem length_wordOrLiteral_lt {first : Char} (rest : List Char)
    (starts : isWordStart first = true) :
    (wordOrLiteral (first :: rest)).2.length < (first :: rest).length := by
  have bounded : (wordRun (first :: rest)).2.length ≤ rest.length := by
    have part : isWordPart first = true := by simp [isWordPart, starts]
    simpa [wordRun, List.dropWhile_cons, part] using
      (List.dropWhile_sublist (l := rest) isWordPart).length_le
  have beyond : ((wordRun (first :: rest)).2.dropWhile (· = '#')).length ≤ rest.length :=
    Nat.le_trans (List.dropWhile_sublist _).length_le bounded
  refine Nat.lt_succ_of_le ?_
  unfold wordOrLiteral
  dsimp only
  split
  · rename_i after _ found
    rw [found] at beyond
    exact Nat.le_trans (length_raw_le _ _ _ _) (Nat.le_trans (Nat.le_succ _) beyond)
  · split
    · exact Nat.le_trans (length_wordRun_le _) beyond
    · exact bounded
  · split
    · rename_i found
      rw [found] at bounded
      split
      · exact Nat.le_trans (length_quoted_le _ _ _ _) (Nat.le_trans (Nat.le_succ _) bounded)
      · rw [found]
        exact bounded
    · rename_i after found
      rw [found] at bounded
      split
      · cases literal : characterLiteral (wordRun (first :: rest)).1 after with
        | none =>
          rw [found]
          exact bounded
        | some read =>
          exact Nat.le_trans (length_characterLiteral_le literal)
            (Nat.le_trans (Nat.le_succ _) bounded)
      · rw [found]
        exact bounded
    · exact bounded

/-- Reading a token takes at least its first character. -/
theorem length_next_le (first : Char) (rest : List Char) :
    (next first rest).2.length ≤ rest.length := by
  unfold next
  split
  · exact length_quoted_le _ _ _ _
  · split
    · exact length_apostrophe_le _
    · split
      · exact length_number_le _ _
      · split
        · rename_i starts
          exact Nat.le_of_lt_succ (length_wordOrLiteral_lt rest starts)
        · exact Nat.le_refl _

/-! ## Whole texts -/

/-- The tokens of a text. -/
def scan : List Char → Code
  | [] => []
  | '/' :: '/' :: rest =>
      let found := lineComment rest
      found.1 ++ scan found.2
  | '/' :: '*' :: rest =>
      let found := blockComment rest
      found.1 ++ scan found.2
  | first :: rest =>
      if isBlank first then scan rest
      else
        let found := next first rest
        found.1 :: scan found.2
termination_by characters => characters.length
decreasing_by
  · have shorter := length_lineComment_le rest
    simp only [List.length_cons]
    omega
  · have shorter := length_blockComment_le rest
    simp only [List.length_cons]
    omega
  · simp only [List.length_cons]
    omega
  · have shorter := length_next_le first rest
    simp only [List.length_cons]
    omega

end MsgPack.Derive.Lexer

namespace MsgPack.Derive

/-- The tokens of a text. -/
def Code.ofText (text : String) : Code :=
  Lexer.scan text.toList

end MsgPack.Derive
