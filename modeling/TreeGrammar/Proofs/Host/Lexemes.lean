import TreeGrammar.Host.Lexer
import TreeGrammar.Proofs.Host.Quoted

/-!
# The text of tokens

A text that consists of tokens is made up of the texts of these tokens, of delimiters, and of the
white space and the comments between them. These parts, in the order of the text, are its lexemes.
The lexer notes them here beside the tokens that it returns.

## Main definitions

* `Lexeme`: the parts of a text that consists of tokens
* `lexNoted`: the tokens of a text together with its lexemes
* `Lexeme.Precedes`: what makes a text a lexeme
* `MakeUp`: lexemes that make up a text

## Main results

* `map_fst_lexNoted`: the tokens are those of the lexer
* `makeUp_of_lexNoted`: the lexemes make up the text
-/

namespace TreeGrammar

/-! ### Words -/

/-- All ranges of a union lie in ranges of another one; both are sorted. -/
def Text.Ranges.areWithin (ranges : Text.Ranges) : Text.Ranges → Bool
  | [] => ranges.isEmpty
  | outer :: outers =>
    areWithin (ranges.dropWhile fun inner => outer.1 ≤ inner.1 && inner.2 ≤ outer.2) outers

theorem Text.Ranges.contains_of_areWithin {a b : Text.Ranges} {c : Char} (h : areWithin a b)
    (hc : a.contains c) : b.contains c := by
  induction b generalizing a with
  | nil =>
    obtain rfl := List.isEmpty_iff.1 h
    cases hc
  | cons outer outers ih =>
    rw [Ranges.contains, ← List.takeWhile_append_dropWhile
      (p := fun inner => outer.1 ≤ inner.1 && inner.2 ≤ outer.2) (l := a), List.any_append,
      Bool.or_eq_true] at hc
    rw [Ranges.contains, List.any_cons, Bool.or_eq_true]
    rcases hc with hInner | hMore
    · obtain ⟨inner, hMem, hLies⟩ := List.any_eq_true.1 hInner
      have hWithin := List.mem_takeWhile_imp hMem
      simp only [Bool.and_eq_true, decide_eq_true_eq] at hLies hWithin
      refine .inl ?_
      simp only [Bool.and_eq_true, decide_eq_true_eq]
      omega
    · exact .inr (ih h hMore)

namespace Host

/-- Words go on with all characters with which they begin. -/
theorem isXidContinue_of_isWordStart {c : Char} (h : isWordStart c) : Text.isXidContinue c := by
  rw [isWordStart, Bool.or_eq_true, decide_eq_true_eq] at h
  rcases h with hStart | rfl
  · rw [Text.isXidStart] at hStart
    rw [Text.isXidContinue]
    by_cases hAscii : c.toNat < 0x80
    · rw [if_pos hAscii] at hStart ⊢
      simp [Char.isAlphanum, hStart]
    · rw [if_neg hAscii] at hStart ⊢
      exact Text.Ranges.contains_of_areWithin (by decide +kernel) hStart
  · decide

/-- A word that goes on as far as possible. -/
structure IsWholeWord (name rest : List Char) : Prop where
  start : name.head?.any isWordStart
  chars : ∀ c ∈ name, Text.isXidContinue c
  stop : ∀ c ∈ rest.head?, ¬ Text.isXidContinue c

/-- Nothing, or a word. -/
theorem exists_of_wordLength (text : List Char) :
    ∃ name rest, text = name ++ rest ∧ name.length = wordLength text ∧
      (name ≠ [] → IsWholeWord name rest) := by
  cases text with
  | nil => exact ⟨[], [], rfl, rfl, by simp⟩
  | cons c text =>
    rw [wordLength]
    split
    · next hStart =>
      obtain ⟨more, rest, rfl, hMore, hStop⟩ := exists_longest Text.isXidContinue text
      refine ⟨c :: more, rest, rfl, by rw [length_takeWhile_append hMore hStop]; rfl, fun _ => ?_⟩
      exact ⟨hStart, List.forall_mem_cons.2 ⟨isXidContinue_of_isWordStart hStart, hMore⟩, hStop⟩
    · exact ⟨[], c :: text, rfl, rfl, by simp⟩

theorem isWholeWord_of_wordLength {name rest : List Char}
    (h : wordLength (name ++ rest) = name.length) (hNil : name ≠ []) : IsWholeWord name rest := by
  obtain ⟨word, after, hText, hLength, hWord⟩ := exists_of_wordLength (name ++ rest)
  obtain ⟨rfl, rfl⟩ := List.append_inj hText (h.symm.trans hLength.symm)
  exact hWord hNil

theorem wordLength_le (text : List Char) : wordLength text ≤ text.length := by
  obtain ⟨name, rest, hText, hLength, -⟩ := exists_of_wordLength text
  rw [← hLength, hText, List.length_append]
  exact Nat.le_add_right _ _

theorem identifierLength_le {text : List Char} {length : Nat}
    (h : identifierLength? text = some length) : length ≤ text.length := by
  unfold identifierLength? at h
  dsimp only at h
  have hWord := wordLength_le (text.drop 2)
  have hPlain := wordLength_le text
  rw [List.length_drop] at hWord
  grind

/-- An identifier is a word, which may stand behind a mark for raw identifiers. -/
theorem isWholeWord_of_identifierLength {text rest : List Char}
    (h : identifierLength? (text ++ rest) = some text.length) :
    (∃ name, text = 'r' :: '#' :: name ∧ IsWholeWord name rest) ∨
      ['r', '#'].isPrefixOf text = false ∧ IsWholeWord text rest := by
  by_cases hRaw : ['r', '#'].isPrefixOf (text ++ rest) = true
  · simp only [identifierLength?, hRaw, if_true] at h
    split at h
    · cases h
    · next hWord =>
      split at h
      · cases h
      · have hLength : wordLength ((text ++ rest).drop 2) + 2 = text.length := Option.some.inj h
        rcases text with _ | ⟨a, _ | ⟨b, name⟩⟩
        · simp at hLength
        · simp at hLength
        · obtain ⟨rfl, rfl⟩ : a = 'r' ∧ b = '#' := by
            have hSame : 'r' = a ∧ '#' = b := by simpa [List.isPrefixOf] using hRaw
            exact ⟨hSame.1.symm, hSame.2.symm⟩
          have hName : wordLength (name ++ rest) = name.length := by simpa using hLength
          refine .inl ⟨name, rfl, isWholeWord_of_wordLength hName ?_⟩
          rintro rfl
          exact hWord hName
  · simp only [identifierLength?, hRaw, Bool.false_eq_true, if_false] at h
    split at h
    · cases h
    · next hWord =>
      have hLength : wordLength (text ++ rest) = text.length := Option.some.inj h
      refine .inr ⟨?_, isWholeWord_of_wordLength hLength ?_⟩
      · rw [Bool.eq_false_iff]
        intro hText
        obtain ⟨more, rfl⟩ := List.isPrefixOf_iff_prefix.1 hText
        exact hRaw (by simp [List.isPrefixOf])
      · rintro rfl
        exact hWord hLength

/-! ### Literals -/

/-- The length of a number and that of its suffix. -/
def numberParts? (text : List Char) : Option (Nat × Nat) :=
  let complete (length : Nat) : Option (Nat × Nat) :=
    let suffix := wordLength (text.drop length)
    if (text.drop (length + suffix)).head?.any Text.isXidContinue then none
    else some (length, suffix)
  ((fractionLength text).bind complete).or ((integerLength text).bind complete)

/-- The length of the literal at the start of a text without its suffix, and that of its suffix. -/
def literalParts? (text : List Char) : Option (Nat × Nat) :=
  (((quotedLength text).or (characterLength text)).map fun length =>
    (length, wordLength (text.drop length))).or (numberParts? text)

theorem numberLength_eq (text : List Char) :
    numberLength text = (numberParts? text).map fun parts => parts.1 + parts.2 := by
  rw [numberLength, numberParts?, Option.map_or, Option.map_bind, Option.map_bind]
  congr 2 <;>
    · funext length
      rw [Function.comp, apply_ite (Option.map _)]
      rfl

theorem literalLength_eq (text : List Char) :
    literalLength text = (literalParts? text).map fun parts => parts.1 + parts.2 := by
  rw [literalLength, literalParts?, numberLength_eq]
  cases (quotedLength text).or (characterLength text) with
  | none => rfl
  | some length => rfl

/-- The lengths of a number and of its suffix at the start of a text. -/
structure IsNumber (text : List Char) (length suffix : Nat) : Prop where
  bare : IsBareTo length text
  digit : text.head?.any Char.isDigit
  stop : ∀ c ∈ (text.drop (length + suffix)).head?, ¬ Text.isXidContinue c

theorem isNumber_of_numberParts {text : List Char} {length suffix : Nat}
    (h : numberParts? text = some (length, suffix)) :
    suffix = wordLength (text.drop length) ∧ IsNumber text length suffix := by
  -- the number may have a point or an exponent, or not
  obtain ⟨inner, hBare, hDigit, hParts⟩ : ∃ inner, IsBareTo inner text ∧
      text.head?.any Char.isDigit ∧
      (if (text.drop (inner + wordLength (text.drop inner))).head?.any Text.isXidContinue then
        none else some (inner, wordLength (text.drop inner))) = some (length, suffix) := by
    rcases Option.or_eq_some_iff.1 h with hFraction | ⟨-, hInteger⟩
    · obtain ⟨inner, hInner, hParts⟩ := Option.bind_eq_some_iff.1 hFraction
      exact ⟨inner, isBareTo_of_fractionLength hInner, isDigit_of_fractionLength hInner, hParts⟩
    · obtain ⟨inner, hInner, hParts⟩ := Option.bind_eq_some_iff.1 hInteger
      exact ⟨inner, isBareTo_of_integerLength hInner, isDigit_of_integerLength hInner, hParts⟩
  split at hParts
  · cases hParts
  · next hStop =>
    obtain ⟨rfl, rfl⟩ := Prod.mk.inj (Option.some.inj hParts)
    refine ⟨rfl, hBare, hDigit, fun c hc hContinue => hStop ?_⟩
    exact (Option.any_eq_true ..).2 ⟨c, hc, hContinue⟩

theorem literalParts_cases {text : List Char} {length suffix : Nat}
    (h : literalParts? text = some (length, suffix)) :
    suffix = wordLength (text.drop length) ∧
      (IsQuoted text length ∨ IsNumber text length suffix) := by
  unfold literalParts? at h
  cases hQuoted : (quotedLength text).or (characterLength text) with
  | some inner =>
    rw [hQuoted] at h
    obtain ⟨rfl, rfl⟩ := Prod.mk.inj (Option.some.inj h)
    refine ⟨rfl, .inl ?_⟩
    rcases Option.or_eq_some_iff.1 hQuoted with hString | ⟨-, hCharacter⟩
    · exact isQuoted_of_quotedLength hString
    · exact isQuoted_of_characterLength hCharacter
  | none =>
    rw [hQuoted, Option.map_none, Option.none_or] at h
    obtain ⟨hSuffix, hNumber⟩ := isNumber_of_numberParts h
    exact ⟨hSuffix, .inr hNumber⟩

theorem length_le_of_literalParts {text : List Char} {length suffix : Nat}
    (h : literalParts? text = some (length, suffix)) : length + suffix ≤ text.length := by
  obtain ⟨rfl, hCases⟩ := literalParts_cases h
  have hSuffix := wordLength_le (text.drop length)
  rw [List.length_drop] at hSuffix
  have hLength : length ≤ text.length := by
    rcases hCases with hQuoted | hNumber
    · exact hQuoted.le_length
    · exact hNumber.bare.1
  omega

/-! ### Lexemes -/

/-- A part of a text that consists of tokens. -/
inductive Lexeme where
  /-- White space and comments, those for documentation included. -/
  | gap (text : List Char)
  | delimiter (c : Char)
  | punct (c : Char)
  /-- A literal; it may end in a word. -/
  | literal (content suffix : List Char)
  /-- An identifier or a keyword, which may be marked as raw. -/
  | word (isRaw : Bool) (name : List Char)
  deriving DecidableEq, Repr

/-- The text of a lexeme. -/
def Lexeme.text : Lexeme → List Char
  | gap text => text
  | delimiter c | punct c => [c]
  | literal content suffix => content ++ suffix
  | word false name => name
  | word true name => 'r' :: '#' :: name

/-- The lexeme of an identifier. -/
def wordLexeme (text : List Char) : Lexeme :=
  if ['r', '#'].isPrefixOf text then .word true (text.drop 2) else .word false text

/-- The literal, the punctuation character or the word at the start of a text with its lexeme, and
the text after it. -/
def leafNoted? (c : Char) (rest : List Char) : Option ((Token × Lexeme) × List Char) :=
  match literalParts? (c :: rest) with
  | some (length, suffix) =>
    some ((.literal (String.ofList ((c :: rest).take (length + suffix))),
      .literal ((c :: rest).take length) (((c :: rest).drop length).take suffix)),
      (c :: rest).drop (length + suffix))
  | none =>
    match punct? (c :: rest) with
    | some token => some ((token, .punct c), rest)
    | none =>
      if startsBadLiteral (c :: rest) then none
      else (identifierLength? (c :: rest)).map fun length =>
        ((.word (String.ofList ((c :: rest).take length)), wordLexeme ((c :: rest).take length)),
          (c :: rest).drop length)

theorem leaf?_eq (c : Char) (rest : List Char) :
    leaf? (c :: rest) = (leafNoted? c rest).map fun found => (found.1.1, found.2) := by
  rw [leaf?, leafNoted?, literalLength_eq]
  cases literalParts? (c :: rest) with
  | some parts => rfl
  | none =>
    cases punct? (c :: rest) with
    | some token => rfl
    | none =>
      cases startsBadLiteral (c :: rest) with
      | true => rfl
      | false => cases identifierLength? (c :: rest) <;> rfl

/-- The gap in front of the rest of a text, if there is one. -/
def gapLexemes (text rest : List Char) : List Lexeme :=
  if rest.length < text.length then [.gap (text.take (text.length - rest.length))] else []

/-- Tokens and lexemes, with some more lexemes in front. -/
def note (lexemes : List Lexeme) (result : Option (List Token × List Lexeme)) :
    Option (List Token × List Lexeme) :=
  result.map fun found => (found.1, lexemes ++ found.2)

/-- The tokens of a text that follow the open groups on the stack, and the lexemes of the text. -/
def lexGroupsNoted (stack : List (Delimiter × List Token)) (done : List Token)
    (text : List Char) : Option (List Token × List Lexeme) :=
  note (gapLexemes text (afterTrivia text)) <|
    match _h : docComment? (afterTrivia text) with
    | some (comment, rest) =>
      match comment.tokens? with
      | some tokens =>
        note (gapLexemes (afterTrivia text) rest)
          (lexGroupsNoted stack (tokens.reverse ++ done) rest)
      | none => none
    | none =>
      match _h : afterTrivia text with
      | [] => if stack.isEmpty then some (done.reverse, []) else none
      | c :: rest =>
        if errorLiteral.toList.isPrefixOf (c :: rest) then
          note [.literal errorLiteral.toList []]
            (lexGroupsNoted stack (.literal errorLiteral :: done)
              (rest.drop (errorLiteral.length - 1)))
        else
          match Delimiter.opening? c, Delimiter.closing? c, stack with
          | some delimiter, _, _ =>
            note [.delimiter c] (lexGroupsNoted ((delimiter, done) :: stack) [] rest)
          | none, some delimiter, (opened, before) :: stack =>
            if delimiter = opened then
              note [.delimiter c]
                (lexGroupsNoted stack (.group delimiter done.reverse :: before) rest)
            else none
          | none, some _, [] => none
          | none, none, _ =>
            match leafNoted? c rest with
            | some ((token, lexeme), after) =>
              if after.length ≤ rest.length then
                note [lexeme] (lexGroupsNoted stack (token :: done) after)
              else none
            | none => none
  termination_by text.length
  decreasing_by
    · have := length_lt_of_docComment _h
      have := length_afterTrivia_le text
      omega
    all_goals
      have h := length_afterTrivia_le text
      simp only [_h, List.length_cons] at h
      try simp only [List.length_drop]
      omega

@[simp] theorem map_fst_note (lexemes : List Lexeme)
    (result : Option (List Token × List Lexeme)) :
    (note lexemes result).map Prod.fst = result.map Prod.fst := by
  rw [note, Option.map_map]
  rfl

/-- A leaf comes next. -/
theorem lexGroupsNoted_leaf {stack : List (Delimiter × List Token)} {done : List Token}
    {text rest : List Char} {c : Char} (hDoc : docComment? (afterTrivia text) = none)
    (hNext : afterTrivia text = c :: rest)
    (hError : ¬ errorLiteral.toList.isPrefixOf (c :: rest) = true)
    (hOpening : Delimiter.opening? c = none) (hClosing : Delimiter.closing? c = none) :
    lexGroupsNoted stack done text =
      note (gapLexemes text (c :: rest))
        ((leafNoted? c rest).bind fun found =>
          if found.2.length ≤ rest.length then
            note [found.1.2] (lexGroupsNoted stack (found.1.1 :: done) found.2)
          else none) := by
  rw [lexGroupsNoted]
  split
  · next hSome => simp [hDoc] at hSome
  · split
    · next hNil => simp [hNext] at hNil
    · next d more hCons =>
      obtain ⟨rfl, rfl⟩ : c = d ∧ rest = more := by simpa [hNext] using hCons
      rw [if_neg hError, hOpening, hClosing, hNext]
      cases leafNoted? c rest <;> rfl

/-- The tokens are those of the lexer. -/
theorem map_fst_lexGroupsNoted (stack : List (Delimiter × List Token)) (done : List Token)
    (text : List Char) :
    (lexGroupsNoted stack done text).map Prod.fst = lexGroups stack done text := by
  fun_induction lexGroups stack done text with
  | case10 stack done text hDoc c rest hNext hError hClosing hOpening token after hLeaf hLe ih =>
    rw [leaf?_eq] at hLeaf
    obtain ⟨found, hNoted, hPair⟩ := Option.map_eq_some_iff.1 hLeaf
    obtain ⟨rfl, rfl⟩ := Prod.mk.inj hPair
    rw [lexGroupsNoted_leaf hDoc hNext hError hOpening hClosing, hNoted, Option.bind_some,
      if_pos hLe, map_fst_note, map_fst_note, ih]
  | case11 stack done text hDoc c rest hNext hError hClosing hOpening token after hLeaf hLe =>
    rw [leaf?_eq] at hLeaf
    obtain ⟨found, hNoted, hPair⟩ := Option.map_eq_some_iff.1 hLeaf
    obtain ⟨rfl, rfl⟩ := Prod.mk.inj hPair
    rw [lexGroupsNoted_leaf hDoc hNext hError hOpening hClosing, hNoted, Option.bind_some,
      if_neg hLe]
    rfl
  | case12 stack done text hDoc c rest hNext hError hClosing hOpening hLeaf =>
    rw [leaf?_eq, Option.map_eq_none_iff] at hLeaf
    rw [lexGroupsNoted_leaf hDoc hNext hError hOpening hClosing, hLeaf]
    rfl
  -- everything but leaves is the same in both
  | _ =>
    rw [lexGroupsNoted, map_fst_note]
    split
    · simp_all
    · split <;> simp_all

/-- The tokens of a text, and its lexemes. -/
def lexNoted (text : List Char) : Option (List Token × List Lexeme) :=
  match text with
  | '\ufeff' :: rest => note [.gap ['\ufeff']] (lexGroupsNoted [] [] rest)
  | text => lexGroupsNoted [] [] text

/-- The tokens are those of the lexer. -/
theorem map_fst_lexNoted (text : List Char) : (lexNoted text).map Prod.fst = lex text := by
  fun_cases lex text with
  | case1 rest => rw [lexNoted, map_fst_note, map_fst_lexGroupsNoted]
  | case2 =>
    next hMark => rw [lexNoted.eq_2 text hMark, map_fst_lexGroupsNoted]

/-! ### Lexemes that make up a text -/

/-- What makes a text a lexeme in front of the rest of a text. -/
inductive Lexeme.Precedes (rest : List Char) : Lexeme → Prop where
  | byteOrderMark : Precedes rest (.gap ['\ufeff'])
  | trivia {text : List Char} (h : afterTrivia (text ++ rest) = rest) : Precedes rest (.gap text)
  | documentation {text : List Char} {comment : DocComment}
      (h : docComment? (text ++ rest) = some (comment, rest)) : Precedes rest (.gap text)
  | delimiter {c : Char} (h : (Delimiter.opening? c).isSome ∨ (Delimiter.closing? c).isSome) :
      Precedes rest (.delimiter c)
  | punct {c : Char} (h : (punct? (c :: rest)).isSome) : Precedes rest (.punct c)
  | error : Precedes rest (.literal errorLiteral.toList [])
  | literal {content suffix : List Char}
      (h : literalParts? (content ++ (suffix ++ rest)) = some (content.length, suffix.length)) :
      Precedes rest (.literal content suffix)
  | word {text : List Char} (hLiteral : startsBadLiteral (text ++ rest) = false)
      (h : identifierLength? (text ++ rest) = some text.length) :
      Precedes rest (wordLexeme text)

/-- The text of several lexemes. -/
def Lexeme.textOf (lexemes : List Lexeme) : List Char := lexemes.flatMap Lexeme.text

@[simp] theorem Lexeme.textOf_cons (lexeme : Lexeme) (rest : List Lexeme) :
    textOf (lexeme :: rest) = lexeme.text ++ textOf rest := rfl

@[simp] theorem text_wordLexeme (text : List Char) : (wordLexeme text).text = text := by
  rw [wordLexeme]
  split
  · next hRaw =>
    obtain ⟨name, rfl⟩ := List.isPrefixOf_iff_prefix.1 hRaw
    rfl
  · rfl

theorem Lexeme.Precedes.isWholeWord {rest name : List Char} {isRaw : Bool}
    (h : (Lexeme.word isRaw name).Precedes rest) : IsWholeWord name rest := by
  generalize hLexeme : Lexeme.word isRaw name = lexeme at h
  cases h with
  | word hBad hLength =>
    rcases isWholeWord_of_identifierLength hLength with ⟨other, rfl, hWord⟩ | ⟨hRaw, hWord⟩
    · obtain ⟨-, rfl⟩ := Lexeme.word.inj hLexeme
      exact hWord
    · rw [wordLexeme, hRaw] at hLexeme
      obtain ⟨-, rfl⟩ := Lexeme.word.inj hLexeme
      exact hWord
  | _ => cases hLexeme

/-- Lexemes one after another. -/
def AreLexemes : List Lexeme → Prop
  | [] => True
  | lexeme :: rest => lexeme.Precedes (Lexeme.textOf rest) ∧ AreLexemes rest

/-- Lexemes make up a text. -/
structure MakeUp (text : List Char) (lexemes : List Lexeme) : Prop where
  textOf_eq : Lexeme.textOf lexemes = text
  areLexemes : AreLexemes lexemes

theorem MakeUp.cons {lexeme : Lexeme} {rest : List Char} {lexemes : List Lexeme}
    (h : MakeUp rest lexemes) (hLexeme : lexeme.Precedes rest) :
    MakeUp (lexeme.text ++ rest) (lexeme :: lexemes) := by
  obtain ⟨rfl, hRest⟩ := h
  exact ⟨rfl, hLexeme, hRest⟩

theorem MakeUp.gap {text rest : List Char} {lexemes : List Lexeme} (h : MakeUp rest lexemes)
    (hSuffix : rest <:+ text)
    (hGap : ∀ gap, gap ++ rest = text → (Lexeme.gap gap).Precedes rest) :
    MakeUp text (gapLexemes text rest ++ lexemes) := by
  obtain ⟨gap, rfl⟩ := hSuffix
  rw [gapLexemes, List.length_append, Nat.add_sub_cancel, List.take_left]
  cases gap with
  | nil => simpa using h
  | cons c gap =>
    rw [if_pos (by simp)]
    exact h.cons (hGap _ rfl)

theorem exists_of_note {lexemes : List Lexeme} {inner : Option (List Token × List Lexeme)}
    {result : List Token × List Lexeme} (h : note lexemes inner = some result) :
    ∃ found, inner = some found ∧ result.2 = lexemes ++ found.2 := by
  obtain ⟨found, hFound, rfl⟩ := Option.map_eq_some_iff.1 h
  exact ⟨found, hFound, rfl⟩

theorem makeUp_of_leafNoted {c : Char} {rest after : List Char} {token : Token} {lexeme : Lexeme}
    (h : leafNoted? c rest = some ((token, lexeme), after)) :
    c :: rest = lexeme.text ++ after ∧ lexeme.Precedes after := by
  unfold leafNoted? at h
  split at h
  · next length suffix hLiteral =>
    obtain ⟨hLeaf, rfl⟩ := Prod.mk.inj (Option.some.inj h)
    obtain ⟨-, rfl⟩ := Prod.mk.inj hLeaf
    have hLength := length_le_of_literalParts hLiteral
    have hText : (c :: rest).take length ++ (((c :: rest).drop length).take suffix ++
        (c :: rest).drop (length + suffix)) = c :: rest := by
      rw [← List.drop_drop, List.take_append_drop, List.take_append_drop]
    refine ⟨by rw [Lexeme.text, List.append_assoc, hText], .literal ?_⟩
    rw [hText, List.length_take_of_le (by omega), List.length_take_of_le, hLiteral]
    rw [List.length_drop]
    omega
  · split at h
    · next token hPunct =>
      obtain ⟨hLeaf, rfl⟩ := Prod.mk.inj (Option.some.inj h)
      obtain ⟨-, rfl⟩ := Prod.mk.inj hLeaf
      exact ⟨rfl, .punct (by rw [hPunct]; rfl)⟩
    · split at h
      · cases h
      · next hBad =>
        obtain ⟨length, hLength, hPair⟩ := Option.map_eq_some_iff.1 h
        obtain ⟨hLeaf, rfl⟩ := Prod.mk.inj hPair
        obtain ⟨-, rfl⟩ := Prod.mk.inj hLeaf
        have hText := List.take_append_drop length (c :: rest)
        refine ⟨by rw [text_wordLexeme, hText], .word ?_ ?_⟩
        · rw [hText]
          exact Bool.eq_false_iff.2 hBad
        · rw [hText, hLength, List.length_take_of_le (identifierLength_le hLength)]

theorem makeUp_of_lexGroupsNoted {stack : List (Delimiter × List Token)} {done : List Token}
    {text : List Char} {result : List Token × List Lexeme}
    (h : lexGroupsNoted stack done text = some result) : MakeUp text result.2 := by
  fun_induction lexGroupsNoted stack done text generalizing result with
  | case1 stack done text ihDoc ihError ihOpening ihClosing ihLeaf =>
    obtain ⟨found, hFound, hLexemes⟩ := exists_of_note h
    rw [hLexemes]
    refine MakeUp.gap ?_ (afterTrivia_suffix text) fun gap hText => .trivia (by rw [hText])
    split at hFound
    · next comment rest hDoc =>
      split at hFound
      · obtain ⟨more, hMore, hLexemes⟩ := exists_of_note hFound
        rw [hLexemes]
        exact (ihDoc comment rest hDoc _ hMore).gap (skipsTo_of_docComment hDoc).suffix
          fun gap hText => .documentation (by rw [hText, hDoc])
      · cases hFound
    · split at hFound
      · next hNil =>
        split at hFound
        · obtain rfl := Option.some.inj hFound
          rw [hNil]
          exact ⟨rfl, trivial⟩
        · cases hFound
      · next c rest hNext =>
        rw [hNext]
        split at hFound
        · next hError =>
          obtain ⟨more, hMore, hLexemes⟩ := exists_of_note hFound
          obtain ⟨after, hAfter⟩ := List.isPrefixOf_iff_prefix.1 hError
          have hRest : rest.drop (errorLiteral.length - 1) = after := by
            have hDrop : (c :: rest).drop errorLiteral.toList.length = after := by
              rw [← hAfter, List.drop_left]
            exact hDrop
          rw [hLexemes, ← hAfter]
          have hMakeUp := ihError c rest hNext hMore
          rw [hRest] at hMakeUp
          simpa [Lexeme.text] using hMakeUp.cons .error
        · split at hFound
          · next hOpening =>
            obtain ⟨more, hMore, hLexemes⟩ := exists_of_note hFound
            rw [hLexemes]
            refine (ihOpening c rest hNext _ hMore).cons (.delimiter (.inl ?_))
            rw [hOpening]
            rfl
          · next hClosing =>
            split at hFound
            · obtain ⟨more, hMore, hLexemes⟩ := exists_of_note hFound
              simp only [List.unattach_reverse, List.unattach_attach] at ihClosing
              rw [hLexemes]
              refine (ihClosing c rest hNext _ _ _ hMore).cons (.delimiter (.inr ?_))
              rw [hClosing]
              rfl
            · cases hFound
          · cases hFound
          · split at hFound
            · next token lexeme after hLeaf =>
              split at hFound
              · next hLe =>
                obtain ⟨more, hMore, hLexemes⟩ := exists_of_note hFound
                obtain ⟨hText, hPrecedes⟩ := makeUp_of_leafNoted hLeaf
                rw [hLexemes, hText]
                exact (ihLeaf c rest hNext token after hLe hMore).cons hPrecedes
              · cases hFound
            · cases hFound

/-- The lexemes make up the text. -/
theorem makeUp_of_lexNoted {text : List Char} {result : List Token × List Lexeme}
    (h : lexNoted text = some result) : MakeUp text result.2 := by
  unfold lexNoted at h
  split at h
  · next rest =>
    obtain ⟨found, hFound, hLexemes⟩ := exists_of_note h
    rw [hLexemes]
    exact (makeUp_of_lexGroupsNoted hFound).cons .byteOrderMark
  · exact makeUp_of_lexGroupsNoted h

end Host

end TreeGrammar
