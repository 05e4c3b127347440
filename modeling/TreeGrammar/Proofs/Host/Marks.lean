import TreeGrammar.Proofs.Grammar.Rereading
import TreeGrammar.Proofs.Host.Lexemes
import TreeGrammar.Proofs.Program.Substitution

/-!
# Marks and names as tokens

The code of a grammar is read for references to attributes without a look at its tokens: literals
and comments are skipped, and a mark and the name behind it are a reference. In code that consists
of tokens, the references are the marks directly in front of words, and no mark inside a literal or
comment is found, as long as the code is plain. Code is not plain where a letter behind a mark is
the prefix of a literal or of a raw identifier, where a word holds characters that are no letters
and no digits, where a raw identifier or a suffix looks like the prefix of a raw string, and where a
raw C string has quotes or backslashes in it, since its prefix is not known.

## Main definitions

* `markedWords`, `markSpans`: words behind marks, and marks, among the lexemes of a text
* `ArePlain`: the lexemes of plain code
* `Passes`, `Crosses`: parts of code without marks

## Main results

* `Crosses.of_precedes`: lexemes other than marks are passed
* `agrees_of_areLexemes`: the code and its lexemes agree, from any lexeme on
* `Fragment.references_of_lex`: the references in plain code
-/

namespace TreeGrammar

open Host

variable {before text more rest : List Char}

/-! ### Code without marks -/

/-- No part of a text is a mark, and the parts of the rest follow. -/
def Passes (before text rest : List Char) : Prop :=
  ∃ parts : List (List Char),
    pieces before (text ++ rest) = parts.map .plain ++ pieces (text.reverse ++ before) rest

theorem Passes.nil (before rest : List Char) : Passes before [] rest := ⟨[], rfl⟩

theorem Passes.append (h : Passes before text (more ++ rest))
    (hMore : Passes (text.reverse ++ before) more rest) : Passes before (text ++ more) rest := by
  obtain ⟨parts, hParts⟩ := h
  obtain ⟨others, hOthers⟩ := hMore
  refine ⟨parts ++ others, ?_⟩
  rw [List.append_assoc, hParts, hOthers]
  simp

theorem Passes.char {c : Char} (h : literalLength before (c :: rest) = .ok none) (hMark : c ≠ '@') :
    Passes before [c] rest := by
  refine ⟨[[c]], ?_⟩
  rw [List.singleton_append, pieces_of_plain h hMark]
  rfl

theorem Passes.literal {n : Nat} (h : literalLength before text = .ok (some n)) :
    Passes before (text.take n) (text.drop n) := by
  refine ⟨[text.take n], ?_⟩
  rw [List.take_append_drop, pieces_of_literal h]
  rfl

theorem Passes.bare (h : ∀ c ∈ text, IsBare c) (before rest : List Char) :
    Passes before text rest := by
  induction text generalizing before with
  | nil => exact .nil before rest
  | cons c text ih =>
    obtain ⟨⟨hSlash, hQuote, hRaw, hChar, hMark⟩, hMore⟩ := List.forall_mem_cons.1 h
    have hFirst : Passes before [c] (text ++ rest) :=
      .char (literalLength_of_ne hSlash hQuote hRaw hChar before _) hMark
    exact hFirst.append (ih hMore (c :: before))

theorem Passes.bareChar {c : Char} (hc : IsBare c) (before rest : List Char) :
    Passes before [c] rest :=
  .bare (List.forall_mem_singleton.2 hc) before rest

/-- A word is passed unless it is the prefix of a raw string. -/
theorem Passes.word (hWord : ∀ c ∈ text, isIdentChar c) (hPrefix : ¬ IsPrefix text rest)
    (before : List Char) : Passes before text rest := by
  have hBack (back : List Char) : ∀ front, text = front ++ back →
      Passes (front.reverse ++ before) back rest := by
    induction back with
    | nil => exact fun front _ => .nil _ rest
    | cons c back ih =>
      intro front hSplit
      have hMark : c ≠ '@' := by
        rintro rfl
        exact absurd (hWord '@' (by simp [hSplit])) (by decide)
      have hFirst : Passes (front.reverse ++ before) [c] (back ++ rest) :=
        .char (literalLength_of_not_isPrefix hWord hPrefix hSplit) hMark
      refine hFirst.append ?_
      have hLater := ih (front ++ [c]) (by simp [hSplit])
      simpa using hLater
  exact hBack text [] rfl

/-! ### Where words and literals end -/

/-- No word goes on here. -/
def Apart (before rest : List Char) : Prop :=
  EndsNoWord before ∨ ∀ c ∈ rest.head?, ¬ Text.isXidContinue c

theorem Apart.of_getLast {c : Char} (hLast : text.getLast? = some c) (hc : ¬ isIdentChar c)
    (before rest : List Char) : Apart (text.reverse ++ before) rest := by
  refine .inl fun d hd => ?_
  rw [List.head?_append, List.head?_reverse, hLast] at hd
  obtain rfl := Option.some.inj hd
  exact hc

/-- No word goes on behind a raw string. -/
theorem Apart.of_hashes (text : List Char) (hashes : Nat) (before rest : List Char) :
    Apart ((text ++ '"' :: List.replicate hashes '#').reverse ++ before) rest := by
  cases hashes with
  | zero => exact .of_getLast (c := '"') (by simp) (by decide) before rest
  | succ hashes =>
    refine .of_getLast (c := '#') ?_ (by decide) before rest
    simp [List.getLast?_append, List.getLast?_cons, List.replicate_succ']

theorem getLast?_commentRest {depth : Nat} {comment : List Char}
    (h : CommentRest depth comment []) : comment.getLast? = some '/' := by
  generalize hNil : ([] : List Char) = rest at h
  induction h with
  | last => subst hNil; rfl
  | closing _ ih | opening _ ih | char _ _ _ ih => simp [List.getLast?_cons, ih hNil]

theorem getLast?_stringRest {rest : List Char} (h : StringRest rest) :
    rest.getLast? = some '"' := by
  induction h with
  | quote => rfl
  | escape _ ih | char _ _ _ ih => simp [List.getLast?_cons, ih]

/-- No word goes on behind a literal: it ends with a mark, or with its line. -/
theorem IsLiteral.apart {literal : List Char} (h : IsLiteral before literal rest) :
    Apart (literal.reverse ++ before) rest := by
  cases h with
  | line hLine hEnd =>
    refine .inr fun c hc => ?_
    obtain rfl := hEnd c hc
    decide
  | blockComment h =>
    refine .of_getLast (c := '/') ?_ (by decide) _ _
    simp [List.getLast?_cons, getLast?_commentRest h]
  | string h =>
    refine .of_getLast (c := '"') ?_ (by decide) _ _
    simp [List.getLast?_cons, getLast?_stringRest h]
  | @rawString hashes body =>
    have hEnd := Apart.of_hashes ('r' :: (List.replicate hashes '#' ++ '"' :: body)) hashes before
      rest
    simpa [rawClosing] using hEnd
  | character => exact .of_getLast (c := '\'') rfl (by decide) _ _
  | escaped => exact .of_getLast (c := '\'') (by simp [List.getLast?_cons]) (by decide) _ _

/-! ### Lexemes in code -/

/-- A lexeme without a mark is passed, and no word goes on behind it. -/
structure Crosses (before text rest : List Char) : Prop where
  passes : Passes before text rest
  apart : Apart (text.reverse ++ before) rest

theorem Passes.crosses (h : Passes before text (more ++ rest))
    (hMore : Crosses (text.reverse ++ before) more rest) : Crosses before (text ++ more) rest :=
  ⟨h.append hMore.passes, by simpa using hMore.apart⟩

theorem Crosses.literal {n : Nat} (h : literalLength before text = .ok (some n)) :
    Crosses before (text.take n) (text.drop n) := ⟨.literal h, (isLiteral_of_literalLength h).apart⟩

theorem Crosses.char {c : Char} (h : literalLength before (c :: rest) = .ok none)
    (hMark : c ≠ '@') (hEnd : ¬ isIdentChar c) : Crosses before [c] rest :=
  ⟨.char h hMark, .inl fun _ hd => Option.some.inj hd ▸ hEnd⟩

theorem Crosses.bare {c : Char} (hc : IsBare c) (hEnd : ¬ isIdentChar c)
    (before rest : List Char) : Crosses before [c] rest := by
  obtain ⟨hSlash, hQuote, hRaw, hChar, hMark⟩ := hc
  exact .char (literalLength_of_ne hSlash hQuote hRaw hChar before rest) hMark hEnd

theorem Crosses.of_skipsTo (h : SkipsTo (text ++ rest) rest) (before : List Char) :
    Crosses before text rest := by
  obtain ⟨length, hDrop, hLiteral⟩ := h
  have hTake : (text ++ rest).take length = text := by
    have hText := List.take_append_drop length (text ++ rest)
    rw [hDrop] at hText
    exact List.append_cancel_right hText
  have hCrosses := Crosses.literal (hLiteral before)
  rwa [hTake, hDrop] at hCrosses

/-- No digit is white space. -/
theorem isNumeric_of_isBlank {c : Char} (h : Text.isBlank c) : Text.isNumeric c = false := by
  rw [Text.isBlank] at h
  rw [Text.isNumeric]
  by_cases hAscii : c.toNat < 0x80
  · rw [if_pos hAscii] at h ⊢
    simp only [Bool.or_eq_true, Bool.and_eq_true, decide_eq_true_eq] at h
    have hBelow : c.toNat < 33 := by
      rcases h with rfl | hControl
      · decide
      · omega
    have hNone : ∀ n < 33, (Char.ofNat n).isDigit = false := by decide
    simpa using hNone c.toNat hBelow
  · rw [if_neg hAscii] at h ⊢
    exact Text.Ranges.contains_eq_false (by decide +kernel) h

theorem not_isIdentChar_of_isSpace {c : Char} (h : isSpace c) : ¬ isIdentChar c := by
  rw [isSpace, Bool.or_assoc, Bool.or_eq_true, Bool.or_eq_true, decide_eq_true_eq,
    decide_eq_true_eq] at h
  rcases h with hBlank | rfl | rfl
  · have hAlphabetic := isAlphabetic_of_isBlank hBlank
    have hNumeric := isNumeric_of_isBlank hBlank
    have hUnderscore : c ≠ '_' := by
      rintro rfl
      exact absurd hBlank (by decide)
    simp [isIdentChar, hAlphabetic, hNumeric, hUnderscore]
  · decide +kernel
  · decide +kernel

theorem isBare_of_isSpace {c : Char} (h : isSpace c) : IsBare c := by
  refine ⟨?_, ?_, ?_, ?_, ?_⟩ <;>
    · rintro rfl
      exact absurd h (by decide)

/-- White space and comments are passed. -/
theorem Crosses.of_afterTrivia {whole : List Char} (hText : text ++ afterTrivia whole = whole)
    (hBefore : Apart before whole) : Crosses before text (afterTrivia whole) := by
  fun_induction afterTrivia whole generalizing text before with
  | case1 whole rest h ih =>
    obtain ⟨gap, hGap⟩ := afterTrivia_suffix rest
    obtain ⟨front, rfl, hFront⟩ : ∃ front, front ++ rest = whole ∧ Crosses before front rest := by
      rcases skipsTo_of_afterSpace h with hSkips | ⟨c, hSpace, rfl⟩
      · obtain ⟨front, rfl⟩ := hSkips.suffix
        exact ⟨front, rfl, .of_skipsTo hSkips before⟩
      · exact ⟨[c], rfl, .bare (isBare_of_isSpace hSpace) (not_isIdentChar_of_isSpace hSpace) _ _⟩
    have hPasses := hFront.passes
    have hSplit : text = front ++ gap := by
      refine List.append_cancel_right (hText.trans ?_)
      rw [List.append_assoc, hGap]
    rw [← hGap] at hPasses
    rw [hSplit]
    exact hPasses.crosses (ih hGap hFront.apart)
  | case2 whole h =>
    obtain rfl : text = [] := by simpa using hText
    exact ⟨.nil before whole, hBefore⟩

theorem isBare_of_delimiter {c : Char}
    (h : (Delimiter.opening? c).isSome ∨ (Delimiter.closing? c).isSome) :
    IsBare c ∧ ¬ isIdentChar c := by
  have hDelimiter : c ∈ ['(', '[', '{', ')', ']', '}'] := by
    unfold Delimiter.opening? Delimiter.closing? at h
    rcases h with h | h <;> split at h <;> simp_all
  have hAll : ['(', '[', '{', ')', ']', '}'].all fun c => IsBare c && !isIdentChar c := by decide
  have hc := List.all_eq_true.1 hAll c hDelimiter
  simpa using hc

/-- Punctuation is no part of a word, and most of it begins no literal and no comment. -/
theorem startsPunct_cases {c : Char} (h : (punct? (c :: rest)).isSome) :
    startsComment (c :: rest) = false ∧ ¬ isIdentChar c ∧
      (IsBare c ∨ c = '/' ∨ c = '\'' ∨ c = '@') := by
  have hPunct : startsPunct (c :: rest) := by
    by_contra hNot
    rw [punct?, if_pos (by simpa using hNot)] at h
    cases h
  obtain ⟨hComment, hChar⟩ := Bool.and_eq_true_iff.1 hPunct
  have hMem : c ∈ "~!@#$%^&*-=+|;:,<.>/?'".toList := by simpa using hChar
  have hAll : "~!@#$%^&*-=+|;:,<.>/?'".toList.all fun c =>
      !isIdentChar c && (IsBare c || c ∈ ['/', '\'', '@']) := by decide
  have hc := List.all_eq_true.1 hAll c hMem
  exact ⟨by simpa using hComment, by simpa using hc⟩

/-- A single quote in front of a lifetime begins no character literal. -/
theorem literalLength_of_lifetime (h : (punct? ('\'' :: rest)).isSome) (before : List Char) :
    literalLength before ('\'' :: rest) = .ok none := by
  have hBackslash : isWordStart '\\' = false := by decide
  have hQuote : Text.isXidContinue '\'' = false := by decide
  rw [literalLength_eq_none_iff]
  intro hBegins
  cases hBegins with
  | escaped => simp [punct?, identifierLength?, wordLength, hBackslash] at h
  | @character c _ rest =>
    -- the quote ends a word of one character
    have hRaw : ['r', '#'].isPrefixOf (c :: '\'' :: rest) = false := by
      simp [List.isPrefixOf]
    by_cases hStart : isWordStart c
    · simp [punct?, identifierLength?, hRaw, wordLength, hStart, hQuote] at h
    · simp [punct?, identifierLength?, hRaw, wordLength, hStart] at h

theorem Crosses.of_punct {c : Char} (h : (punct? (c :: rest)).isSome) (hMark : c ≠ '@')
    (before : List Char) : Crosses before [c] rest := by
  obtain ⟨hComment, hEnd, hBare | rfl | rfl | rfl⟩ := startsPunct_cases h
  · exact .bare hBare hEnd before rest
  · refine .char (literalLength_eq_none_iff.2 fun hBegins => ?_) hMark hEnd
    cases hBegins <;> simp [startsComment] at hComment
  · exact .char (literalLength_of_lifetime h before) hMark hEnd
  · exact absurd rfl hMark

theorem Crosses.error (before rest : List Char) :
    Crosses before errorLiteral.toList rest := by
  have hText : errorLiteral.toList = ['('] ++ ("/*ERROR*/".toList ++ [')']) := by decide
  have hComment : literalLength ('(' :: before) ("/*ERROR*/)".toList ++ rest) = .ok (some 9) := by
    simp [literalLength, Literal.blockCommentLength]
  have hOpening : Passes before ['('] ("/*ERROR*/".toList ++ [')'] ++ rest) :=
    .bareChar (by decide) before _
  rw [hText]
  exact hOpening.crosses ((Passes.literal hComment).crosses
    (.bare (by decide) (by decide) _ rest))

/-- A raw C string has no quotes and no backslashes in it. -/
def IsSimple (content : List Char) : Prop :=
  ∀ hashes inner, content = 'c' :: 'r' :: (List.replicate hashes '#' ++
    '"' :: (inner ++ '"' :: List.replicate hashes '#')) → ∀ c ∈ inner, c ≠ '"' ∧ c ≠ '\\'

/-- Apart from its prefix, such a string is read as one that is not raw. -/
theorem Crosses.of_rawTerminated {hashes : Nat} {inner : List Char}
    (hInner : ∀ c ∈ inner, c ≠ '"' ∧ c ≠ '\\') (before rest : List Char) :
    Crosses before ('c' :: 'r' :: (List.replicate hashes '#' ++
      '"' :: (inner ++ '"' :: List.replicate hashes '#'))) rest := by
  have hHashes : ∀ c ∈ List.replicate hashes '#', IsBare c := fun c hc => by
    obtain rfl := List.eq_of_mem_replicate hc
    decide
  have hString (before rest : List Char) : Passes before ('"' :: inner ++ ['"']) rest := by
    have hLength : literalLength before ('"' :: inner ++ ['"'] ++ rest) =
        .ok (some ('"' :: inner ++ ['"']).length) := by
      simp [literalLength, stringLength_append_of_ne hInner, Literal.stringLength]
      omega
    have hPasses := Passes.literal hLength
    rwa [List.take_left, List.drop_left] at hPasses
  have hPrefix (rest : List Char) : Passes before (['c'] ++ ['r']) rest := by
    refine Passes.append (.bareChar (by decide) before _) (.char ?_ (by decide))
    exact literalLength_of_inWord (inWord_cons (by decide) (by decide) before) (by decide) rest
  refine ⟨?_, ?_⟩
  · have hAll := (hPrefix _).append ((Passes.bare hHashes _ _).append
      ((hString _ _).append (.bare hHashes _ rest)))
    simpa using hAll
  · have hApart := Apart.of_hashes ('c' :: 'r' :: (List.replicate hashes '#' ++ '"' :: inner))
      hashes before rest
    simpa using hApart

theorem Crosses.of_isQuoted {length : Nat} (h : IsQuoted text length)
    (hBefore : Apart before text) (hSimple : IsSimple (text.take length)) :
    Crosses before (text.take length) (text.drop length) := by
  cases h with
  | @closed start body inner hStart hInner =>
    rw [List.take_length_add_append, List.drop_length_add_append]
    have hAll : [[], ['b'], ['c']].all fun start => start.all (IsBare ·) := by decide
    have hBare : ∀ c ∈ start, IsBare c := by
      simpa using List.all_eq_true.1 hAll start hStart
    exact (Passes.bare hBare before _).crosses (.literal (hInner _))
  | @raw start body hashes inner hStart hInner =>
    simp only [List.mem_cons, List.not_mem_nil, or_false] at hStart
    have hRaw {before : List Char} (hWord : ¬ InWord before) :
        Crosses before
          (('r' :: (List.replicate hashes '#' ++ '"' :: body)).take (2 + hashes + inner))
          (('r' :: (List.replicate hashes '#' ++ '"' :: body)).drop (2 + hashes + inner)) :=
      .literal (by rw [literalLength_raw hWord, hInner])
    -- `r` and `br` are known prefixes; behind `cr`, hash signs and a string are passed instead
    rcases hStart with rfl | rfl | rfl
    · have hEnd : EndsNoWord before := hBefore.resolve_right fun h => h 'r' rfl (by decide)
      simpa using hRaw hEnd.not_inWord
    · have hEnd : EndsNoWord before := hBefore.resolve_right fun h => h 'b' rfl (by decide)
      have hWord : ¬ InWord ('b' :: before) := by
        rw [inWord_cons_b, hEnd.any_eq_false]
        exact Bool.false_ne_true
      rw [List.take_length_add_append, List.drop_length_add_append]
      exact (Passes.bareChar (by decide) before _).crosses (hRaw hWord)
    · obtain ⟨content, after, rfl, -, rfl⟩ := Literal.exists_of_rawStringLength hInner
      have hText : ['c'] ++ 'r' :: (List.replicate hashes '#' ++
          '"' :: (content ++ (rawClosing hashes ++ after))) =
          'c' :: 'r' :: (List.replicate hashes '#' ++
            '"' :: (content ++ rawClosing hashes)) ++ after := by
        simp
      have hLength : ['c'].length + (2 + hashes + (content.length + (rawClosing hashes).length)) =
          ('c' :: 'r' :: (List.replicate hashes '#' ++
            '"' :: (content ++ rawClosing hashes))).length := by
        simp
        omega
      rw [hText, hLength, List.take_left] at hSimple
      rw [hText, hLength, List.take_left, List.drop_left]
      exact .of_rawTerminated (hSimple hashes content rfl) before after

/-- A literal is passed together with its suffix. -/
theorem Crosses.of_literalParts {content suffix : List Char}
    (h : literalParts? (content ++ (suffix ++ rest)) = some (content.length, suffix.length))
    (hBefore : Apart before (content ++ (suffix ++ rest))) (hSimple : IsSimple content)
    (hSuffix : ∀ c ∈ suffix, isIdentChar c) (hPrefix : ¬ IsPrefix suffix rest) :
    Crosses before (content ++ suffix) rest := by
  obtain ⟨hLength, hCases⟩ := literalParts_cases h
  rw [List.drop_left] at hLength
  have hContent : Passes before content (suffix ++ rest) ∧
      (suffix = [] → Apart (content.reverse ++ before) rest) := by
    rcases hCases with hQuoted | hNumber
    · have hCrosses := Crosses.of_isQuoted hQuoted hBefore (by rwa [List.take_left])
      rw [List.take_left, List.drop_left] at hCrosses
      refine ⟨hCrosses.passes, ?_⟩
      rintro rfl
      exact hCrosses.apart
    · have hChars := hNumber.bare.2
      have hStop := hNumber.stop
      rw [List.take_left] at hChars
      rw [← List.length_append, ← List.append_assoc, List.drop_left] at hStop
      exact ⟨.bare hChars before _, fun _ => .inr hStop⟩
  refine hContent.1.crosses ⟨.word hSuffix hPrefix _, ?_⟩
  by_cases hNil : suffix = []
  · subst hNil
    exact hContent.2 rfl
  · exact .inr (isWholeWord_of_wordLength hLength.symm hNil).stop

/-- Words that could be prefixes of raw strings begin bad literals instead. -/
theorem not_isPrefix_of_startsBadLiteral (h : startsBadLiteral (text ++ rest) = false) :
    ¬ IsPrefix text rest := by
  rintro ⟨hText, hashes, body, rfl⟩
  have hBad : startsBadLiteral (text ++ (List.replicate hashes '#' ++ '"' :: body)) = true := by
    rcases hText with rfl | rfl <;> rcases hashes with _ | _ | hashes <;>
      simp [startsBadLiteral, List.replicate_succ, List.isPrefixOf]
  rw [hBad] at h
  cases h

/-- What is needed for a lexeme to be read as such in code. Words and suffixes consist of characters
that may stand in names, and do not look like prefixes of raw strings; and a raw C string may be
read as one that is not raw. -/
def Host.Lexeme.IsPlain (rest : List Char) : Lexeme → Prop
  | .word isRaw name =>
    name.head?.any isIdentStart ∧ (∀ c ∈ name, isIdentChar c) ∧
      (isRaw = true → ¬ IsPrefix name rest)
  | .literal content suffix =>
    IsSimple content ∧ (∀ c ∈ suffix, isIdentChar c) ∧ ¬ IsPrefix suffix rest
  | .gap _ | .delimiter _ | .punct _ => True

/-- The mark of a raw identifier begins no raw string. -/
theorem not_isPrefix_of_isWholeWord {name : List Char} (h : IsWholeWord name rest) :
    ¬ IsPrefix ['r'] ('#' :: (name ++ rest)) := by
  rintro ⟨-, hashes, body, hText⟩
  have hName : ∃ c ∈ (name ++ rest).head?, isWordStart c := by
    obtain ⟨c, hc, hStart⟩ := (Option.any_eq_true ..).1 h.start
    exact ⟨c, by rw [List.head?_append, hc]; rfl, hStart⟩
  obtain ⟨c, hc, hStart⟩ := hName
  -- neither a hash sign nor a quote begins a word
  have hChar : c = '#' ∨ c = '"' := by
    rcases hashes with _ | _ | hashes
    · cases hText
    · obtain rfl : '"' = c := by simpa [(List.cons.inj hText).2] using hc
      exact .inr rfl
    · obtain rfl : '#' = c := by
        simpa [List.replicate_succ, (List.cons.inj hText).2] using hc
      exact .inl rfl
  rcases hChar with rfl | rfl <;> exact absurd hStart (by decide)

/-- Words are passed. -/
theorem Crosses.of_identifierLength (h : identifierLength? (text ++ rest) = some text.length)
    (hBad : startsBadLiteral (text ++ rest) = false) (hPlain : (wordLexeme text).IsPlain rest)
    (before : List Char) : Crosses before text rest := by
  rcases isWholeWord_of_identifierLength h with ⟨name, rfl, hWord⟩ | ⟨hRaw, hWord⟩
  · obtain ⟨-, hChars, hPrefix⟩ : (Lexeme.word true name).IsPlain rest := hPlain
    have hLetter : Passes before ['r'] ('#' :: (name ++ rest)) :=
      .word (List.forall_mem_singleton.2 (by decide)) (not_isPrefix_of_isWholeWord hWord) before
    have hHash : Passes ('r' :: before) ['#'] (name ++ rest) :=
      .bareChar (by decide) _ _
    have hName : Passes ('#' :: 'r' :: before) name rest := .word hChars (hPrefix rfl) _
    have hAll : Passes before (['r'] ++ (['#'] ++ name)) rest :=
      hLetter.append (hHash.append hName)
    exact ⟨hAll, .inr hWord.stop⟩
  · rw [wordLexeme, hRaw] at hPlain
    exact ⟨.word hPlain.2.1 (not_isPrefix_of_startsBadLiteral hBad) before, .inr hWord.stop⟩

/-- Lexemes other than marks are passed. -/
theorem Crosses.of_precedes {lexeme : Lexeme} (h : lexeme.Precedes rest)
    (hPlain : lexeme.IsPlain rest) (hMark : lexeme ≠ .punct '@')
    (hBefore : Apart before (lexeme.text ++ rest)) : Crosses before lexeme.text rest := by
  cases h with
  | byteOrderMark => exact .bare (by decide) (by decide +kernel) before rest
  | @trivia text hTrivia =>
    have hText : text ++ afterTrivia (text ++ rest) = text ++ rest := by rw [hTrivia]
    have hCrosses := Crosses.of_afterTrivia hText hBefore
    rwa [hTrivia] at hCrosses
  | documentation hComment => exact .of_skipsTo (skipsTo_of_docComment hComment) before
  | delimiter hDelimiter =>
    obtain ⟨hBare, hEnd⟩ := isBare_of_delimiter hDelimiter
    exact .bare hBare hEnd before rest
  | punct hPunct => exact .of_punct hPunct (fun hc => hMark (hc ▸ rfl)) before
  | error => exact .error before rest
  | literal hLiteral =>
    obtain ⟨hSimple, hSuffix, hPrefix⟩ := hPlain
    rw [Lexeme.text, List.append_assoc] at hBefore
    exact .of_literalParts hLiteral hBefore hSimple hSuffix hPrefix
  | @word text hBad hLength =>
    rw [text_wordLexeme]
    exact .of_identifierLength hLength hBad hPlain before

/-! ### Names behind marks -/

/-- A name can go on with the first character of a text only if a word can. -/
def HeadSuits (text : List Char) : Prop :=
  ∀ c ∈ text.head?, isIdentChar c → Text.isXidContinue c

theorem HeadSuits.cons {c : Char} (h : isIdentChar c → Text.isXidContinue c) (rest : List Char) :
    HeadSuits (c :: rest) := by
  intro d hd
  obtain rfl := Option.some.inj hd
  exact h

/-- No name goes on with a literal. -/
theorem HeadSuits.of_literal {n : Nat}
    (h : ∀ before, literalLength before text = .ok (some n)) : HeadSuits text := by
  intro c hc hIdent
  obtain ⟨rest, rfl⟩ := List.head?_eq_some_iff.1 hc
  have hWord : InWord ['a'] := inWord_cons (by decide) (by decide) []
  have hNone := literalLength_of_inWord hWord hIdent rest
  rw [h] at hNone
  cases hNone

theorem HeadSuits.of_skipsTo (h : SkipsTo text rest) : HeadSuits text := by
  obtain ⟨length, -, hLiteral⟩ := h
  exact .of_literal hLiteral

theorem HeadSuits.of_literalParts {length suffix : Nat}
    (h : literalParts? text = some (length, suffix)) : HeadSuits text := by
  obtain ⟨-, hQuoted | hNumber⟩ := literalParts_cases h
  · cases hQuoted with
    | @closed start body inner hStart hInner =>
      simp only [List.mem_cons, List.not_mem_nil, or_false] at hStart
      rcases hStart with rfl | rfl | rfl
      · exact .of_literal hInner
      · exact .cons (fun _ => by decide) _
      · exact .cons (fun _ => by decide) _
    | @raw start body hashes inner hStart hInner =>
      simp only [List.mem_cons, List.not_mem_nil, or_false] at hStart
      rcases hStart with rfl | rfl | rfl <;> exact .cons (fun _ => by decide) _
  · obtain ⟨c, hc, hDigit⟩ := (Option.any_eq_true ..).1 hNumber.digit
    intro d hd _
    obtain rfl : c = d := Option.some.inj (hc.symm.trans hd)
    have hAscii : c.toNat < 0x80 := by
      have hNine := (Bool.and_eq_true_iff.1 hDigit).2
      have hLast : c.val ≤ 57 := by simpa using hNine
      exact Nat.lt_of_le_of_lt hLast (by decide)
    simp [Text.isXidContinue, hAscii, Char.isAlphanum, hDigit]

theorem HeadSuits.of_isWholeWord {name : List Char} (h : IsWholeWord name rest) :
    HeadSuits (name ++ rest) := by
  intro c hc _
  obtain ⟨d, hd, hStart⟩ := (Option.any_eq_true ..).1 h.start
  rw [List.head?_append, hd] at hc
  obtain rfl : d = c := Option.some.inj hc
  exact isXidContinue_of_isWordStart hStart

theorem HeadSuits.of_precedes {lexeme : Lexeme} (h : lexeme.Precedes rest)
    (hRest : HeadSuits rest) : HeadSuits (lexeme.text ++ rest) := by
  cases h with
  | byteOrderMark => exact .cons (fun hIdent => absurd hIdent (by decide +kernel)) _
  | @trivia text hTrivia =>
    rw [afterTrivia] at hTrivia
    split at hTrivia
    · next after hAfter =>
      rcases skipsTo_of_afterSpace hAfter with hSkips | ⟨c, hSpace, hText⟩
      · exact .of_skipsTo hSkips
      · rw [Lexeme.text, hText]
        exact .cons (fun hIdent => absurd hIdent (not_isIdentChar_of_isSpace hSpace)) _
    · rwa [Lexeme.text, hTrivia]
  | documentation hComment => exact .of_skipsTo (skipsTo_of_docComment hComment)
  | delimiter hDelimiter =>
    exact .cons (fun hIdent => absurd hIdent (isBare_of_delimiter hDelimiter).2) _
  | punct hPunct => exact .cons (fun hIdent => absurd hIdent (startsPunct_cases hPunct).2.1) _
  | error => exact .cons (fun hIdent => absurd hIdent (by decide)) _
  | literal hLiteral =>
    rw [Lexeme.text, List.append_assoc]
    exact .of_literalParts hLiteral
  | word hBad hLength =>
    rw [text_wordLexeme]
    rcases isWholeWord_of_identifierLength hLength with ⟨name, rfl, -⟩ | ⟨-, hWord⟩
    · exact .cons (fun _ => by decide) _
    · exact .of_isWholeWord hWord

theorem Host.AreLexemes.headSuits {lexemes : List Lexeme} (h : AreLexemes lexemes) :
    HeadSuits (Lexeme.textOf lexemes) := by
  induction lexemes with
  | nil => simp [HeadSuits, Lexeme.textOf]
  | cons lexeme rest ih => exact .of_precedes h.1 (ih h.2)

/-! ### Marks -/

/-- The words directly behind marks, with the positions of the marks. -/
def markedWords (span : Span) : List Lexeme → List Ident
  | .punct '@' :: .word isRaw name :: rest =>
    let word := (Lexeme.word isRaw name).text
    ⟨String.ofList word, span⟩ :: markedWords (span.advance ('@' :: word)) rest
  | lexeme :: rest => markedWords (span.advance lexeme.text) rest
  | [] => []

/-- The positions of the marks that are punctuation. -/
def markSpans (span : Span) : List Lexeme → List Span
  | .punct '@' :: rest => span :: markSpans (span.advance ['@']) rest
  | lexeme :: rest => markSpans (span.advance lexeme.text) rest
  | [] => []

/-- What looks like a name in front of lexemes is a word that is not raw. -/
def BeginsName (lexemes : List Lexeme) : Prop :=
  (Lexeme.textOf lexemes).head?.any isIdentStart → ∃ name rest, lexemes = .word false name :: rest

/-- All lexemes are read as such in code, also behind marks. -/
def ArePlain : List Lexeme → Prop
  | [] => True
  | lexeme :: rest =>
    lexeme.IsPlain (Lexeme.textOf rest) ∧ (lexeme = .punct '@' → BeginsName rest) ∧ ArePlain rest

namespace Fragment

/-- The position of a stray mark. -/
def stray? (entry : Piece × Span) : Option Span :=
  match entry.1 with
  | .stray => some entry.2
  | _ => none

theorem strayMarks_eq (fragment : Fragment) :
    fragment.strayMarks = fragment.locatedPieces.filterMap stray? := by
  rw [strayMarks]
  congr 1
  funext entry
  obtain ⟨piece, span⟩ := entry
  cases piece <;> rfl

theorem locate_append (span : Span) (parts more : List Piece) :
    locatedPieces.locate span (parts ++ more) = locatedPieces.locate span parts ++
      locatedPieces.locate (span.advance (parts.flatMap Piece.source)) more := by
  induction parts generalizing span with
  | nil => rfl
  | cons piece parts ih => simp [locatedPieces.locate, ih]

end Fragment

open Fragment (reference? stray?)
open Fragment.locatedPieces (locate)

/-- Only marks and names are noted. -/
theorem Passes.filterMap_locate {α : Type} {note : Piece × Span → Option α}
    (hNote : ∀ text span, note (.plain text, span) = none) (h : Passes before text rest)
    (span : Span) :
    (locate span (pieces before (text ++ rest))).filterMap note =
      (locate (span.advance text) (pieces (text.reverse ++ before) rest)).filterMap note := by
  obtain ⟨parts, hParts⟩ := h
  have hSource : (parts.map Piece.plain).flatMap Piece.source = text := by
    have hWhole := flatMap_source_pieces before (text ++ rest)
    rw [hParts, List.flatMap_append, flatMap_source_pieces] at hWhole
    exact List.append_cancel_right hWhole
  have hPlain (span : Span) : (locate span (parts.map Piece.plain)).filterMap note = [] := by
    clear hSource hParts
    induction parts generalizing span with
    | nil => rfl
    | cons part parts ih => rw [List.map_cons, locate, List.filterMap_cons, hNote]; exact ih _
  rw [hParts, Fragment.locate_append, List.filterMap_append, hSource, hPlain, List.nil_append]

/-- In code, names behind marks are the words directly behind marks, and stray marks are marks. -/
structure Agrees (span : Span) (before : List Char) (lexemes : List Lexeme) : Prop where
  references : (locate span (pieces before (Lexeme.textOf lexemes))).filterMap reference? =
    markedWords span lexemes
  strays : ∀ stray ∈ (locate span (pieces before (Lexeme.textOf lexemes))).filterMap stray?,
    stray ∈ markSpans span lexemes

theorem Agrees.pass {span : Span} {lexeme : Lexeme} {lexemes : List Lexeme}
    (hPasses : Passes before lexeme.text (Lexeme.textOf lexemes)) (hMark : lexeme ≠ .punct '@')
    (h : Agrees (span.advance lexeme.text) (lexeme.text.reverse ++ before) lexemes) :
    Agrees span before (lexeme :: lexemes) where
  references := by
    rw [Lexeme.textOf_cons, hPasses.filterMap_locate (fun _ _ => rfl), h.references, markedWords]
    rintro isRaw name rest rfl
    exact absurd rfl hMark
  strays := by
    rw [Lexeme.textOf_cons, hPasses.filterMap_locate (fun _ _ => rfl), markSpans]
    · exact h.strays
    · rintro rfl
      exact hMark rfl

theorem Agrees.reference {span : Span} {name : List Char} {lexemes : List Lexeme}
    (hStart : name.head?.any isIdentStart) (hChars : ∀ c ∈ name, isIdentChar c)
    (hStop : ∀ c ∈ (Lexeme.textOf lexemes).head?, ¬ isIdentChar c)
    (h : Agrees (span.advance ('@' :: name)) (name.reverse ++ '@' :: before) lexemes) :
    Agrees span before (.punct '@' :: .word false name :: lexemes) := by
  have hPieces : pieces before (Lexeme.textOf (.punct '@' :: .word false name :: lexemes)) =
      .reference name :: pieces (name.reverse ++ '@' :: before) (Lexeme.textOf lexemes) := by
    have hHead : (name ++ Lexeme.textOf lexemes).head?.any isIdentStart := by
      obtain ⟨c, hc, hFirst⟩ := (Option.any_eq_true ..).1 hStart
      rw [List.head?_append, hc]
      exact hFirst
    have hTake : (name ++ Lexeme.textOf lexemes).takeWhile isIdentChar = name := by
      rw [List.takeWhile_append_of_pos hChars]
      cases hText : Lexeme.textOf lexemes with
      | nil => simp
      | cons c rest => simp [hStop c (by rw [hText]; rfl)]
    have hDrop : (name ++ Lexeme.textOf lexemes).dropWhile isIdentChar =
        Lexeme.textOf lexemes := by
      rw [List.dropWhile_append_of_pos hChars]
      cases hText : Lexeme.textOf lexemes with
      | nil => rfl
      | cons c rest => simp [hStop c (by rw [hText]; rfl)]
    have hMarked : pieces before ('@' :: (name ++ Lexeme.textOf lexemes)) = _ :=
      pieces_of_reference hHead
    rw [hTake, hDrop] at hMarked
    exact hMarked
  constructor
  · rw [hPieces]
    exact congrArg (_ :: ·) h.references
  · rw [hPieces]
    exact fun stray hStray => List.mem_cons_of_mem span (h.strays stray hStray)

/-- A mark in front of something else is no reference. -/
theorem Agrees.mark {span : Span} {lexemes : List Lexeme}
    (hStart : ¬ (Lexeme.textOf lexemes).head?.any isIdentStart)
    (hWord : ∀ isRaw name rest, lexemes ≠ .word isRaw name :: rest)
    (h : Agrees (span.advance ['@']) ('@' :: before) lexemes) :
    Agrees span before (.punct '@' :: lexemes) := by
  have hPieces : pieces before (Lexeme.textOf (.punct '@' :: lexemes)) =
      .mark before :: pieces ('@' :: before) (Lexeme.textOf lexemes) := pieces_of_mark hStart
  have hMark : Piece.mark before = .plain ['@'] ∨ Piece.mark before = .stray := by
    rw [Piece.mark]
    split
    · exact .inl rfl
    · exact .inr rfl
  have hWords : markedWords span (.punct '@' :: lexemes) =
      markedWords (span.advance ['@']) lexemes := by
    rw [markedWords]
    · rfl
    · rintro isRaw name rest - rfl
      exact hWord isRaw name rest rfl
  constructor
  · rw [hPieces, hWords, ← h.references]
    rcases hMark with hMark | hMark <;>
      · rw [hMark]
        rfl
  · rw [hPieces]
    intro stray hStray
    rcases hMark with hMark | hMark
    · rw [hMark] at hStray
      exact List.mem_cons_of_mem span (h.strays stray hStray)
    · rw [hMark] at hStray
      rcases List.mem_cons.1 hStray with rfl | hStray
      · exact List.mem_cons_self
      · exact List.mem_cons_of_mem span (h.strays stray hStray)

/-- A word begins as names do. -/
theorem isIdentStart_of_word {isRaw : Bool} {name : List Char}
    (h : (Lexeme.word isRaw name).IsPlain rest) :
    ((Lexeme.word isRaw name).text ++ rest).head?.any isIdentStart := by
  cases isRaw with
  | false =>
    obtain ⟨c, hc, hStart⟩ := (Option.any_eq_true ..).1 h.1
    rw [Lexeme.text, List.head?_append, hc]
    exact hStart
  | true =>
    have hLetter : isIdentStart 'r' := by decide
    exact hLetter

/-- The code and the lexemes agree, from any lexeme on. -/
theorem agrees_of_areLexemes {lexemes : List Lexeme} (span : Span) (h : AreLexemes lexemes)
    (hPlain : ArePlain lexemes) (hBefore : Apart before (Lexeme.textOf lexemes)) :
    Agrees span before lexemes := by
  fun_induction markedWords span lexemes generalizing before with
  | case1 span isRaw name rest =>
    rename_i ih
    obtain ⟨-, hWord, hRest⟩ := h
    obtain ⟨-, hName, hPlainWord, hPlainRest⟩ := hPlain
    obtain ⟨other, others, hEq⟩ := hName rfl (isIdentStart_of_word hPlainWord)
    obtain ⟨rfl, -⟩ := Lexeme.word.inj (List.cons.inj hEq).1
    -- neither the word nor the name goes on behind the word
    have hStop : ∀ c ∈ (Lexeme.textOf rest).head?, ¬ isIdentChar c := fun c hc hIdent =>
      hWord.isWholeWord.stop c hc (hRest.headSuits c hc hIdent)
    exact .reference hPlainWord.1 hPlainWord.2.1 hStop
      (ih hRest hPlainRest.2 (.inr hWord.isWholeWord.stop))
  | case2 span lexeme rest hNot ih =>
    by_cases hMark : lexeme = .punct '@'
    · subst hMark
      have hWord : ∀ isRaw name more, rest ≠ .word isRaw name :: more :=
        fun isRaw name more hRest => hNot isRaw name more rfl hRest
      refine .mark ?_ hWord (ih h.2 hPlain.2.2 (.inl fun c hc => ?_))
      · intro hStart
        obtain ⟨name, more, hRest⟩ := hPlain.2.1 rfl hStart
        exact hWord false name more hRest
      · obtain rfl := Option.some.inj hc
        decide
    · have hCrosses := Crosses.of_precedes h.1 hPlain.1 hMark hBefore
      exact .pass hCrosses.passes hMark (ih h.2 hPlain.2.2 hCrosses.apart)
  | case3 =>
    have hNil : pieces before [] = [] := by rw [pieces]
    constructor
    · rw [Lexeme.textOf, List.flatMap_nil, hNil]
      rfl
    · rw [Lexeme.textOf, List.flatMap_nil, hNil]
      exact fun stray hStray => absurd hStray List.not_mem_nil

/-- In code that consists of tokens, references are the marks directly in front of words, and stray
marks are marks, provided that the code is plain. -/
theorem Fragment.references_of_lex (fragment : Fragment) {tokens : List Token}
    (h : lex fragment.text.toList = some tokens) :
    ∃ lexemes, lexNoted fragment.text.toList = some (tokens, lexemes) ∧
      Lexeme.textOf lexemes = fragment.text.toList ∧
      (ArePlain lexemes → fragment.references = markedWords fragment.span lexemes ∧
        ∀ stray ∈ fragment.strayMarks, stray ∈ markSpans fragment.span lexemes) := by
  rw [← map_fst_lexNoted] at h
  obtain ⟨⟨tokens, lexemes⟩, hNoted, rfl⟩ := Option.map_eq_some_iff.1 h
  obtain ⟨hText, hLexemes⟩ := makeUp_of_lexNoted hNoted
  refine ⟨lexemes, hNoted, hText, fun hPlain => ?_⟩
  have hBefore : Apart [] (Lexeme.textOf lexemes) := .inl (by simp [EndsNoWord])
  obtain ⟨hReferences, hStrays⟩ := agrees_of_areLexemes fragment.span hLexemes hPlain hBefore
  rw [hText] at hReferences hStrays
  rw [references_eq, strayMarks_eq]
  exact ⟨hReferences, hStrays⟩

/-! ### Code with marks in strings -/

namespace MarkedTokens

/-- A mark in front of a name, and another one in a string. -/
def plain : Fragment := ⟨"f(@x, \"@y\")", .start⟩

/-- The lexemes of the code. -/
def plainLexemes : List Lexeme :=
  [.word false ['f'], .delimiter '(', .punct '@', .word false ['x'], .punct ',', .gap [' '],
    .literal "\"@y\"".toList [], .delimiter ')']

theorem arePlain : ArePlain plainLexemes := by
  have hF : isIdentStart 'f' ∧ isIdentChar 'f' := by decide
  have hX : isIdentStart 'x' ∧ isIdentChar 'x' := by decide
  simp [plainLexemes, ArePlain, Lexeme.IsPlain, BeginsName, IsSimple, IsPrefix, hF, hX]

theorem references_of_lex_plain :
    (lex plain.text.toList).isSome ∧ plain.references = [⟨"x", ⟨1, 3, 2⟩⟩] := by
  have hNoted : (lexNoted plain.text.toList).map Prod.snd = some plainLexemes := by decide +kernel
  obtain ⟨⟨tokens, lexemes⟩, hFound, rfl⟩ := Option.map_eq_some_iff.1 hNoted
  have hLex : lex plain.text.toList = some tokens := by
    rw [← map_fst_lexNoted, hFound]
    rfl
  obtain ⟨lexemes, hSame, -, hAgree⟩ := Fragment.references_of_lex plain hLex
  obtain rfl : plainLexemes = lexemes :=
    (Prod.mk.inj (Option.some.inj (hFound.symm.trans hSame))).2
  exact ⟨by rw [hLex]; rfl, (hAgree arePlain).1⟩

/-- A raw C string that ends in a backslash, and a mark behind it. -/
def rawTerminated : Fragment := ⟨"cr\"\\\" @x \"\\\"\"", .start⟩

/-- The mark is in front of a word, but it is not found. -/
theorem not_found :
    ((lexNoted rawTerminated.text.toList).map fun found => markedWords .start found.2) =
        some [⟨"x", ⟨1, 7, 6⟩⟩] ∧ rawTerminated.references = [] := by
  decide +kernel

end MarkedTokens

end TreeGrammar
