import TreeGrammar.Host.Literal
import TreeGrammar.Host.Trivia
import TreeGrammar.Proofs.Grammar.LiteralForms

/-!
# Where literals and comments end

Rust checks what stands in a literal; to find its end, less is enough. Escapes have no quotes and no
backslashes behind their first character, so that it is enough to take one character with each
backslash. Where a literal or a comment is well written, both ways lead to the same end.

## Main results

* `stringLength_of_host`, `rawStringLength_of_host`, `literalLength_of_characterRest`: the ends of
  strings and characters
* `isQuoted_of_quotedLength`, `isQuoted_of_characterLength`: what literals with quotes consist of
* `isBareTo_of_fractionLength`, `isBareTo_of_integerLength`: no literal begins within a number
* `skipsTo_of_docComment`, `skipsTo_of_afterSpace`: comments and white space
-/

namespace TreeGrammar

open Literal

/-! ### Escapes -/

namespace Host

/-- A character that cannot end a literal. -/
def IsInert (c : Char) : Prop := c ≠ '"' ∧ c ≠ '\'' ∧ c ≠ '\\'

theorem isInert_of_digit {c : Char} (h : (digit? c).isSome) : IsInert c := by
  refine ⟨?_, ?_, ?_⟩ <;>
    · rintro rfl
      revert h
      decide

/-- All characters of an escape in braces are inert. -/
theorem isInert_of_bracedEscape {digits value : Nat} {text : List Char} {result : Nat × Nat}
    (h : bracedEscapeLength digits value text = some result) :
    result.1 ≤ text.length ∧ ∀ c ∈ text.take result.1, IsInert c := by
  fun_induction bracedEscapeLength digits value text generalizing result with
  | case1 => cases h
  | case2 digits value c rest hClose hValid =>
    -- the closing brace
    obtain rfl := Option.some.inj h
    refine ⟨Nat.le_add_left 1 _, ?_⟩
    obtain ⟨-, rfl⟩ := hClose
    simp [IsInert]
  | case3 => cases h
  | case4 digits value c rest hClose hUnderscore ih =>
    -- an underscore between the digits
    obtain ⟨inner, hInner, rfl⟩ := Option.map_eq_some_iff.1 h
    obtain ⟨hLength, hAll⟩ := ih hInner
    refine ⟨Nat.succ_le_succ hLength, ?_⟩
    rw [List.take_succ_cons]
    refine List.forall_mem_cons.2 ⟨?_, hAll⟩
    rw [hUnderscore.2]
    simp [IsInert]
  | case5 => cases h
  | case6 digits value c rest hClose hUnderscore digit hDigit hFew ih =>
    -- another digit
    obtain ⟨inner, hInner, rfl⟩ := Option.map_eq_some_iff.1 h
    obtain ⟨hLength, hAll⟩ := ih hInner
    refine ⟨Nat.succ_le_succ hLength, ?_⟩
    rw [List.take_succ_cons]
    exact List.forall_mem_cons.2 ⟨isInert_of_digit (by rw [hDigit]; rfl), hAll⟩
  | case7 => cases h

/-- An escape is one character, and inert ones behind it. -/
structure IsEscape (text : List Char) (length : Nat) : Prop where
  pos : 0 < length
  le_length : length ≤ text.length
  inert : ∀ c ∈ (text.take length).tail, IsInert c

theorem isEscape_of_escapeLength {kind : QuotedKind} {text : List Char} {length : Nat}
    (h : escapeLength kind text = some length) : IsEscape text length := by
  unfold escapeLength at h
  split at h
  · next a b rest =>
    obtain ⟨high, hHigh, h⟩ := Option.bind_eq_some_iff.1 h
    obtain ⟨low, hLow, h⟩ := Option.bind_eq_some_iff.1 h
    obtain rfl : length = 3 := by
      cases kind <;> simp_all
    refine ⟨Nat.succ_pos 2, by simp, ?_⟩
    have hFirst : IsInert a := isInert_of_digit (by rw [hHigh]; rfl)
    have hSecond : IsInert b := isInert_of_digit (by rw [hLow]; rfl)
    simpa using ⟨hFirst, hSecond⟩
  · next rest =>
    obtain ⟨⟨inner, value⟩, hInner, h⟩ := Option.bind_eq_some_iff.1 h
    obtain ⟨hLength, hAll⟩ := isInert_of_bracedEscape hInner
    obtain rfl : length = inner + 2 := by
      cases kind <;> simp_all
    refine ⟨Nat.succ_pos _, Nat.add_le_add_right hLength 2, ?_⟩
    rw [List.take_succ_cons, List.take_succ_cons, List.tail_cons]
    exact List.forall_mem_cons.2 ⟨by simp [IsInert], hAll⟩
  · next c rest _ _ =>
    obtain rfl : length = 1 := by
      split at h
      · exact (Option.some.inj h).symm
      · cases h
    exact ⟨Nat.one_pos, by simp, by simp⟩
  · cases h

/-- All characters that an escaped line end takes with it are inert. -/
theorem isInert_of_continuation {text : List Char} {length : Nat}
    (h : continuationLength text = some length) :
    length ≤ text.length ∧ ∀ c ∈ text.take length, IsInert c := by
  fun_induction continuationLength text generalizing length with
  | case1 => cases h
  | case2 rest ih =>
    -- a carriage return with its line feed
    obtain ⟨inner, hInner, rfl⟩ := Option.map_eq_some_iff.1 h
    obtain ⟨hLength, hAll⟩ := ih hInner
    refine ⟨Nat.add_le_add_right hLength 2, ?_⟩
    rw [List.take_succ_cons, List.take_succ_cons]
    simpa [IsInert] using hAll
  | case3 => cases h
  | case4 c rest _ _ hBlank ih =>
    -- a space, a tab or a line feed
    obtain ⟨inner, hInner, rfl⟩ := Option.map_eq_some_iff.1 h
    obtain ⟨hLength, hAll⟩ := ih hInner
    refine ⟨Nat.succ_le_succ hLength, ?_⟩
    have hChar : IsInert c := by
      simp only [List.mem_cons, List.not_mem_nil, or_false] at hBlank
      rcases hBlank with rfl | rfl | rfl <;> simp [IsInert]
    rw [List.take_succ_cons]
    exact List.forall_mem_cons.2 ⟨hChar, hAll⟩
  | case5 =>
    obtain rfl := Option.some.inj h
    simp

theorem isEscape_of_continuation {text : List Char} {length : Nat}
    (hStart : text.head? = some '\n' ∨ text.head? = some '\r')
    (h : continuationLength text = some length) : IsEscape text length := by
  obtain ⟨hLength, hAll⟩ := isInert_of_continuation h
  refine ⟨?_, hLength, fun c hc => hAll c (List.mem_of_mem_tail hc)⟩
  -- the line end is one of the characters that are taken
  have hSome : continuationLength text ≠ some 0 := by
    cases text with
    | nil => simp at hStart
    | cons c rest =>
      rcases hStart with hLine | hReturn
      · obtain rfl := Option.some.inj hLine
        simp [continuationLength]
      · obtain rfl := Option.some.inj hReturn
        unfold continuationLength
        split <;> simp_all
  refine Nat.pos_of_ne_zero ?_
  rintro rfl
  exact hSome h

/-! ### Strings -/

/-- Most characters belong to the content of a string. -/
theorem stringLength_cons_of_ne {c : Char} (hQuote : c ≠ '"') (hBackslash : c ≠ '\\')
    (rest : List Char) :
    Literal.stringLength (c :: rest) = (Literal.stringLength rest).map (· + 1) := by
  rw [Literal.stringLength]
  · exact hQuote
  · rintro d more rfl
    exact absurd rfl hBackslash

/-- Characters that are no quotes and no backslashes belong to the content of a string. -/
theorem stringLength_append_of_ne {text : List Char} (h : ∀ c ∈ text, c ≠ '"' ∧ c ≠ '\\')
    (rest : List Char) :
    Literal.stringLength (text ++ rest) = (Literal.stringLength rest).map (· + text.length) := by
  induction text with
  | nil => simp
  | cons c text ih =>
    obtain ⟨hChar, hMore⟩ := List.forall_mem_cons.1 h
    rw [List.cons_append, stringLength_cons_of_ne hChar.1 hChar.2, ih hMore, Option.map_map]
    rfl

/-- A backslash takes its escape with it. -/
theorem IsEscape.stringLength_eq {text : List Char} {length : Nat} (h : IsEscape text length) :
    Literal.stringLength ('\\' :: text) =
      (Literal.stringLength (text.drop length)).map (length + 1 + ·) := by
  obtain ⟨more, rfl⟩ := Nat.exists_eq_succ_of_ne_zero (Nat.ne_of_gt h.pos)
  cases text with
  | nil => exact absurd h.le_length (by simp)
  | cons c rest =>
    have hMore : more ≤ rest.length := Nat.le_of_succ_le_succ h.le_length
    have hInert := h.inert
    rw [List.take_succ_cons, List.tail_cons] at hInert
    have hRest := stringLength_append_of_ne (fun d hd => ⟨(hInert d hd).1, (hInert d hd).2.2⟩)
      (rest.drop more)
    rw [List.take_append_drop, List.length_take_of_le hMore] at hRest
    rw [Literal.stringLength, hRest, Option.map_map, List.drop_succ_cons]
    congr 1
    funext n
    simp only [Function.comp]
    omega

/-- Strings end at the same quote. -/
theorem stringLength_of_host {kind : QuotedKind} {text : List Char} {length : Nat}
    (h : stringLength kind text = some length) : Literal.stringLength text = some length := by
  fun_induction stringLength kind text generalizing length with
  | case1 => cases h
  | case2 rest =>
    -- the closing quote
    obtain rfl := Option.some.inj h
    simp [Literal.stringLength]
  | case3 rest ih =>
    -- a carriage return with its line feed
    obtain ⟨inner, hInner, rfl⟩ := Option.map_eq_some_iff.1 h
    rw [stringLength_cons_of_ne (by decide) (by decide),
      stringLength_cons_of_ne (by decide) (by decide), ih hInner]
    rfl
  | case4 => cases h
  | case5 rest escape =>
    -- a backslash and what it escapes
    rename_i ih
    obtain ⟨taken, hTaken, h⟩ := Option.bind_eq_some_iff.1 h
    obtain ⟨inner, hInner, rfl⟩ := Option.map_eq_some_iff.1 h
    have hEscape : IsEscape rest taken := by
      simp only [escape] at hTaken
      split at hTaken
      · exact isEscape_of_continuation (.inl rfl) hTaken
      · exact isEscape_of_continuation (.inr rfl) hTaken
      · exact isEscape_of_escapeLength hTaken
    rw [hEscape.stringLength_eq, ih taken hInner]
    rfl
  | case6 c rest hQuote _ _ hBackslash hAdmits ih =>
    obtain ⟨inner, hInner, rfl⟩ := Option.map_eq_some_iff.1 h
    rw [stringLength_cons_of_ne hQuote hBackslash, ih hInner]
    rfl
  | case7 => cases h

/-- Raw strings end at the same quote. -/
theorem rawStringLength_of_host {kind : QuotedKind} {hashes : Nat} {text : List Char}
    {length : Nat} (h : rawStringLength kind hashes text = some length) :
    Literal.rawStringLength hashes text = some length := by
  fun_induction rawStringLength kind hashes text generalizing length with
  | case1 => cases h
  | case2 c rest hEnd => rwa [Literal.rawStringLength, if_pos hEnd]
  | case3 rest hEnd ih =>
    obtain ⟨inner, hInner, rfl⟩ := Option.map_eq_some_iff.1 h
    simp [Literal.rawStringLength, ih hInner]
  | case4 => cases h
  | case5 c rest _ _ hAdmits hEnd ih =>
    obtain ⟨inner, hInner, rfl⟩ := Option.map_eq_some_iff.1 h
    rw [Literal.rawStringLength, if_neg hEnd, ih hInner]
    rfl
  | case6 => cases h

/-- A raw string consists of hash signs, a quote and the rest. -/
theorem exists_of_hashedLength {kind : QuotedKind} {text : List Char} {length : Nat}
    (h : hashedLength kind text = some length) :
    ∃ hashes body inner, text = List.replicate hashes '#' ++ '"' :: body ∧
      Literal.rawStringLength hashes body = some inner ∧ length = hashes + 1 + inner := by
  unfold hashedLength at h
  dsimp only at h
  split at h
  · next body hBody =>
    split at h
    · obtain ⟨inner, hInner, rfl⟩ := Option.map_eq_some_iff.1 h
      refine ⟨_, body, inner, ?_, rawStringLength_of_host hInner, rfl⟩
      rw [← hBody]
      exact (replicate_append_drop text).symm
    · cases h
  · cases h

/-! ### Characters -/

theorem quoteLength_of_getElem {text : List Char} {length : Nat}
    (hInert : ∀ c ∈ text.take length, c ≠ '\'') (hQuote : text[length]? = some '\'') :
    Literal.quoteLength text = some (length + 1) := by
  induction text generalizing length with
  | nil => simp at hQuote
  | cons c text ih =>
    cases length with
    | zero =>
      obtain rfl : c = '\'' := by simpa using hQuote
      rfl
    | succ length =>
      rw [List.take_succ_cons] at hInert
      obtain ⟨hChar, hMore⟩ := List.forall_mem_cons.1 hInert
      rw [List.getElem?_cons_succ] at hQuote
      rw [Literal.quoteLength, ih hMore hQuote]
      · rfl
      · exact hChar

/-- A single quote ends a character literal behind its escape. -/
theorem literalLength_of_characterRest {kind : QuotedKind} {text : List Char} {length : Nat}
    (h : characterRestLength kind text = some length) (before : List Char) :
    TreeGrammar.literalLength before ('\'' :: text) = .ok (some (length + 1)) := by
  unfold characterRestLength at h
  dsimp only at h
  obtain ⟨inner, hInner, h⟩ := Option.bind_eq_some_iff.1 h
  split at h
  · next hQuote =>
    obtain rfl := Option.some.inj h
    split at hInner
    · next rest =>
      obtain ⟨taken, hTaken, rfl⟩ := Option.map_eq_some_iff.1 hInner
      have hEscape := isEscape_of_escapeLength hTaken
      obtain ⟨more, rfl⟩ := Nat.exists_eq_succ_of_ne_zero (Nat.ne_of_gt hEscape.pos)
      cases rest with
      | nil => exact absurd hEscape.le_length (by simp)
      | cons c rest =>
        have hInert := hEscape.inert
        rw [List.take_succ_cons, List.tail_cons] at hInert
        rw [List.getElem?_cons_succ, List.getElem?_cons_succ] at hQuote
        have hLength := quoteLength_of_getElem (fun d hd => (hInert d hd).2.1) hQuote
        simp [TreeGrammar.literalLength, hLength]
        omega
    · next c rest hBackslash =>
      split at hInner
      · obtain rfl := Option.some.inj hInner
        obtain ⟨more, rfl⟩ : ∃ more, rest = '\'' :: more := by
          cases rest with
          | nil => simp at hQuote
          | cons d more => exact ⟨more, by simpa using hQuote⟩
        have hChar : c ≠ '\\' := hBackslash
        unfold TreeGrammar.literalLength
        split <;> simp_all
      · cases hInner
    · cases hInner
  · cases h

/-! ### Numbers -/

/-- A character at which neither a literal nor a reference begins. -/
def IsBare (c : Char) : Prop := c ≠ '/' ∧ c ≠ '"' ∧ c ≠ 'r' ∧ c ≠ '\'' ∧ c ≠ '@'

instance (c : Char) : Decidable (IsBare c) :=
  inferInstanceAs (Decidable (c ≠ '/' ∧ c ≠ '"' ∧ c ≠ 'r' ∧ c ≠ '\'' ∧ c ≠ '@'))

/-- Only bare characters stand in the first part of a text. -/
def IsBareTo (length : Nat) (text : List Char) : Prop :=
  length ≤ text.length ∧ ∀ c ∈ text.take length, IsBare c

theorem isBareTo_zero (text : List Char) : IsBareTo 0 text := by simp [IsBareTo]

theorem IsBareTo.cons {c : Char} {length : Nat} {text : List Char} (h : IsBareTo length text)
    (hc : IsBare c) : IsBareTo (length + 1) (c :: text) := by
  refine ⟨Nat.succ_le_succ h.1, ?_⟩
  rw [List.take_succ_cons]
  exact List.forall_mem_cons.2 ⟨hc, h.2⟩

theorem IsBareTo.add {first second : Nat} {text : List Char} (h : IsBareTo first text)
    (hMore : IsBareTo second (text.drop first)) : IsBareTo (first + second) text := by
  have hLength := hMore.1
  rw [List.length_drop] at hLength
  refine ⟨by have := h.1; omega, ?_⟩
  rw [List.take_add]
  exact List.forall_mem_append.2 ⟨h.2, hMore.2⟩

theorem isBareTo_takeWhile {p : Char → Bool} (hBare : ∀ c, p c → IsBare c) (text : List Char) :
    IsBareTo (text.takeWhile p).length text := by
  have hPrefix : text.takeWhile p <+: text := List.takeWhile_prefix p
  refine ⟨hPrefix.length_le, ?_⟩
  rw [← List.prefix_iff_eq_take.1 hPrefix]
  exact fun c hc => hBare c (List.mem_takeWhile_imp hc)

theorem isBare_of_digit {c : Char} (h : (digit? c).isSome) : IsBare c := by
  refine ⟨?_, ?_, ?_, ?_, ?_⟩ <;>
    · rintro rfl
      revert h
      decide

theorem isBare_of_isDigit {c : Char} (h : c.isDigit) : IsBare c :=
  isBare_of_digit (by simp [digit?, h])

theorem isBareTo_of_digitsLength {base : Nat} {isEmpty : Bool} {text : List Char} {length : Nat}
    (h : digitsLength base isEmpty text = some length) : IsBareTo length text := by
  fun_induction digitsLength base isEmpty text generalizing length with
  | case1 => cases h
  | case2 =>
    obtain rfl := Option.some.inj h
    exact isBareTo_zero _
  | case3 => cases h
  | case4 =>
    -- an underscore
    rename_i ih
    obtain ⟨inner, hInner, rfl⟩ := Option.map_eq_some_iff.1 h
    exact (ih hInner).cons (by decide)
  | case5 isEmpty c rest hUnderscore digit hDigit hLess =>
    -- a digit of the base
    rename_i ih
    obtain ⟨inner, hInner, rfl⟩ := Option.map_eq_some_iff.1 h
    exact (ih hInner).cons (isBare_of_digit (by rw [hDigit]; rfl))
  | case6 => cases h
  | case7 isEmpty c rest stop | case8 isEmpty c rest stop =>
    -- a digit of a larger base, or no digit: the number ends in front of it
    simp only [stop] at h
    split at h
    · cases h
    · obtain rfl := Option.some.inj h
      exact isBareTo_zero _

theorem isBareTo_of_integerLength {text : List Char} {length : Nat}
    (h : integerLength text = some length) : IsBareTo length text := by
  unfold integerLength at h
  split at h
  case h_4 => exact isBareTo_of_digitsLength h
  all_goals
    obtain ⟨inner, hInner, rfl⟩ := Option.map_eq_some_iff.1 h
    exact ((isBareTo_of_digitsLength hInner).cons (by decide)).cons (by decide)

theorem isDigit_of_integerLength {text : List Char} {length : Nat}
    (h : integerLength text = some length) : text.head?.any Char.isDigit := by
  unfold integerLength at h
  split at h
  case h_4 =>
    cases text with
    | nil => cases h
    | cons c text =>
      by_contra hDigit
      have hc : c.isDigit = false := by simpa using hDigit
      rw [digitsLength] at h
      simp only [digit?, hc] at h
      grind
  all_goals rfl

theorem isDigit_of_fractionLength {text : List Char} {length : Nat}
    (h : fractionLength text = some length) : text.head?.any Char.isDigit := by
  by_contra hDigit
  rw [fractionLength, if_neg hDigit] at h
  cases h

theorem isBareTo_of_exponentLength {hasSign hasDigits : Bool} {text : List Char} {length : Nat}
    (h : exponentLength hasSign hasDigits text = some length) : IsBareTo length text := by
  fun_induction exponentLength hasSign hasDigits text generalizing length with
  | case1 | case5 =>
    -- the exponent has ended
    obtain rfl := Option.some.inj h
    exact isBareTo_zero _
  | case2 => cases h
  | case3 =>
    -- an underscore
    rename_i ih
    obtain ⟨inner, hInner, rfl⟩ := Option.map_eq_some_iff.1 h
    exact (ih hInner).cons (by decide)
  | case4 hasSign hasDigits c rest hUnderscore hDigit ih =>
    obtain ⟨inner, hInner, rfl⟩ := Option.map_eq_some_iff.1 h
    exact (ih hInner).cons (isBare_of_isDigit hDigit)
  | case6 hasSign hasDigits c rest hUnderscore hDigit hMore hSign ih =>
    -- the sign
    obtain ⟨inner, hInner, rfl⟩ := Option.map_eq_some_iff.1 h
    refine (ih hInner).cons ?_
    have hChar : c = '+' ∨ c = '-' := by simpa using (Bool.and_eq_true_iff.1 hSign).1
    rcases hChar with rfl | rfl <;> decide
  | case7 => cases h

theorem isBareTo_of_fractionLength {text : List Char} {length : Nat}
    (h : fractionLength text = some length) : IsBareTo length text := by
  have hDecimals (text : List Char) :
      IsBareTo (text.takeWhile fun c => c.isDigit || c = '_').length text :=
    isBareTo_takeWhile (fun c hc => by
      rcases Bool.or_eq_true_iff.1 hc with hDigit | hUnderscore
      · exact isBare_of_isDigit hDigit
      · obtain rfl := of_decide_eq_true hUnderscore
        decide) text
  -- an exponent may follow the digits
  have hExponent {start inner : Nat} {c : Char} {rest : List Char} (hc : IsBare c)
      (hStart : IsBareTo start text) (hRest : text.drop start = c :: rest)
      (hInner : exponentLength false false rest = some inner) :
      IsBareTo (start + 1 + inner) text := by
    have hMore : IsBareTo (inner + 1) (text.drop start) := by
      rw [hRest]
      exact (isBareTo_of_exponentLength hInner).cons hc
    rw [Nat.add_assoc, Nat.add_comm 1]
    exact hStart.add hMore
  unfold fractionLength at h
  dsimp only at h
  split at h
  · split at h
    · next rest hRest =>
      split at h
      · cases h
      · obtain rfl := Option.some.inj h
        have hPoint : IsBareTo ((rest.takeWhile fun c => c.isDigit || c = '_').length + 1)
            (text.drop (text.takeWhile fun c => c.isDigit || c = '_').length) := by
          rw [hRest]
          exact (hDecimals rest).cons (by decide)
        have hDigits := (hDecimals text).add hPoint
        rw [Nat.add_comm _ 1, ← Nat.add_assoc] at hDigits
        split
        case h_3 => exact hDigits
        all_goals
          next more hMore =>
          cases hInner : exponentLength false false more with
          | none => exact hDigits
          | some inner => exact hExponent (by decide) hDigits hMore hInner
    · split at h
      case h_3 => cases h
      all_goals
        next more hMore =>
        obtain ⟨inner, hInner, rfl⟩ := Option.map_eq_some_iff.1 h
        exact hExponent (by decide) (hDecimals text) hMore hInner
  · cases h

/-! ### Quoted literals -/

/-- The length of a literal with quotes, up to its suffix, at the start of a text. -/
inductive IsQuoted : List Char → Nat → Prop where
  | closed {start body : List Char} {inner : Nat} (hStart : start ∈ [[], ['b'], ['c']])
      (h : ∀ before, TreeGrammar.literalLength before body = .ok (some inner)) :
      IsQuoted (start ++ body) (start.length + inner)
  | raw {start body : List Char} {hashes inner : Nat} (hStart : start ∈ [[], ['b'], ['c']])
      (h : Literal.rawStringLength hashes body = some inner) :
      IsQuoted (start ++ 'r' :: (List.replicate hashes '#' ++ '"' :: body))
        (start.length + (2 + hashes + inner))

theorem isQuoted_of_stringLength {kind : QuotedKind} {text : List Char} {length : Nat}
    (start : List Char) (hStart : start ∈ [[], ['b'], ['c']])
    (h : stringLength kind text = some length) :
    IsQuoted (start ++ '"' :: text) (length + (start.length + 1)) := by
  rw [Nat.add_comm length, Nat.add_assoc]
  refine .closed hStart fun before => ?_
  simp [TreeGrammar.literalLength, stringLength_of_host h]

theorem isQuoted_of_hashedLength {kind : QuotedKind} {text : List Char} {length : Nat}
    (start : List Char) (hStart : start ∈ [[], ['b'], ['c']])
    (h : hashedLength kind text = some length) :
    IsQuoted (start ++ 'r' :: text) (length + (start.length + 1)) := by
  obtain ⟨hashes, body, inner, rfl, hInner, rfl⟩ := exists_of_hashedLength h
  rw [show hashes + 1 + inner + (start.length + 1) = start.length + (2 + hashes + inner) by omega]
  exact .raw hStart hInner

theorem isQuoted_of_characterRestLength {kind : QuotedKind} {text : List Char}
    {length : Nat} (start : List Char) (hStart : start ∈ [[], ['b'], ['c']])
    (h : characterRestLength kind text = some length) :
    IsQuoted (start ++ '\'' :: text) (length + (start.length + 1)) := by
  rw [Nat.add_comm length, Nat.add_assoc, Nat.add_comm 1]
  exact .closed hStart (literalLength_of_characterRest h)

theorem isQuoted_of_quotedLength {text : List Char} {length : Nat}
    (h : quotedLength text = some length) : IsQuoted text length := by
  unfold quotedLength at h
  split at h
  case h_7 => cases h
  all_goals obtain ⟨inner, hInner, rfl⟩ := Option.map_eq_some_iff.1 h
  · exact isQuoted_of_stringLength [] (by simp) hInner
  · exact isQuoted_of_hashedLength [] (by simp) hInner
  · exact isQuoted_of_stringLength ['b'] (by simp) hInner
  · exact isQuoted_of_hashedLength ['b'] (by simp) hInner
  · exact isQuoted_of_stringLength ['c'] (by simp) hInner
  · exact isQuoted_of_hashedLength ['c'] (by simp) hInner

theorem IsQuoted.le_length {text : List Char} {length : Nat} (h : IsQuoted text length) :
    length ≤ text.length := by
  cases h with
  | @closed start body inner hStart h =>
    have hInner := length_le_of_literalLength (h [])
    rw [List.length_append]
    omega
  | @raw start body hashes inner hStart h =>
    have hLength := literalLength_raw not_inWord_nil hashes body
    rw [h] at hLength
    have hInner := length_le_of_literalLength hLength
    rw [List.length_append]
    omega

theorem isQuoted_of_characterLength {text : List Char} {length : Nat}
    (h : characterLength text = some length) : IsQuoted text length := by
  unfold characterLength at h
  split at h
  case h_3 => cases h
  all_goals obtain ⟨inner, hInner, rfl⟩ := Option.map_eq_some_iff.1 h
  · exact isQuoted_of_characterRestLength ['b'] (by simp) hInner
  · exact isQuoted_of_characterRestLength [] (by simp) hInner

/-! ### Comments -/

/-- Block comments end at the same place. -/
theorem blockCommentLength_of_host {depth : Nat} {text comment rest : List Char}
    (h : splitBlockComment depth text = some (comment, rest)) :
    ∃ length, Literal.blockCommentLength depth text = some length ∧ text.drop length = rest := by
  fun_induction splitBlockComment depth text generalizing comment rest with
  | case1 depth text ih =>
    -- an inner comment opens
    obtain ⟨⟨inner, after⟩, hInner, hPair⟩ := Option.map_eq_some_iff.1 h
    obtain ⟨length, hLength, hDrop⟩ := ih hInner
    refine ⟨length + 2, by simp [Literal.blockCommentLength, hLength], hDrop.trans ?_⟩
    exact (Prod.mk.inj hPair).2
  | case2 depth text hLast =>
    -- the outermost comment closes
    obtain ⟨-, rfl⟩ := Prod.mk.inj (Option.some.inj h)
    exact ⟨2, by simp [Literal.blockCommentLength, hLast], rfl⟩
  | case3 depth text hLast ih =>
    -- an inner comment closes
    obtain ⟨⟨inner, after⟩, hInner, hPair⟩ := Option.map_eq_some_iff.1 h
    obtain ⟨length, hLength, hDrop⟩ := ih hInner
    refine ⟨length + 2, by simp [Literal.blockCommentLength, hLast, hLength], hDrop.trans ?_⟩
    exact (Prod.mk.inj hPair).2
  | case4 depth c text hOpening hClosing ih =>
    obtain ⟨⟨inner, after⟩, hInner, hPair⟩ := Option.map_eq_some_iff.1 h
    obtain ⟨length, hLength, hDrop⟩ := ih hInner
    refine ⟨length + 1, ?_, hDrop.trans (Prod.mk.inj hPair).2⟩
    rw [Literal.blockCommentLength, hLength]
    · rfl
    · exact hOpening
    · exact hClosing
  | case5 => cases h

/-- Lines end at the same line feed. -/
theorem splitLine_eq (text : List Char) :
    (splitLine text).2 = text.drop (Literal.lineLength text) := by
  fun_induction splitLine text with
  | case1 => rfl
  | case2 rest => simp [Literal.lineLength]
  | case3 rest => simp [Literal.lineLength]
  | case4 c rest hLine _ ih =>
    have hLength : Literal.lineLength (c :: rest) = Literal.lineLength rest + 1 := by
      have hChar : c ≠ '\n' := hLine
      simp [Literal.lineLength, hChar]
    rw [hLength, List.drop_succ_cons, ← ih]
    rfl

/-- A comment in code that is skipped: the rest of the code comes behind it. -/
def SkipsTo (text rest : List Char) : Prop :=
  ∃ length, text.drop length = rest ∧
    ∀ before, TreeGrammar.literalLength before text = .ok (some length)

theorem SkipsTo.suffix {text rest : List Char} (h : SkipsTo text rest) : rest <:+ text := by
  obtain ⟨length, rfl, -⟩ := h
  exact List.drop_suffix length text

theorem skipsTo_line (text : List Char) : SkipsTo ('/' :: '/' :: text) (splitLine text).2 :=
  ⟨2 + Literal.lineLength text, by rw [drop_two_add, splitLine_eq],
    fun before => by simp [TreeGrammar.literalLength]⟩

theorem skipsTo_block {text comment rest : List Char}
    (h : splitBlockComment 1 text = some (comment, rest)) : SkipsTo ('/' :: '*' :: text) rest := by
  obtain ⟨length, hLength, hDrop⟩ := blockCommentLength_of_host h
  exact ⟨2 + length, by rw [drop_two_add, hDrop],
    fun before => by simp [TreeGrammar.literalLength, hLength]⟩

theorem skipsTo_of_docComment {text rest : List Char} {comment : DocComment}
    (h : docComment? text = some (comment, rest)) : SkipsTo text rest := by
  unfold docComment? at h
  split at h
  · next rest =>
    obtain ⟨-, rfl⟩ := Prod.mk.inj (Option.some.inj h)
    have hLine := skipsTo_line ('!' :: rest)
    rwa [splitLine] at hLine
    all_goals simp
  · next rest =>
    obtain ⟨⟨inner, after⟩, hInner, hPair⟩ := Option.map_eq_some_iff.1 h
    obtain ⟨-, rfl⟩ := Prod.mk.inj hPair
    refine skipsTo_block (?_ : _ = some ('!' :: inner, after))
    rw [splitBlockComment, hInner]
    all_goals simp
  · next rest =>
    split at h
    · cases h
    · obtain ⟨-, rfl⟩ := Prod.mk.inj (Option.some.inj h)
      have hLine := skipsTo_line ('/' :: rest)
      rwa [splitLine] at hLine
      all_goals simp
  · next rest =>
    split at h
    · cases h
    · next hHead =>
      obtain ⟨⟨inner, after⟩, hInner, hPair⟩ := Option.map_eq_some_iff.1 h
      obtain ⟨-, rfl⟩ := Prod.mk.inj hPair
      refine skipsTo_block (?_ : _ = some ('*' :: inner, after))
      rw [splitBlockComment, hInner]
      · rfl
      · simp
      · rintro more - rfl
        exact hHead (.inr rfl)
  · cases h

/-- Comments and white space are skipped or passed. -/
theorem skipsTo_of_afterSpace {text rest : List Char} (h : afterSpace? text = some rest) :
    SkipsTo text rest ∨ ∃ c, isSpace c ∧ text = c :: rest := by
  unfold afterSpace? at h
  split at h
  · obtain rfl := Option.some.inj h
    exact .inl (skipsTo_block (by rw [splitBlockComment, if_pos (Nat.le_refl 1)]))
  · split at h
    · cases h
    · obtain rfl := Option.some.inj h
      exact .inl (skipsTo_line _)
  · split at h
    · cases h
    · obtain ⟨⟨inner, after⟩, hInner, rfl⟩ := Option.map_eq_some_iff.1 h
      exact .inl (skipsTo_block hInner)
  · split at h
    · next hSpace =>
      obtain rfl := Option.some.inj h
      exact .inr ⟨_, hSpace, rfl⟩
    · cases h
  · cases h

theorem afterTrivia_suffix (text : List Char) : afterTrivia text <:+ text := by
  fun_induction afterTrivia text with
  | case1 text rest h ih =>
    rcases skipsTo_of_afterSpace h with hSkips | ⟨c, -, rfl⟩
    · exact ih.trans hSkips.suffix
    · exact ih.trans (List.suffix_cons c rest)
  | case2 => exact List.suffix_rfl

end Host

end TreeGrammar
