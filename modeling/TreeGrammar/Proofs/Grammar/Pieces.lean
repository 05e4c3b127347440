import TreeGrammar.Proofs.Grammar.LiteralForms

/-!
# What is left of an item

An item that ends with a semicolon can be told from its delimiters, literals and comments alone: the
semicolon is the first one that stands outside of all braces, and no delimiter is open there. Within
such an item, literals, comments, white space and names do not depend on what comes after the item.

## Main definitions

* `Enclosure`: the delimiters that may be open
* `Remains`: what is left of an item in which some delimiters are open

## Main results

* `Remains.literalLength_append`, `Remains.triviaLength_append`, `Remains.identLength_append`: what
  comes after an item has no influence
-/

namespace TreeGrammar

open ReadState (identLength)

/-- The first characters of a kind are those of a beginning of the text in which others follow. -/
theorem takeWhile_append_of_lt {p : Char → Bool} {text : List Char}
    (h : (text.takeWhile p).length < text.length) (post : List Char) :
    (text ++ post).takeWhile p = text.takeWhile p := by
  rw [List.takeWhile_append, if_neg (Nat.ne_of_lt h)]

/-! ### What is left of an item -/

/-- The delimiters that may be open. The braces around a list of names are told from those around
code. -/
inductive Enclosure where
  | parens
  | brackets
  | code
  | names
  deriving DecidableEq, Repr

namespace Enclosure

/-- The delimiter that opens an enclosure. -/
def opening : Enclosure → Char
  | parens => '('
  | brackets => '['
  | code | names => '{'

/-- The delimiter that closes an enclosure. -/
def closing : Enclosure → Char
  | parens => ')'
  | brackets => ']'
  | code | names => '}'

end Enclosure

/-- A character that opens or closes an enclosure. -/
def isDelimiter (c : Char) : Bool :=
  c = '(' || c = ')' || c = '[' || c = ']' || c = '{' || c = '}'

/-- What is left of an item in which some delimiters are open, the innermost first. The item ends
with the first semicolon outside of braces around code, literals and comments, where all delimiters
are closed. Outside of such braces, there are no quotes but in comments. The characters in front of
the rest are those that may belong to a literal. -/
inductive Remains : List Enclosure → List Char → List Char → Prop where
  | last (before : List Char) : Remains [] before [';']
  | literal {opened : List Enclosure} {before text : List Char} {length : Nat}
      (hLiteral : literalLength before text = .ok (some length))
      (hComment : .code ∉ opened → text.head? = some '/')
      (h : Remains opened ((text.take length).reverse ++ before) (text.drop length)) :
      Remains opened before text
  | opening {opened : List Enclosure} {before text : List Char} (enclosure : Enclosure)
      (hNames : enclosure ≠ .names)
      (h : Remains (enclosure :: opened) (enclosure.opening :: before) text) :
      Remains opened before (enclosure.opening :: text)
  | closing {opened : List Enclosure} {before text : List Char} (enclosure : Enclosure)
      (h : Remains opened (enclosure.closing :: before) text) :
      Remains (enclosure :: opened) before (enclosure.closing :: text)
  | other {opened : List Enclosure} {c : Char} {before text : List Char}
      (hLiteral : literalLength before (c :: text) = .ok none) (hDelimiter : isDelimiter c = false)
      (hPlain : .code ∉ opened → c ≠ ';' ∧ c ≠ '"' ∧ c ≠ '\'')
      (h : Remains opened (c :: before) text) : Remains opened before (c :: text)

/-- What is left after some more characters. -/
def RemainsAfter (count : Nat) (opened : List Enclosure) (before text : List Char) : Prop :=
  Remains opened ((text.take count).reverse ++ before) (text.drop count)

/-- What is left begins with one of some characters. -/
def RemainsAt (stops : List Char) (opened : List Enclosure) (before text : List Char) : Prop :=
  Remains opened before text ∧ ∃ c ∈ stops, text.head? = some c

/-- Nothing is left of the item after its semicolon. -/
def NothingRemains (before text : List Char) : Prop := text = [] ∧ before.head? = some ';'

theorem remainsAfter_add {first second : Nat} {opened : List Enclosure} {before text : List Char} :
    RemainsAfter (first + second) opened before text ↔
      RemainsAfter second opened ((text.take first).reverse ++ before) (text.drop first) := by
  rw [RemainsAfter, RemainsAfter, List.take_add, List.reverse_append, List.append_assoc,
    List.drop_drop]

namespace Remains

variable {opened : List Enclosure} {before text : List Char} {c : Char}

/-- Most characters neither open nor close anything. -/
theorem plain (hDelimiter : isDelimiter c = false) (hQuote : c ∉ [';', '"', '\'', '/', 'r'])
    (h : Remains opened (c :: before) text) : Remains opened before (c :: text) := by
  simp only [List.mem_cons, List.not_mem_nil, or_false, not_or] at hQuote
  obtain ⟨hMark, hString, hChar, hSlash, hRaw⟩ := hQuote
  refine .other ?_ hDelimiter (fun _ => ⟨hMark, hString, hChar⟩) h
  simp [literalLength, hSlash, hString, hRaw, hChar]

/-- All delimiters that are open have to be closed before the last semicolon. -/
theorem lt_length (h : Remains opened before text) : opened.length < text.length := by
  induction h with
  | last => exact Nat.one_pos
  | literal _ _ _ ih =>
    rw [List.length_drop] at ih
    omega
  | opening _ _ _ ih =>
    rw [List.length_cons] at ih ⊢
    omega
  | closing _ _ ih => exact Nat.succ_lt_succ ih
  | other _ _ _ _ ih => exact Nat.lt_succ_of_lt ih

/-- The item ends with a semicolon. -/
theorem mem_mark (h : Remains opened before text) : ';' ∈ text := by
  induction h with
  | last => exact List.mem_singleton_self _
  | literal _ _ _ ih => exact List.mem_of_mem_drop ih
  | opening _ _ _ ih => exact List.mem_cons_of_mem _ ih
  | closing _ _ ih => exact List.mem_cons_of_mem _ ih
  | other _ _ _ _ ih => exact List.mem_cons_of_mem _ ih

theorem ne_nil (h : Remains opened before text) : text ≠ [] := List.ne_nil_of_mem h.mem_mark

/-- Delimiters start no literal. -/
theorem literalLength_opening (enclosure : Enclosure) (before text : List Char) :
    literalLength before (enclosure.opening :: text) = .ok none := by
  cases enclosure <;> simp [literalLength, Enclosure.opening]

theorem literalLength_closing (enclosure : Enclosure) (before text : List Char) :
    literalLength before (enclosure.closing :: text) = .ok none := by
  cases enclosure <;> simp [literalLength, Enclosure.closing]

/-- No literal is left open. -/
theorem exists_literalLength (h : Remains opened before text) :
    ∃ length?, literalLength before text = .ok length? := by
  cases h with
  | last => exact ⟨none, by simp [literalLength]⟩
  | literal hLiteral => exact ⟨_, hLiteral⟩
  | opening enclosure => exact ⟨none, literalLength_opening ..⟩
  | closing enclosure => exact ⟨none, literalLength_closing ..⟩
  | other hLiteral => exact ⟨none, hLiteral⟩

/-- Literals do not depend on what comes after the item. -/
theorem literalLength_append (h : Remains opened before text) (post : List Char) :
    literalLength before (text ++ post) = literalLength before text := by
  cases h with
  | last => simp [literalLength]
  | @literal _ _ _ length hLiteral _ h =>
    have hEnd := h.lt_length
    rw [List.length_drop] at hEnd
    rw [literalLength_append_of_lt hLiteral (by omega), hLiteral]
  | opening enclosure => rw [List.cons_append, literalLength_opening, literalLength_opening]
  | closing enclosure => rw [List.cons_append, literalLength_closing, literalLength_closing]
  | @other _ c _ text hLiteral _ hPlain h =>
    rw [List.cons_append, literalLength_append_of_mark hLiteral h.mem_mark _ post, hLiteral]
    rintro rfl
    -- a quote stands inside of braces, which have to be closed after it
    have hCode : Enclosure.code ∈ opened := by
      by_contra hOutside
      exact (hPlain hOutside).2.2 rfl
    have hOpened := List.length_pos_of_mem hCode
    have hLength := h.lt_length
    omega

/-- After a literal the rest is left. -/
theorem of_literal (h : Remains opened before text) {length : Nat}
    (hLiteral : literalLength before text = .ok (some length)) :
    RemainsAfter length opened before text := by
  cases h with
  | last => simp [literalLength] at hLiteral
  | literal hOther _ h =>
    rw [hLiteral] at hOther
    obtain rfl := Option.some.inj (Except.ok.inj hOther)
    exact h
  | opening enclosure => simp [literalLength_opening] at hLiteral
  | closing enclosure => simp [literalLength_closing] at hLiteral
  | other hOther => simp [hOther] at hLiteral

/-- What a character is at which no literal starts. -/
theorem of_cons (h : Remains opened before (c :: text))
    (hLiteral : literalLength before (c :: text) = .ok none) :
    (c = ';' ∧ opened = [] ∧ text = []) ∨
      (∃ enclosure, enclosure ≠ .names ∧ c = enclosure.opening ∧
        Remains (enclosure :: opened) (c :: before) text) ∨
      (∃ enclosure outer, opened = enclosure :: outer ∧ c = enclosure.closing ∧
        Remains outer (c :: before) text) ∨
      (isDelimiter c = false ∧ (.code ∉ opened → c ≠ ';' ∧ c ≠ '"' ∧ c ≠ '\'') ∧
        Remains opened (c :: before) text) := by
  cases h with
  | last => exact .inl ⟨rfl, rfl, rfl⟩
  | literal hOther => simp [hLiteral] at hOther
  | opening enclosure hNames h => exact .inr (.inl ⟨enclosure, hNames, rfl, h⟩)
  | closing enclosure h => exact .inr (.inr (.inl ⟨enclosure, _, rfl, rfl, h⟩))
  | other _ hDelimiter hPlain h => exact .inr (.inr (.inr ⟨hDelimiter, hPlain, h⟩))

/-- Outside of code, literals are comments. -/
theorem literalLength_eq_none (h : Remains opened before (c :: text)) (hCode : .code ∉ opened)
    (hSlash : c ≠ '/') : literalLength before (c :: text) = .ok none := by
  obtain ⟨length?, hLength⟩ := h.exists_literalLength
  cases length? with
  | none => exact hLength
  | some length =>
    cases h with
    | last => simp [literalLength] at hLength
    | literal _ hComment => exact absurd (Option.some.inj (hComment hCode)) hSlash
    | opening enclosure => simp [literalLength_opening] at hLength
    | closing enclosure => simp [literalLength_closing] at hLength
    | other hOther => simp [hOther] at hLength

/-- Something is left, so that no more characters have been passed than there are. -/
theorem le_length_of_after {count : Nat} (h : RemainsAfter count opened before text) :
    count ≤ text.length := by
  have hRest := lt_length h
  rw [List.length_drop] at hRest
  omega

/-! ### Marks -/

/-- An opening delimiter is passed. -/
theorem of_opening (enclosure : Enclosure) (hNames : enclosure ≠ .names)
    (h : Remains opened before (enclosure.opening :: text)) :
    Remains (enclosure :: opened) (enclosure.opening :: before) text := by
  rcases h.of_cons (literalLength_opening ..) with
    ⟨hMark, -, -⟩ | ⟨other, hOther, hEq, h⟩ | ⟨other, _, -, hEq, -⟩ | ⟨hDelimiter, -, -⟩
  · cases enclosure <;> simp [Enclosure.opening] at hMark
  · obtain rfl : enclosure = other := by
      cases enclosure <;> cases other <;> simp_all [Enclosure.opening]
    exact h
  · cases enclosure <;> cases other <;> simp [Enclosure.opening, Enclosure.closing] at hEq
  · cases enclosure <;> simp [Enclosure.opening, isDelimiter] at hDelimiter

/-- The innermost delimiter is closed. -/
theorem of_closing (enclosure : Enclosure)
    (h : Remains (enclosure :: opened) before (enclosure.closing :: text)) :
    Remains opened (enclosure.closing :: before) text := by
  rcases h.of_cons (literalLength_closing ..) with
    ⟨-, hOpened, -⟩ | ⟨other, hOther, hEq, -⟩ | ⟨other, _, hOpened, -, h⟩ | ⟨hDelimiter, -, -⟩
  · cases hOpened
  · cases enclosure <;> cases other <;> simp [Enclosure.opening, Enclosure.closing] at hEq
  · rwa [(List.cons.inj hOpened).2]
  · cases enclosure <;> simp [Enclosure.closing, isDelimiter] at hDelimiter

/-- Any other character is passed. -/
theorem of_other (h : Remains opened before (c :: text))
    (hLiteral : literalLength before (c :: text) = .ok none) (hMark : c ≠ ';')
    (hDelimiter : isDelimiter c = false) : Remains opened (c :: before) text := by
  have hNot : ∀ enclosure : Enclosure, c ≠ enclosure.opening ∧ c ≠ enclosure.closing := by
    intro enclosure
    constructor <;> rintro rfl <;>
      cases enclosure <;> simp [Enclosure.opening, Enclosure.closing, isDelimiter] at hDelimiter
  rcases h.of_cons hLiteral with
    ⟨hEq, -, -⟩ | ⟨enclosure, -, hEq, -⟩ | ⟨enclosure, _, -, hEq, -⟩ | ⟨-, -, h⟩
  · exact absurd hEq hMark
  · exact absurd hEq (hNot enclosure).1
  · exact absurd hEq (hNot enclosure).2
  · exact h

/-- Marks of the grammar language are passed. -/
theorem of_plain (h : Remains opened before (c :: text)) (hCode : .code ∉ opened)
    (hPlain : isDelimiter c = false ∧ c ≠ ';' ∧ c ≠ '/') : Remains opened (c :: before) text :=
  h.of_other (h.literalLength_eq_none hCode hPlain.2.2) hPlain.2.1 hPlain.1

/-- The semicolon ends the item. -/
theorem of_mark (h : Remains opened before (';' :: text)) (hCode : .code ∉ opened) :
    NothingRemains (';' :: before) text := by
  rcases h.of_cons (h.literalLength_eq_none hCode (by decide)) with
    ⟨-, -, hText⟩ | ⟨enclosure, -, hEq, -⟩ | ⟨enclosure, _, -, hEq, -⟩ | ⟨-, hPlain, -⟩
  · exact ⟨hText, rfl⟩
  · cases enclosure <;> simp [Enclosure.opening] at hEq
  · cases enclosure <;> simp [Enclosure.closing] at hEq
  · exact absurd rfl (hPlain hCode).1

/-! ### White space, comments and names -/

/-- A literal ends before the item does. -/
theorem lt_of_literal (h : Remains opened before text) {length : Nat}
    (hLiteral : literalLength before text = .ok (some length)) : length < text.length := by
  have hRest := (h.of_literal hLiteral).lt_length
  rw [List.length_drop] at hRest
  omega

/-- A character is passed if it is of a kind to which no delimiter and no other mark belongs. -/
theorem of_kind {p : Char → Bool} (h : Remains opened before (c :: text)) (hCode : .code ∉ opened)
    (hc : p c) (hNone : ['(', ')', '[', ']', '{', '}', ';', '/'].any p = false) :
    Remains opened (c :: before) text := by
  have hNot : ∀ d ∈ ['(', ')', '[', ']', '{', '}', ';', '/'], c ≠ d := by
    rintro d hd rfl
    exact List.any_eq_false.1 hNone c hd hc
  refine h.of_plain hCode ⟨?_, hNot ';' (by decide), hNot '/' (by decide)⟩
  simp only [isDelimiter, Bool.or_eq_false_iff, decide_eq_false_iff_not]
  refine ⟨⟨⟨⟨⟨?_, ?_⟩, ?_⟩, ?_⟩, ?_⟩, ?_⟩ <;> exact hNot _ (by decide)

/-- White space is passed. -/
theorem of_blank (h : Remains opened before (c :: text)) (hCode : .code ∉ opened)
    (hBlank : Text.isBlank c) : Remains opened (c :: before) text :=
  h.of_kind hCode hBlank (by decide)

/-- White space and comments end before the item does, and do not depend on what comes after it. -/
theorem triviaLength_append (h : Remains opened before text) (hCode : .code ∉ opened)
    (post : List Char) :
    triviaLength (text ++ post) = triviaLength text ∧ (triviaLength text).2 = false ∧
      RemainsAfter (triviaLength text).1 opened before text := by
  fun_induction triviaLength text generalizing before with
  | case1 => exact absurd rfl h.ne_nil
  | case2 rest line more =>
    rename_i ih
    have hLiteral : literalLength before ('/' :: '/' :: rest) = .ok (some (2 + line)) := rfl
    have hLine : line < rest.length := by
      have hEnd := h.lt_of_literal hLiteral
      simp only [List.length_cons] at hEnd
      omega
    have hSame : Literal.lineLength (rest ++ post) = line :=
      congrArg List.length (takeWhile_append_of_lt hLine post)
    have hDrop := drop_two_add line '/' '/' rest
    have hAfter := h.of_literal hLiteral
    rw [RemainsAfter, hDrop] at hAfter
    obtain ⟨hMore, hClosed, hRest⟩ := ih hAfter
    rw [List.cons_append, List.cons_append, triviaLength, hSame,
      List.drop_append_of_le_length (Nat.le_of_lt hLine), hMore]
    refine ⟨rfl, hClosed, remainsAfter_add.2 ?_⟩
    rw [hDrop]
    exact hRest
  | case3 rest comment hComment more =>
    rename_i ih
    have hLiteral : literalLength before ('/' :: '*' :: rest) = .ok (some (2 + comment)) := by
      simp [literalLength, hComment]
    have hEnd := h.lt_of_literal hLiteral
    simp only [List.length_cons] at hEnd
    have hDrop := drop_two_add comment '/' '*' rest
    have hAfter := h.of_literal hLiteral
    rw [RemainsAfter, hDrop] at hAfter
    obtain ⟨hMore, hClosed, hRest⟩ := ih hAfter
    rw [List.cons_append, List.cons_append, triviaLength,
      Literal.blockCommentLength_append hComment]
    dsimp only
    rw [List.drop_append_of_le_length (by omega), hMore]
    refine ⟨rfl, hClosed, remainsAfter_add.2 ?_⟩
    rw [hDrop]
    exact hRest
  | case4 rest hComment =>
    obtain ⟨length?, hLength⟩ := h.exists_literalLength
    simp [literalLength, hComment] at hLength
  | case5 c rest hLine hBlock hBlank more =>
    rename_i ih
    obtain ⟨hMore, hClosed, hRest⟩ := ih (h.of_blank hCode hBlank)
    rw [List.cons_append, triviaLength_cons (ne_slash_of_isBlank hBlank), if_pos hBlank, hMore]
    exact ⟨rfl, hClosed, remainsAfter_add.2 hRest⟩
  | case6 c rest hLine hBlock hBlank =>
    refine ⟨?_, rfl, h⟩
    by_cases hSlash : c = '/'
    · -- a character that makes no comment of the slash comes before the end of the item
      have hMark := h.mem_mark
      rw [hSlash] at hMark
      obtain ⟨d, rest, rfl⟩ := List.exists_cons_of_ne_nil
        (List.ne_nil_of_mem (List.mem_of_ne_of_mem (by decide) hMark))
      rw [List.cons_append, triviaLength]
      · rw [if_neg hBlank]
      · exact fun more hEq hMore => hLine rest hEq (by rw [(List.cons.inj hMore).1])
      · exact fun more hEq hMore => hBlock rest hEq (by rw [(List.cons.inj hMore).1])
    · rw [List.cons_append, triviaLength_cons hSlash, if_neg hBlank]

/-- Characters of names are passed. -/
theorem of_identChars {word rest : List Char} (h : Remains opened before (word ++ rest))
    (hCode : .code ∉ opened) (hWord : ∀ c ∈ word, isIdentChar c) :
    Remains opened (word.reverse ++ before) rest := by
  induction word generalizing before with
  | nil => exact h
  | cons c word ih =>
    have hNext := h.of_kind hCode (hWord c List.mem_cons_self) (by decide)
    rw [List.reverse_cons, List.append_assoc]
    exact ih hNext fun d hd => hWord d (List.mem_cons_of_mem c hd)

/-- Names end before the item does, and do not depend on what comes after it. -/
theorem identLength_append (h : Remains opened before text) (hCode : .code ∉ opened)
    (post : List Char) :
    identLength (text ++ post) = identLength text ∧
      RemainsAfter (identLength text) opened before text := by
  obtain ⟨c, rest, rfl⟩ := List.exists_cons_of_ne_nil h.ne_nil
  by_cases hStart : isIdentStart c
  · have hMark : ';' ∈ rest := by
      refine List.mem_of_ne_of_mem ?_ h.mem_mark
      rintro rfl
      revert hStart
      decide
    have hEnd : (rest.takeWhile isIdentChar).length < rest.length := by
      refine Nat.lt_of_le_of_ne (List.takeWhile_prefix _).length_le fun hAll => ?_
      have hChar := List.takeWhile_eq_self_iff.1
        ((List.takeWhile_prefix _).eq_of_length hAll) ';' hMark
      exact absurd hChar (by decide)
    have hWord : ∀ d ∈ c :: rest.takeWhile isIdentChar, isIdentChar d :=
      List.forall_mem_cons.2 ⟨isIdentChar_of_isIdentStart hStart,
        fun d hd => List.mem_takeWhile_imp hd⟩
    have hSplit : c :: rest = (c :: rest.takeWhile isIdentChar) ++ rest.dropWhile isIdentChar := by
      rw [List.cons_append, List.takeWhile_append_dropWhile]
    have hLength : identLength (c :: rest) = (c :: rest.takeWhile isIdentChar).length := by
      rw [identLength, if_pos hStart, List.length_cons, Nat.add_comm]
    refine ⟨?_, ?_⟩
    · rw [List.cons_append, identLength, identLength, if_pos hStart, if_pos hStart,
        takeWhile_append_of_lt hEnd]
    · rw [hLength, RemainsAfter, hSplit, List.take_left, List.drop_left]
      exact of_identChars (hSplit ▸ h) hCode hWord
  · have hNone : ∀ more, identLength (c :: more) = 0 := fun more => by
      rw [identLength, if_neg hStart]
    rw [List.cons_append, hNone, hNone]
    exact ⟨rfl, h⟩

end Remains

end TreeGrammar
