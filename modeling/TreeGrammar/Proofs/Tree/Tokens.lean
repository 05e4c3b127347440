import Mathlib.Data.List.Basic
import TreeGrammar.Tree.Reader

/-!
# Tokens of written texts

How texts that are put together from parentheses, atoms and quoted strings are split into tokens
again. An atom has to be followed by something that does not prolong it. A quoted text is one token
whatever characters it has, since its quotes and backslashes are escaped; but reading undoes only
some of the escapes.

## Main definitions

* `Text.Escape`: the forms in which characters are written inside quotes
* `Text.IsRestored`: the characters whose escapes are undone
* `Tree.IsAtom`, `Tree.Delimits`: atoms, and what may stand behind them

## Main results

* `Tree.unescape_escape_eq_iff`: the texts that are read back from between quotes
* `Tree.tokens_atom_append`, `Tree.tokens_string`: the tokens of atoms and strings
-/

namespace TreeGrammar

/-! ### Escapes -/

namespace Text

/-- The characters that are escaped by a backslash and one character. -/
def shortEscapes : List (Char × Char) :=
  [('"', '"'), ('\\', '\\'), ('\n', 'n'), ('\r', 'r'), ('\t', 't'), ('\x00', '0')]

/-- The forms in which characters are written inside quotes. -/
inductive Escape : Char → List Char → Prop where
  /-- A character that stands for itself. -/
  | plain {c : Char} (hQuote : c ≠ '"') (hBackslash : c ≠ '\\') : Escape c [c]
  | short {c d : Char} (h : (c, d) ∈ shortEscapes) : Escape c ['\\', d]
  | codePoint {c : Char} (h : isPrintable c = false) : Escape c (codePointEscape c)

theorem escape_escapeChar (c : Char) : Escape c (escapeChar c) := by
  unfold escapeChar
  split
  case h_7 hQuote hBackslash _ _ _ _ =>
    split
    · exact .plain hQuote hBackslash
    · next h => exact .codePoint (Bool.not_eq_true _ ▸ h)
  all_goals exact .short (by decide)

/-- The escape of a character is undone when it is read: the character is written as it is, or by
one of the four escapes that the reader knows. -/
def IsRestored (c : Char) : Prop :=
  escapeChar c = [c] ∨
    escapeChar c ∈ [['\\', '"'], ['\\', '\\'], ['\\', 'n'], ['\\', 't']]

instance (c : Char) : Decidable (IsRestored c) := inferInstanceAs (Decidable (_ ∨ _))

theorem exists_digitChar_of_mem_toDigits {n : Nat} {c : Char} (h : c ∈ Nat.toDigits 16 n) :
    ∃ digit, c = Nat.digitChar digit := by
  induction n using Nat.strongRecOn with
  | ind n ih =>
    rw [Nat.toDigits_eq_if (by decide)] at h
    split at h
    · exact ⟨n, List.mem_singleton.1 h⟩
    · next hLarge =>
      rcases List.mem_append.1 h with hInit | hLast
      · exact ih (n / 16) (by omega) hInit
      · exact ⟨n % 16, List.mem_singleton.1 hLast⟩

/-- The escape of a code point is a backslash and characters that need no escape. -/
theorem exists_codePointEscape_eq (c : Char) :
    ∃ plain, codePointEscape c = '\\' :: 'u' :: plain ∧ '"' ∉ plain ∧ '\\' ∉ plain := by
  have hDigits : ∀ d ∈ Nat.toDigits 16 c.toNat, d ≠ '"' ∧ d ≠ '\\' := by
    intro d hd
    obtain ⟨digit, rfl⟩ := exists_digitChar_of_mem_toDigits hd
    exact ⟨Nat.digitChar_ne '"' (by decide), Nat.digitChar_ne '\\' (by decide)⟩
  refine ⟨_, rfl, ?_, ?_⟩
  · simpa using fun h => (hDigits _ h).1 rfl
  · simpa using fun h => (hDigits _ h).2 rfl

end Text

namespace Tree

open Text

/-! ### Strings -/

theorem splitQuoted_cons {c : Char} (hQuote : c ≠ '"') (hBackslash : c ≠ '\\') (rest : List Char) :
    splitQuoted (c :: rest) = (splitQuoted rest).map fun (body, rest) => (c :: body, rest) := by
  rw [splitQuoted.eq_def]
  split <;> simp_all

/-- Characters that need no escape belong to the string that goes on after them. -/
theorem splitQuoted_plain_append {plain : List Char} (hQuote : '"' ∉ plain)
    (hBackslash : '\\' ∉ plain) (rest : List Char) :
    splitQuoted (plain ++ rest) =
      (splitQuoted rest).map fun (body, rest) => (plain ++ body, rest) := by
  induction plain with
  | nil => simp
  | cons c plain ih =>
    obtain ⟨hc, hQuote⟩ := List.ne_and_not_mem_of_not_mem_cons hQuote
    obtain ⟨hc', hBackslash⟩ := List.ne_and_not_mem_of_not_mem_cons hBackslash
    rw [List.cons_append, splitQuoted_cons hc.symm hc'.symm, ih hQuote hBackslash, Option.map_map]
    rfl

/-- A character that is written inside quotes belongs to the string that goes on after it. -/
theorem splitQuoted_escape_append {c : Char} {written : List Char} (h : Escape c written)
    (rest : List Char) :
    splitQuoted (written ++ rest) =
      (splitQuoted rest).map fun (body, rest) => (written ++ body, rest) := by
  cases h with
  | plain hQuote hBackslash => exact splitQuoted_cons hQuote hBackslash rest
  | short h => rfl
  | codePoint h =>
    obtain ⟨plain, hEq, hQuote, hBackslash⟩ := exists_codePointEscape_eq c
    simp only [hEq, List.cons_append, splitQuoted, splitQuoted_plain_append hQuote hBackslash,
      Option.map_map]
    rfl

/-- The string of a quoted text ends at its closing quote. -/
theorem splitQuoted_quote (text rest : List Char) :
    splitQuoted (text.flatMap escapeChar ++ '"' :: rest) =
      some (text.flatMap escapeChar, rest) := by
  induction text with
  | nil => rfl
  | cons c text ih =>
    rw [List.flatMap_cons, List.append_assoc, splitQuoted_escape_append (escape_escapeChar c), ih]
    rfl

theorem unescape_cons {c : Char} (h : c ≠ '\\') (rest : List Char) :
    unescape (c :: rest) = c :: unescape rest := by
  rw [unescape.eq_def]
  split <;> simp_all

theorem unescape_plain_append {plain : List Char} (h : '\\' ∉ plain) (rest : List Char) :
    unescape (plain ++ rest) = plain ++ unescape rest := by
  induction plain with
  | nil => rfl
  | cons c plain ih =>
    obtain ⟨hc, h⟩ := List.ne_and_not_mem_of_not_mem_cons h
    rw [List.cons_append, unescape_cons hc.symm, ih h, List.cons_append]

/-- What a backslash and the character after it stand for does not depend on what follows. -/
theorem unescape_backslash_append (d : Char) (rest : List Char) :
    unescape ('\\' :: d :: rest) = unescape ['\\', d] ++ unescape rest := by
  by_cases h : d = 'n'
  · subst h
    rfl
  · by_cases h' : d = 't'
    · subst h'
      rfl
    · simp [unescape]

theorem unescape_escape_append {c : Char} {written : List Char} (h : Escape c written)
    (rest : List Char) : unescape (written ++ rest) = unescape written ++ unescape rest := by
  cases h with
  | plain hQuote hBackslash => rw [List.singleton_append, unescape_cons hBackslash,
      unescape_cons hBackslash, unescape, List.singleton_append]
  | @short d h => exact unescape_backslash_append d rest
  | codePoint h =>
    obtain ⟨plain, hEq, -, hBackslash⟩ := exists_codePointEscape_eq c
    have hPlain : unescape plain = plain := by
      simpa [unescape] using unescape_plain_append hBackslash []
    rw [hEq]
    change 'u' :: unescape (plain ++ rest) = 'u' :: unescape plain ++ unescape rest
    rw [unescape_plain_append hBackslash, hPlain, List.cons_append]

/-- A text between quotes is read character by character. -/
theorem unescape_escape (text : List Char) :
    unescape (text.flatMap escapeChar) = text.flatMap fun c => unescape (escapeChar c) := by
  induction text with
  | nil => rfl
  | cons c text ih =>
    rw [List.flatMap_cons, unescape_escape_append (escape_escapeChar c), ih, List.flatMap_cons]

theorem unescape_escapeChar_of_isRestored {c : Char} (h : IsRestored c) :
    unescape (escapeChar c) = [c] := by
  have hEscape := escape_escapeChar c
  rw [IsRestored] at h
  generalize escapeChar c = written at h hEscape
  cases hEscape with
  | plain hQuote hBackslash => rw [unescape_cons hBackslash, unescape]
  | @short d hShort =>
    have hRead : ∀ entry ∈ shortEscapes,
        (['\\', entry.2] = [entry.1] ∨
          ['\\', entry.2] ∈ [['\\', '"'], ['\\', '\\'], ['\\', 'n'], ['\\', 't']]) →
        unescape ['\\', entry.2] = [entry.1] := by decide
    exact hRead (c, d) hShort h
  | codePoint hPoint =>
    obtain ⟨plain, hEq, -, -⟩ := exists_codePointEscape_eq c
    rw [hEq] at h
    simp at h

theorem unescape_ne_nil {text : List Char} (h : text ≠ []) : unescape text ≠ [] := by
  rw [unescape.eq_def]
  split <;> simp_all

theorem unescape_escapeChar_ne_nil (c : Char) : unescape (escapeChar c) ≠ [] := by
  refine unescape_ne_nil fun h => ?_
  have hEscape := escape_escapeChar c
  rw [h] at hEscape
  cases hEscape

/-- An escape that is not undone is read as something that starts with another character. -/
theorem isRestored_of_head? {c : Char} (h : (unescape (escapeChar c)).head? = some c) :
    IsRestored c := by
  have hEscape := escape_escapeChar c
  rw [IsRestored]
  generalize escapeChar c = written at h hEscape
  cases hEscape with
  | plain hQuote hBackslash => exact .inl rfl
  | @short d hShort =>
    have hRead : ∀ entry ∈ shortEscapes, (unescape ['\\', entry.2]).head? = some entry.1 →
        ['\\', entry.2] ∈ [['\\', '"'], ['\\', '\\'], ['\\', 'n'], ['\\', 't']] := by decide
    exact .inr (hRead (c, d) hShort h)
  | codePoint hPoint =>
    obtain ⟨plain, hEq, -, -⟩ := exists_codePointEscape_eq c
    rw [hEq] at h
    obtain rfl : 'u' = c := Option.some.inj h
    exact absurd hPoint (by decide)

/-- A text is read back from between quotes if and only if all its escapes are undone. -/
theorem unescape_escape_eq_iff (text : List Char) :
    unescape (text.flatMap escapeChar) = text ↔ ∀ c ∈ text, IsRestored c := by
  rw [unescape_escape]
  induction text with
  | nil => simp
  | cons c text ih =>
    rw [List.flatMap_cons, List.forall_mem_cons]
    constructor
    · intro h
      have hc : IsRestored c := by
        refine isRestored_of_head? ?_
        rw [← List.head?_append_of_ne_nil _ (unescape_escapeChar_ne_nil c), h, List.head?_cons]
      rw [unescape_escapeChar_of_isRestored hc] at h
      exact ⟨hc, ih.1 (List.cons.inj h).2⟩
    · rintro ⟨hc, h⟩
      rw [unescape_escapeChar_of_isRestored hc, ih.2 h, List.singleton_append]

/-! ### Tokens -/

/-- A text that is read as an atom where nothing prolongs it. -/
def IsAtom (text : List Char) : Prop := text ≠ [] ∧ ∀ c ∈ text, isAtomChar c

instance (text : List Char) : Decidable (IsAtom text) :=
  decidable_of_iff (text ≠ [] ∧ text.all isAtomChar) (by simp [IsAtom])

/-- An atom is as long as possible. -/
theorem isAtom_takeWhile {c : Char} (hBlank : ¬ isBlank c) (hOpening : c ≠ '(')
    (hClosing : c ≠ ')') (hQuote : c ≠ '"') (rest : List Char) :
    IsAtom (c :: rest.takeWhile isAtomChar) := by
  have hFirst : isAtomChar c := by simp [isAtomChar, hBlank, hOpening, hClosing, hQuote]
  exact ⟨List.cons_ne_nil _ _,
    List.forall_mem_cons.2 ⟨hFirst, List.all_eq_true.1 List.all_takeWhile⟩⟩

/-- An atom in front of this text is not prolonged by it. -/
def Delimits (rest : List Char) : Prop := ∀ c ∈ rest.head?, isAtomChar c = false

theorem delimits_nil : Delimits [] := nofun

theorem delimits_cons {c : Char} (h : isAtomChar c = false) (rest : List Char) :
    Delimits (c :: rest) := by
  rintro _ ⟨⟩
  exact h

theorem delimits_dropWhile (rest : List Char) : Delimits (rest.dropWhile isAtomChar) := by
  intro c hc
  have hHead := List.head?_dropWhile_not isAtomChar rest
  rw [Option.mem_def.1 hc] at hHead
  simpa using hHead

theorem Delimits.append {text rest : List Char} (h : Delimits text) (h' : Delimits rest) :
    Delimits (text ++ rest) := by
  cases text with
  | nil => exact h'
  | cons c text => exact delimits_cons (h c rfl) _

theorem Delimits.takeWhile_eq_nil {rest : List Char} (h : Delimits rest) :
    rest.takeWhile isAtomChar = [] := by
  cases rest with
  | nil => rfl
  | cons c rest => exact List.takeWhile_cons_of_neg (by simp [h c rfl])

theorem Delimits.dropWhile_eq_self {rest : List Char} (h : Delimits rest) :
    rest.dropWhile isAtomChar = rest := by
  cases rest with
  | nil => rfl
  | cons c rest => exact List.dropWhile_cons_of_neg (by simp [h c rfl])

section Tokens

variable (offset : Nat) (rest : List Char)

theorem tokens_blank {c : Char} (h : isBlank c) :
    tokens offset (c :: rest) = tokens (offset + c.utf8Size) rest := by
  rw [tokens, if_pos h]

theorem tokens_opening :
    tokens offset ('(' :: rest) = (offset, .opening) :: tokens (offset + 1) rest := by
  rw [tokens, if_neg (by decide), if_pos rfl]

theorem tokens_closing :
    tokens offset (')' :: rest) = (offset, .closing) :: tokens (offset + 1) rest := by
  rw [tokens, if_neg (by decide), if_neg (by decide), if_pos rfl]

theorem tokens_blank_append {blanks : List Char} (h : ∀ c ∈ blanks, isBlank c) :
    tokens offset (blanks ++ rest) = tokens (offset + byteSize blanks) rest := by
  induction blanks generalizing offset with
  | nil => rfl
  | cons c blanks ih =>
    obtain ⟨hc, hBlanks⟩ := List.forall_mem_cons.1 h
    rw [List.cons_append, tokens_blank offset _ hc, ih _ hBlanks, byteSize_cons, Nat.add_assoc]

/-- A string is a token up to the quote that closes it. -/
theorem tokens_string {text body : List Char} (h : splitQuoted text = some (body, rest)) :
    tokens offset ('"' :: text) =
      (offset, .quoted (unescape body)) :: tokens (offset + byteSize body + 2) rest := by
  rw [tokens, if_neg (by decide), if_neg (by decide), if_neg (by decide), if_pos rfl]
  split
  · next body' rest' h' =>
    obtain ⟨rfl, rfl⟩ := Prod.mk.inj (Option.some.inj (h'.symm.trans h))
    rfl
  · next h' => cases h'.symm.trans h

/-- A string that is never closed is the last token. -/
theorem tokens_unterminated {text : List Char} (h : splitQuoted text = none) :
    tokens offset ('"' :: text) = [(offset, .unterminated)] := by
  rw [tokens, if_neg (by decide), if_neg (by decide), if_neg (by decide), if_pos rfl]
  split
  · next body' rest' h' => cases h'.symm.trans h
  · rfl

/-- An atom is a token if nothing prolongs it. -/
theorem tokens_atom_append {atom : List Char} (hAtom : IsAtom atom) {rest : List Char}
    (hRest : Delimits rest) :
    tokens offset (atom ++ rest) =
      (offset, .atom atom) :: tokens (offset + byteSize atom) rest := by
  obtain ⟨hne, hChars⟩ := hAtom
  cases atom with
  | nil => exact absurd rfl hne
  | cons c atom =>
    obtain ⟨hc, hAtom⟩ := List.forall_mem_cons.1 hChars
    simp only [isAtomChar, Bool.and_eq_true, Bool.not_eq_true', bne_iff_ne, ne_eq] at hc
    obtain ⟨⟨⟨hBlank, hOpen⟩, hClose⟩, hQuote⟩ := hc
    have hTake : (atom ++ rest).takeWhile isAtomChar = atom := by
      rw [List.takeWhile_append_of_pos hAtom, hRest.takeWhile_eq_nil, List.append_nil]
    have hDrop : (atom ++ rest).dropWhile isAtomChar = rest := by
      rw [List.dropWhile_append_of_pos hAtom, hRest.dropWhile_eq_self]
    rw [List.cons_append, tokens, if_neg (by simp [hBlank]), if_neg hOpen, if_neg hClose,
      if_neg hQuote, hTake, hDrop]

end Tokens

end Tree

end TreeGrammar
