import TreeGrammar.Text.Blank

/-!
# White space and comments of Rust

White space and comments stand between tokens and mean nothing, apart from documentation comments,
which stand for attributes. A documentation comment starts with three slashes or with two stars
after the slash, or with an exclamation mark in place of the last of these characters.

## Main definitions

* `afterTrivia`: a text after the white space and the comments at its start
* `DocComment`, `docComment?`: documentation comments

## Main results

* `length_afterTrivia_le`, `length_lt_of_docComment`: how much text is left
-/

namespace TreeGrammar.Host

/-- White space between tokens; marks of the writing direction count as white space. -/
def isSpace (c : Char) : Bool := Text.isBlank c || c = '\u200e' || c = '\u200f'

/-- The text after its first line, which does not include the line feed or the pair of carriage
return and line feed at its end. -/
def splitLine : List Char → List Char × List Char
  | [] => ([], [])
  | '\n' :: rest => ([], '\n' :: rest)
  | '\r' :: '\n' :: rest => ([], '\n' :: rest)
  | c :: rest => ((splitLine rest).map (c :: ·) id)

/-- What is before and after the end of the outermost of `depth` nested block comments. -/
def splitBlockComment (depth : Nat) : List Char → Option (List Char × List Char)
  | '/' :: '*' :: rest =>
    (splitBlockComment (depth + 1) rest).map (Prod.map ('/' :: '*' :: ·) id)
  | '*' :: '/' :: rest =>
    if depth ≤ 1 then some ([], rest)
    else (splitBlockComment (depth - 1) rest).map (Prod.map ('*' :: '/' :: ·) id)
  | c :: rest => (splitBlockComment depth rest).map (Prod.map (c :: ·) id)
  | [] => none

theorem length_splitLine_le (text : List Char) : (splitLine text).2.length ≤ text.length := by
  fun_induction splitLine text with
  | case1 | case2 | case3 => simp
  | case4 c rest _ _ ih => simp only [Prod.map, id, List.length_cons]; omega

theorem length_splitBlockComment_lt {depth : Nat} {text before rest : List Char}
    (h : splitBlockComment depth text = some (before, rest)) : rest.length < text.length := by
  fun_induction splitBlockComment depth text generalizing before rest with
  | case1 depth text ih =>
    obtain ⟨⟨b, r⟩, hb, he⟩ := Option.map_eq_some_iff.1 h
    have := ih hb
    simp only [Prod.map, id_eq, Prod.mk.injEq] at he
    simp only [List.length_cons, ← he.2]
    omega
  | case2 depth text =>
    simp only [Option.some.injEq, Prod.mk.injEq] at h
    simp only [List.length_cons, ← h.2]
    omega
  | case3 depth text _ ih =>
    obtain ⟨⟨b, r⟩, hb, he⟩ := Option.map_eq_some_iff.1 h
    have := ih hb
    simp only [Prod.map, id_eq, Prod.mk.injEq] at he
    simp only [List.length_cons, ← he.2]
    omega
  | case4 depth c text _ _ ih =>
    obtain ⟨⟨b, r⟩, hb, he⟩ := Option.map_eq_some_iff.1 h
    have := ih hb
    simp only [Prod.map, id_eq, Prod.mk.injEq] at he
    simp only [List.length_cons, ← he.2]
    omega
  | case5 => simp at h

/-- A comment that documents what follows it or, if it is an inner one, what it stands in. -/
structure DocComment where
  isInner : Bool
  text : List Char

/-- The documentation comment at the start of a text and the text after it. -/
def docComment? : List Char → Option (DocComment × List Char)
  | '/' :: '/' :: '!' :: rest => some (⟨true, (splitLine rest).1⟩, (splitLine rest).2)
  | '/' :: '*' :: '!' :: rest =>
    (splitBlockComment 1 rest).map fun (text, rest) => (⟨true, text⟩, rest)
  | '/' :: '/' :: '/' :: rest =>
    if rest.head? = some '/' then none
    else some (⟨false, (splitLine rest).1⟩, (splitLine rest).2)
  | '/' :: '*' :: '*' :: rest =>
    if rest.head? = some '*' ∨ rest.head? = some '/' then none
    else (splitBlockComment 1 rest).map fun (text, rest) => (⟨false, text⟩, rest)
  | _ => none

theorem length_lt_of_docComment {text rest : List Char} {comment : DocComment}
    (h : docComment? text = some (comment, rest)) : rest.length < text.length := by
  have line (t : List Char) := length_splitLine_le t
  have block {t : List Char} {b r : List Char} (h : splitBlockComment 1 t = some (b, r)) :=
    length_splitBlockComment_lt h
  unfold docComment? at h
  split at h <;> grind [Option.map_eq_some_iff]

/-- The text after the comment or the white space at its start, if it starts with such a thing. A
documentation comment is none of them. -/
def afterSpace? : List Char → Option (List Char)
  | '/' :: '*' :: '*' :: '/' :: rest => some rest
  | '/' :: '/' :: rest =>
    if (docComment? ('/' :: '/' :: rest)).isSome then none else some (splitLine rest).2
  | '/' :: '*' :: rest =>
    if (docComment? ('/' :: '*' :: rest)).isSome then none
    else (splitBlockComment 1 rest).map Prod.snd
  | c :: rest => if isSpace c then some rest else none
  | [] => none

theorem length_lt_of_afterSpace {text rest : List Char} (h : afterSpace? text = some rest) :
    rest.length < text.length := by
  have line (t : List Char) := length_splitLine_le t
  have block {t : List Char} {b r : List Char} (h : splitBlockComment 1 t = some (b, r)) :=
    length_splitBlockComment_lt h
  unfold afterSpace? at h
  split at h <;> grind [Option.map_eq_some_iff]

/-- The text after the white space and the comments at its start. -/
def afterTrivia (text : List Char) : List Char :=
  match _h : afterSpace? text with
  | some rest => afterTrivia rest
  | none => text
  termination_by text.length
  decreasing_by exact length_lt_of_afterSpace _h

theorem length_afterTrivia_le (text : List Char) : (afterTrivia text).length ≤ text.length := by
  fun_induction afterTrivia text with
  | case1 text rest h ih => exact Nat.le_trans ih (Nat.le_of_lt (length_lt_of_afterSpace h))
  | case2 => exact Nat.le_refl _

end TreeGrammar.Host
