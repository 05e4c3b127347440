import TreeGrammar.Proofs.Grammar.LiteralForms
import TreeGrammar.Proofs.Grammar.Locality

/-!
# Code that is read again

A piece of code is read twice: the parser looks for its end, character by character and with the
text around it in sight, and later the marks in it are looked for, where a mark and a name are
passed at once and the piece stands alone. Both skip literals and comments.

They skip the same ones in almost all code. A raw string begins with a letter, or with two. The
parser sees this prefix even directly behind a mark, where the other reading takes it for the name
of an attribute; and the parser sees that the prefix ends a word in front of the piece, which the
other reading does not.

## Main definitions

* `read`: the parts of code together with the literals that are skipped
* `ReadState.fragmentNoted`: a piece of code together with the literals that are skipped
* `Skims`: the literals that are skipped character by character

## Main results

* `fragment_reread_iff`: when both skip the same literals
-/

namespace TreeGrammar

open Literal Text
open ReadState (codeStep)

/-- A literal or comment that is skipped, and the byte at which it begins. -/
structure Skipped where
  start : Nat
  text : List Char
  deriving DecidableEq, Repr

/-! ### Reading for marks -/

/-- What is found in code: its parts, and the literals that are skipped. -/
structure Reading where
  pieces : List Piece := []
  skipped : List Skipped := []
  /-- The literal that is left open. -/
  failure : Option Literal := none

/-- What is found in code with one more part in front of it. -/
def Reading.cons (piece : Piece) (skipped : List Skipped) (reading : Reading) : Reading where
  pieces := piece :: reading.pieces
  skipped := skipped ++ reading.skipped
  failure := reading.failure

/-- The parts of a text from the byte `offset` on, with the literals that are skipped. `before` is
the text before it, its last character first. -/
def read (offset : Nat) (before text : List Char) : Reading :=
  match text with
  | [] => {}
  | c :: rest =>
    match _h : literalLength before (c :: rest) with
    | .error kind => { pieces := [.plain (c :: rest)], failure := some kind }
    | .ok (some length) =>
      let literal := (c :: rest).take length
      (read (offset + byteSize literal) (literal.reverse ++ before) ((c :: rest).drop length)).cons
        (.plain literal) [⟨offset, literal⟩]
    | .ok none =>
      if c = '@' then
        if rest.head?.any isIdentStart then
          let name := rest.takeWhile isIdentChar
          (read (offset + byteSize ('@' :: name)) (name.reverse ++ '@' :: before)
            (rest.dropWhile isIdentChar)).cons (.reference name) []
        else (read (offset + byteSize ['@']) ('@' :: before) rest).cons (.mark before) []
      else (read (offset + byteSize [c]) (c :: before) rest).cons (.plain [c]) []
  termination_by text.length
  decreasing_by
    · have := literalLength_pos _h
      simp only [List.length_drop, List.length_cons]
      omega
    · exact Nat.lt_succ_of_le (List.dropWhile_suffix _).length_le
    all_goals simp

/-- The parts are those into which the code is cut. -/
theorem pieces_read (offset : Nat) (before text : List Char) :
    (read offset before text).pieces = pieces before text := by
  fun_induction read offset before text with
  | case1 => rw [pieces]
  | case2 offset before c rest kind h => rw [pieces_of_error h]
  | case3 offset before c rest length h literal ih => rw [Reading.cons, ih, pieces_of_literal h]
  | case4 offset before rest hStart name h ih =>
    rw [Reading.cons, ih, pieces_of_reference hStart]
  | case5 offset before rest hStart h ih => rw [Reading.cons, ih, pieces_of_mark hStart]
  | case6 offset before c rest h hMark ih => rw [Reading.cons, ih, pieces_of_plain h hMark]

namespace ReadState

variable {source : List Char} {bound : Nat}

/-- Moves to the first character of `stops` outside of all literals, comments and delimiters, and
notes the literals that are skipped. The code begins at the position `start`, and `offset` bytes of
it have been passed. -/
def skipCodeNoted (stops : List Char) (angle : Bool) (start : Span) (offset : Nat)
    (nesting : Nesting) (state : ReadState source bound) :
    Attempt source bound (Onward state (List Skipped)) :=
  match h : state.rest with
  | [] =>
    let (opening, place) := nesting.opened.head?.getD ('{', start)
    state.fail place (.unclosedDelimiter (Nesting.closing opening))
  | c :: _ =>
    have pos : 0 < state.remaining := remaining_pos h
    match hLiteral : literalLength state.reader.before state.rest with
    | .error literal => state.failHere (.unterminated literal)
    | .ok (some length) => do
      have := literalLength_pos hLiteral
      let literal := state.rest.take length
      let result ← skipCodeNoted stops angle start (offset + byteSize literal) nesting
        (state.drop length)
      return (result.withValue (⟨offset, literal⟩ :: result.value)).weaken
        (by rw [remaining_drop]; omega)
    | .ok none =>
      if nesting.isEmpty && stops.contains c then .ok ⟨[], state, state.remaining_le_self⟩
      else
        let step := codeStep state.rest
        have : 0 < step := by simp only [step, codeStep]; split <;> decide
        match if step = 1 then nesting.after angle c state.span else .ok nesting with
        | .error cause => state.failHere cause
        | .ok nesting => do
          let result ← skipCodeNoted stops angle start
            (offset + byteSize (state.rest.take step)) nesting (state.drop step)
          return result.weaken (by rw [remaining_drop]; omega)
termination_by state.remaining
decreasing_by all_goals rw [remaining_drop]; omega

/-- Reads Rust code up to the first character of `stops` outside of all literals, comments and
delimiters, and notes the literals that are skipped. -/
def fragmentNoted (state : ReadState source bound) (stops : List Char) (angle : Bool) :
    Attempt source bound (Onward state (Fragment × List Skipped)) := do
  let ⟨skipped, next, le⟩ ← skipCodeNoted stops angle state.span 0 {} state
  let text := state.rest.take (state.remaining - next.remaining)
  return ⟨(⟨String.ofList text, state.span⟩, skipped), next, le⟩

theorem skipCodeNoted_eq (stops : List Char) (angle : Bool) (start : Span) (offset : Nat)
    (nesting : Nesting) (state : ReadState source bound) :
    (skipCodeNoted stops angle start offset nesting state).map (·.withValue ()) =
      skipCode stops angle start nesting state := by
  fun_induction skipCodeNoted stops angle start offset nesting state with
  | case1 offset nesting state hRest opening place hOpened =>
    rw [skipCode]
    split
    · simp only [hOpened]
      rfl
    · next hCons => simp [hRest] at hCons
  | case2 offset nesting state c rest hRest pos kind hLiteral =>
    rw [skipCode]
    split
    · next hNil => simp [hRest] at hNil
    · split
      · next other hEq =>
        obtain rfl : other = kind := by simpa [hLiteral] using hEq.symm
        rfl
      · next hEq => simp [hLiteral] at hEq
      · next hEq => simp [hLiteral] at hEq
  | case3 offset nesting state c rest hRest pos length hLiteral hLength literal ih =>
    obtain ⟨le, hEq⟩ := skipCode_eq_of_literal hLiteral
    rw [hEq, ← ih]
    cases skipCodeNoted stops angle start (offset + byteSize literal) nesting (state.drop length)
    · rfl
    · rfl
  | case4 offset nesting state c rest hRest pos hLiteral hStop =>
    obtain ⟨le, hEq⟩ := skipCode_eq_of_none (congrArg List.head? hRest) hLiteral rfl
    rw [hEq, if_pos hStop]
    rfl
  | case5 offset nesting state c rest hRest pos hLiteral hStop step hStep cause hNext =>
    obtain ⟨le, hEq⟩ := skipCode_eq_of_none (congrArg List.head? hRest) hLiteral rfl
    rw [dite_eq_ite] at hNext
    rw [hEq, if_neg hStop, hNext]
    rfl
  | case6 offset nesting state c rest hRest pos hLiteral hStop step hStep next hNext ih =>
    obtain ⟨le, hEq⟩ := skipCode_eq_of_none (congrArg List.head? hRest) hLiteral rfl
    rw [dite_eq_ite] at hNext
    rw [hEq, if_neg hStop, hNext]
    dsimp only
    rw [← ih]
    cases skipCodeNoted stops angle start (offset + byteSize (state.rest.take step)) next
      (state.drop step)
    · rfl
    · rfl

theorem fragmentNoted_eq (state : ReadState source bound) (stops : List Char) (angle : Bool) :
    (state.fragmentNoted stops angle).map (fun result => result.withValue result.value.1) =
      state.fragment stops angle := by
  rw [fragment, fragmentNoted, ← skipCodeNoted_eq stops angle state.span 0]
  cases skipCodeNoted stops angle state.span 0 {} state
  · rfl
  · rfl

end ReadState

/-! ### Reading character by character -/

/-- The literals of a text, which begins at the byte `offset`, if it is read character by character.
`before` is the text before it, its last character first. -/
inductive Skims : Nat → List Char → List Char → List Skipped → Prop where
  | nil (offset : Nat) (before : List Char) : Skims offset before [] []
  | literal {offset : Nat} {before text rest : List Char} {found : List Skipped}
      (hLiteral : literalLength before (text ++ rest) = .ok (some text.length))
      (h : Skims (offset + byteSize text) (text.reverse ++ before) rest found) :
      Skims offset before (text ++ rest) (⟨offset, text⟩ :: found)
  | char {offset : Nat} {c : Char} {before rest : List Char} {found : List Skipped}
      (hLiteral : literalLength before (c :: rest) = .ok none)
      (h : Skims (offset + byteSize [c]) (c :: before) rest found) :
      Skims offset before (c :: rest) found

variable {offset : Nat} {before text rest post : List Char} {found : List Skipped}

/-- A literal that is skipped in a longer text is skipped in the code at its start. -/
theorem Skims.of_take {length : Nat} (hLiteral : literalLength before text = .ok (some length))
    (hRest : text.drop length = rest ++ post)
    (h : Skims (offset + byteSize (text.take length)) ((text.take length).reverse ++ before) rest
      found) :
    text = text.take length ++ rest ++ post ∧
      Skims offset before (text.take length ++ rest) (⟨offset, text.take length⟩ :: found) := by
  have hFollow : MayFollow rest (text.drop length) := by
    intro c hc hLine
    exact ⟨c, by rw [hRest, List.head?_append, Option.mem_def.1 hc]; rfl, hLine⟩
  refine ⟨by rw [List.append_assoc, ← hRest, List.take_append_drop], .literal ?_ h⟩
  rw [List.length_take_of_le (length_le_of_literalLength hLiteral)]
  exact literalLength_take_append hLiteral hFollow

/-- Characters at which no literal begins in a longer text are passed in the code at its start. -/
theorem Skims.of_codeStep {c : Char} (hLiteral : literalLength before (c :: text) = .ok none)
    (hRest : (c :: text).drop (codeStep (c :: text)) = rest ++ post)
    (h : Skims (offset + byteSize ((c :: text).take (codeStep (c :: text))))
      (((c :: text).take (codeStep (c :: text))).reverse ++ before) rest found) :
    c :: text = (c :: text).take (codeStep (c :: text)) ++ rest ++ post ∧
      Skims offset before ((c :: text).take (codeStep (c :: text)) ++ rest) found := by
  refine ⟨by rw [List.append_assoc, ← hRest, List.take_append_drop], ?_⟩
  generalize hStep : codeStep (c :: text) = step at *
  unfold codeStep at hStep
  split at hStep
  · next more hText =>
    -- no literal begins within an arrow
    obtain ⟨rfl, rfl⟩ := List.cons.inj hText
    subst hStep
    have hNone (d : Char) (hd : d ∈ ['-', '>']) (before text : List Char) :
        literalLength before (d :: text) = .ok none := by
      refine literalLength_of_ne ?_ ?_ ?_ ?_ before text <;>
        · rintro rfl
          revert hd
          decide
    refine .char (hNone _ (by simp) _ _) (.char (hNone _ (by simp) _ _) ?_)
    rw [Nat.add_assoc, ← byteSize_append]
    exact h
  · subst hStep
    obtain rfl : text = rest ++ post := hRest
    exact .char (literalLength_of_append_none hLiteral) h

/-- What the parser skips is what is skipped character by character. -/
theorem ReadState.skims_of_skipCodeNoted {source : List Char} {bound : Nat}
    {state : ReadState source bound} {stops : List Char} {angle : Bool} {start : Span}
    {nesting : Nesting} {result : Onward state (List Skipped)}
    (h : skipCodeNoted stops angle start offset nesting state = .ok result) :
    ∃ code, state.rest = code ++ result.state.rest ∧
      Skims offset state.reader.before code result.value := by
  fun_induction skipCodeNoted stops angle start offset nesting state with
  | case1 | case2 | case5 => cases h
  | case3 offset nesting state c rest hRest pos length hLiteral hLength literal =>
    rename_i ih
    obtain ⟨inner, hInner, hPure⟩ := Attempt.bind_eq_ok.1 h
    obtain rfl := Except.ok.inj hPure
    obtain ⟨code, hCode, hSkims⟩ := ih hInner
    have hBefore : (state.drop length).reader.before = literal.reverse ++ state.reader.before :=
      Reader.before_drop length state.reader
    rw [rest_drop] at hCode
    rw [hBefore] at hSkims
    exact ⟨literal ++ code, Skims.of_take hLiteral hCode hSkims⟩
  | case4 offset nesting state c rest hRest pos hLiteral hStop =>
    obtain rfl := Except.ok.inj h
    exact ⟨[], rfl, .nil _ _⟩
  | case6 offset nesting state c rest hRest pos hLiteral hStop step hStep next =>
    rename_i ih
    obtain ⟨inner, hInner, hPure⟩ := Attempt.bind_eq_ok.1 h
    obtain rfl := Except.ok.inj hPure
    obtain ⟨code, hCode, hSkims⟩ := ih hInner
    have hBefore : (state.drop step).reader.before =
        (state.rest.take step).reverse ++ state.reader.before :=
      Reader.before_drop step state.reader
    rw [rest_drop] at hCode
    rw [hBefore] at hSkims
    have hText : state.rest = state.rest.take step ++ code ++ inner.state.rest ∧
        Skims offset state.reader.before (state.rest.take step ++ code) inner.value := by
      simp only [step, hRest] at hLiteral hCode hSkims ⊢
      exact Skims.of_codeStep hLiteral hCode hSkims
    exact ⟨state.rest.take step ++ code, hText⟩

namespace Skims

theorem eq_nil (h : Skims offset before [] found) : found = [] := by
  generalize hText : [] = text at h
  cases h with
  | nil => rfl
  | literal hLiteral => simp [← hText, literalLength] at hLiteral
  | char => cases hText

/-- A character at which no literal begins is passed. -/
theorem of_none {c : Char} (h : Skims offset before (c :: rest) found)
    (hNone : literalLength before (c :: rest) = .ok none) :
    Skims (offset + byteSize [c]) (c :: before) rest found := by
  generalize hText : c :: rest = text at h
  cases h with
  | nil => cases hText
  | literal hLiteral => simp [hText, hLiteral] at hNone
  | char _ h =>
    obtain ⟨rfl, rfl⟩ := List.cons.inj hText
    exact h

/-- A literal is skipped. -/
theorem of_some {length : Nat} (h : Skims offset before text found)
    (hSome : literalLength before text = .ok (some length)) :
    ∃ more, found = ⟨offset, text.take length⟩ :: more ∧
      Skims (offset + byteSize (text.take length)) ((text.take length).reverse ++ before)
        (text.drop length) more := by
  cases h with
  | nil => cases hSome
  | @literal _ _ literal rest found hLiteral h =>
    obtain rfl : literal.length = length := by simpa [hLiteral] using hSome
    rw [List.take_left, List.drop_left]
    exact ⟨found, rfl, h⟩
  | char hLiteral => simp [hLiteral] at hSome

/-- No literal is left open. -/
theorem ne_error (h : Skims offset before text found) (kind : Literal) :
    literalLength before text ≠ .error kind := by
  cases h with
  | nil => simp [literalLength]
  | literal hLiteral => simp [hLiteral]
  | char hLiteral => simp [hLiteral]

theorem le_start (h : Skims offset before text found) :
    ∀ literal ∈ found, offset ≤ literal.start := by
  induction h with
  | nil => exact List.forall_mem_nil _
  | literal _ _ ih =>
    exact List.forall_mem_cons.2 ⟨Nat.le_refl _, fun literal hMem =>
      Nat.le_trans (Nat.le_add_right ..) (ih literal hMem)⟩
  | char _ _ ih => exact fun literal hMem => Nat.le_trans (Nat.le_add_right ..) (ih literal hMem)

/-- Characters at which no literal begins are passed. -/
theorem of_append (h : Skims offset before (text ++ rest) found)
    (hNone : ∀ front c back, text = front ++ c :: back →
      literalLength (front.reverse ++ before) (c :: (back ++ rest)) = .ok none) :
    Skims (offset + byteSize text) (text.reverse ++ before) rest found := by
  induction text generalizing offset before with
  | nil => exact h
  | cons c text ih =>
    have hNext := h.of_none (hNone [] c text rfl)
    have hRest := ih hNext fun front d back hText => by
      have hSame := hNone (c :: front) d back (by rw [hText]; rfl)
      simpa using hSame
    rw [Nat.add_assoc, ← byteSize_append] at hRest
    simpa using hRest

end Skims

/-! ### Prefixes of raw strings -/

/-- A word in front of some text is the prefix of a raw string. -/
def IsPrefix (word rest : List Char) : Prop :=
  (word = ['r'] ∨ word = ['b', 'r']) ∧ OpensQuote rest

theorem OpensQuote.head? (h : OpensQuote text) : text.head? = some '#' ∨ text.head? = some '"' := by
  obtain ⟨hashes, body, rfl⟩ := h
  cases hashes with
  | zero => exact .inr rfl
  | succ hashes => exact .inl rfl

/-- Behind some characters of a word, the last one first, the word goes on, except behind a `b`. -/
theorem inWord_append {word : List Char} (hWord : ∀ c ∈ word, isIdentChar c) (hNil : word ≠ [])
    (hPrefix : word ≠ ['b']) : InWord (word ++ before) := by
  obtain ⟨c, word, rfl⟩ := List.exists_cons_of_ne_nil hNil
  have hChar : isIdentChar c := hWord c List.mem_cons_self
  by_cases hb : c = 'b'
  · subst hb
    rw [List.cons_append, inWord_cons_b]
    cases word with
    | nil => exact absurd rfl hPrefix
    | cons d word => exact hWord d (by simp)
  · exact inWord_cons hChar hb _

/-- In a word that is no prefix, no literal begins. -/
theorem literalLength_of_not_isPrefix {word : List Char} (hWord : ∀ c ∈ word, isIdentChar c)
    (hPrefix : ¬ IsPrefix word rest) {front back : List Char} {c : Char}
    (hSplit : word = front ++ c :: back) :
    literalLength (front.reverse ++ before) (c :: (back ++ rest)) = .ok none := by
  subst hSplit
  have hChar : isIdentChar c := hWord c (by simp)
  rw [literalLength_eq_none_iff]
  intro hBegins
  generalize hLater : back ++ rest = later at hBegins
  cases hBegins with
  | line | blockComment | string | escaped | character => exact absurd hChar (by decide)
  | rawString hInWord hQuote =>
    have hBack : back = [] := by
      cases back with
      | nil => rfl
      | cons d back =>
        subst hLater
        have hd : isIdentChar d := hWord d (by simp)
        rcases hQuote.head? with hHead | hHead
        all_goals
          obtain rfl := Option.some.inj hHead
          exact absurd hd (by decide)
    subst hBack
    obtain rfl : rest = later := hLater
    refine hPrefix ⟨?_, hQuote⟩
    by_contra hOther
    refine hInWord (inWord_append (fun d hd => hWord d (by simp_all)) ?_ ?_)
    · intro hFront
      rw [List.reverse_eq_nil_iff.1 hFront] at hOther
      exact hOther (.inl rfl)
    · intro hFront
      rw [List.reverse_eq_iff.1 hFront] at hOther
      exact hOther (.inr rfl)

/-- Behind a prefix, a raw string begins. -/
theorem Skims.lt_of_isPrefix {word : List Char} (hBefore : ¬ InWord before)
    (hBefore' : ¬ InWord ('b' :: before)) (hPrefix : IsPrefix word rest)
    (h : Skims offset before (word ++ rest) found) :
    ∃ literal ∈ found, literal.start < offset + byteSize word := by
  obtain ⟨hWord, hashes, body, rfl⟩ := hPrefix
  -- the raw string is closed
  have hRaw {offset : Nat} {before : List Char} (hBefore : ¬ InWord before)
      (h : Skims offset before ('r' :: (List.replicate hashes '#' ++ '"' :: body)) found) :
      ∃ literal ∈ found, literal.start = offset := by
    have hLength := literalLength_raw hBefore hashes body
    cases hBody : rawStringLength hashes body with
    | none =>
      rw [hBody] at hLength
      exact absurd hLength (h.ne_error _)
    | some length =>
      rw [hBody] at hLength
      obtain ⟨more, rfl, -⟩ := h.of_some hLength
      exact ⟨_, List.mem_cons_self, rfl⟩
  rcases hWord with rfl | rfl
  · obtain ⟨literal, hMem, hStart⟩ := hRaw hBefore h
    refine ⟨literal, hMem, ?_⟩
    have hSize := ('r').utf8Size_pos
    simp only [byteSize_cons]
    omega
  · have hNext := h.of_none
      (literalLength_of_ne (by decide) (by decide) (by decide) (by decide) _ _)
    obtain ⟨literal, hMem, hStart⟩ := hRaw hBefore' hNext
    refine ⟨literal, hMem, ?_⟩
    have hSize := ('r').utf8Size_pos
    simp only [byteSize_cons, byteSize_nil] at hStart ⊢
    omega

/-! ### Both readings -/

/-- Two texts in front of some code have the same influence on its literals. -/
def Agree (before before' text : List Char) : Prop :=
  ∀ front back, text = front ++ back →
    literalLength (front.reverse ++ before') back = literalLength (front.reverse ++ before) back

theorem Agree.literalLength_eq {before' : List Char} (h : Agree before before' text) :
    literalLength before' text = literalLength before text := h [] text rfl

theorem Agree.of_append {before' : List Char} (text : List Char)
    (h : Agree before before' (text ++ rest)) :
    Agree (text.reverse ++ before) (text.reverse ++ before') rest := by
  intro front back hRest
  have hSame := h (text ++ front) back (by rw [hRest, List.append_assoc])
  simpa using hSame

/-- No name of a reference is the prefix of a raw string. -/
def KeepsPrefixes : List Piece → Prop
  | [] => True
  | .reference name :: rest => ¬ IsPrefix name (rest.flatMap Piece.source) ∧ KeepsPrefixes rest
  | _ :: rest => KeepsPrefixes rest

@[simp] theorem keepsPrefixes_plain (rest : List Piece) :
    KeepsPrefixes (.plain text :: rest) ↔ KeepsPrefixes rest := Iff.rfl

@[simp] theorem keepsPrefixes_mark (before : List Char) (rest : List Piece) :
    KeepsPrefixes (.mark before :: rest) ↔ KeepsPrefixes rest := by
  rw [Piece.mark]
  split <;> rfl

@[simp] theorem keepsPrefixes_reference (name : List Char) (rest : List Piece) :
    KeepsPrefixes (.reference name :: rest) ↔
      ¬ IsPrefix name (rest.flatMap Piece.source) ∧ KeepsPrefixes rest := Iff.rfl

theorem le_start_of_mem_skipped (offset : Nat) (before text : List Char) :
    ∀ literal ∈ (read offset before text).skipped, offset ≤ literal.start := by
  fun_induction read offset before text with
  | case1 | case2 => exact List.forall_mem_nil _
  | case3 offset before c rest length h literal ih =>
    exact List.forall_mem_cons.2 ⟨Nat.le_refl _, fun other hMem =>
      Nat.le_trans (Nat.le_add_right ..) (ih other hMem)⟩
  | case4 | case5 | case6 =>
    rename_i ih
    exact fun literal hMem => Nat.le_trans (Nat.le_add_right ..) (ih literal hMem)

theorem flatMap_source_read (offset : Nat) (before text : List Char) :
    (read offset before text).pieces.flatMap Piece.source = text := by
  rw [pieces_read, flatMap_source_pieces]

/-- The same literals are skipped if and only if no name of a reference is the prefix of a raw
string, provided that what comes before has no influence. -/
theorem read_skips_iff {before' : List Char} (hAgree : Agree before before' text)
    (h : Skims offset before' text found) :
    ((read offset before text).failure = none ∧ (read offset before text).skipped = found) ↔
      KeepsPrefixes (read offset before text).pieces := by
  fun_induction read offset before text generalizing before' found with
  | case1 => exact iff_of_true ⟨rfl, h.eq_nil.symm⟩ trivial
  | case2 offset before c rest kind hLiteral =>
    rw [← hAgree.literalLength_eq] at hLiteral
    exact absurd hLiteral (h.ne_error kind)
  | case3 offset before c rest length hLiteral literal =>
    rename_i ih
    have hSplit : literal ++ (c :: rest).drop length = c :: rest := List.take_append_drop ..
    have hRest := Agree.of_append literal (hSplit ▸ hAgree)
    rw [← hAgree.literalLength_eq] at hLiteral
    obtain ⟨more, rfl, hMore⟩ := h.of_some hLiteral
    rw [Reading.cons, keepsPrefixes_plain, ← ih hRest hMore]
    simp [literal]
  | case4 offset before rest hStart name hLiteral =>
    rename_i ih
    have hName : ∀ c ∈ name, isIdentChar c := fun c hc => List.mem_takeWhile_imp hc
    have hSplit : name ++ rest.dropWhile isIdentChar = rest := List.takeWhile_append_dropWhile
    have hSource := flatMap_source_read (offset + byteSize ('@' :: name))
      (name.reverse ++ '@' :: before) (rest.dropWhile isIdentChar)
    have hNext := h.of_none (literalLength_mark before' rest)
    rw [← hSplit] at hNext
    rw [Reading.cons, keepsPrefixes_reference, hSource]
    by_cases hPrefix : IsPrefix name (rest.dropWhile isIdentChar)
    · -- the raw string begins in the name, behind which the other reading goes on
      refine iff_of_false (fun hSame => ?_) (fun hKeeps => hKeeps.1 hPrefix)
      obtain ⟨literal, hMem, hStart⟩ := hNext.lt_of_isPrefix (by simp [InWord]; decide)
        (by simp [InWord]; decide) hPrefix
      rw [← hSame.2] at hMem
      have hLater := le_start_of_mem_skipped _ _ _ literal hMem
      simp only [byteSize_cons, byteSize_nil] at hStart hLater
      omega
    · have hAfter := hNext.of_append fun front c back hName' =>
        literalLength_of_not_isPrefix hName hPrefix hName'
      have hRest := Agree.of_append ('@' :: name) (by rwa [List.cons_append, hSplit])
      rw [List.reverse_cons, List.append_assoc, List.append_assoc] at hRest
      rw [Nat.add_assoc, ← byteSize_append] at hAfter
      rw [← ih hRest hAfter]
      simp [hPrefix]
  | case5 offset before rest hStart hLiteral ih =>
    have hNext := h.of_none (literalLength_mark before' rest)
    rw [Reading.cons, keepsPrefixes_mark, ← ih (hAgree.of_append ['@']) hNext]
    simp
  | case6 offset before c rest hLiteral hMark ih =>
    rw [← hAgree.literalLength_eq] at hLiteral
    have hNext := h.of_none hLiteral
    rw [Reading.cons, keepsPrefixes_plain, ← ih (hAgree.of_append [c]) hNext]
    simp

/-! ### Code in a text -/

/-- Code begins with the prefix of a raw string, but the word that seems to be the prefix begins in
front of the code. -/
def CutsWord (before code : List Char) : Prop :=
  ∃ rest, OpensQuote rest ∧
    (code = 'r' :: rest ∧ InWord before ∨ code = 'b' :: 'r' :: rest ∧ InWord ('b' :: before))

/-- Behind two characters, or one that is no `b`, it does not matter what comes before them. -/
theorem inWord_append_iff {front : List Char} (hNil : front ≠ []) (hPrefix : front ≠ ['b']) :
    InWord (front ++ before) ↔ InWord front := by
  obtain ⟨c, front, rfl⟩ := List.exists_cons_of_ne_nil hNil
  by_cases hb : c = 'b'
  · subst hb
    cases front with
    | nil => exact absurd rfl hPrefix
    | cons d front => simp [inWord_cons_b]
  · simp [InWord, hb]

/-- Unless a word ends in front of the code, what comes before has no influence. -/
theorem agree_of_not_cutsWord (h : ¬ CutsWord before text) : Agree [] before text := by
  intro front back hText
  cases back with
  | nil => rfl
  | cons c back =>
    by_cases hRaw : c = 'r'
    · subst hRaw
      have hWord (hQuote : OpensQuote back) :
          InWord (front.reverse ++ before) ↔ InWord (front.reverse ++ []) := by
        -- only a prefix at the start of the code is near enough
        by_cases hNil : front.reverse = []
        · have hBefore : ¬ InWord before := fun hWord =>
            h ⟨back, hQuote, .inl ⟨by rw [hText, List.reverse_eq_nil_iff.1 hNil]; rfl, hWord⟩⟩
          rw [hNil]
          exact iff_of_false hBefore not_inWord_nil
        · by_cases hPrefix : front.reverse = ['b']
          · have hBefore : ¬ InWord ('b' :: before) := fun hWord =>
              h ⟨back, hQuote, .inr ⟨by rw [hText, List.reverse_eq_iff.1 hPrefix]; rfl, hWord⟩⟩
            rw [hPrefix]
            exact iff_of_false hBefore (by simp [InWord])
          · rw [List.append_nil, inWord_append_iff hNil hPrefix]
      have hSame : startsRawString (front.reverse ++ before) back =
          startsRawString (front.reverse ++ []) back := by
        rw [Bool.eq_iff_iff, startsRawString_iff, startsRawString_iff]
        exact and_congr_left fun hQuote => not_congr (hWord hQuote)
      simp only [literalLength, hSame]
    · exact literalLength_eq_of_ne hRaw _ _ _

/-- A literal at the start of a text is skipped or left open. -/
theorem exists_skipped_of_ne_none (h : literalLength before text ≠ .ok none)
    (hClosed : (read offset before text).failure = none) :
    ∃ literal ∈ (read offset before text).skipped, literal.start = offset := by
  revert hClosed
  fun_cases read offset before text with
  | case1 => exact absurd rfl h
  | case2 => simp
  | case3 => exact fun _ => ⟨_, List.mem_cons_self, rfl⟩
  | case4 rest => exact absurd (literalLength_mark before rest) h
  | case5 rest => exact absurd (literalLength_mark before rest) h
  | case6 c rest hLiteral => exact absurd hLiteral h

/-- Where a word ends in front of the code, a raw string is skipped that is none. -/
theorem not_read_of_cutsWord (hCuts : CutsWord before text) (h : Skims offset before text found) :
    ¬ ((read offset [] text).failure = none ∧ (read offset [] text).skipped = found) := by
  rintro ⟨hClosed, rfl⟩
  have hRaw {before rest : List Char} (hBefore : ¬ InWord before) (hQuote : OpensQuote rest) :
      literalLength before ('r' :: rest) ≠ .ok none :=
    fun hNone => literalLength_eq_none_iff.1 hNone (.rawString hBefore hQuote)
  have hSize := ('r').utf8Size_pos
  obtain ⟨rest, hQuote, ⟨rfl, hWord⟩ | ⟨rfl, hWord⟩⟩ := hCuts
  · have hNext := h.of_none (literalLength_of_inWord hWord (by decide) rest)
    obtain ⟨literal, hMem, hStart⟩ :=
      exists_skipped_of_ne_none (hRaw not_inWord_nil hQuote) hClosed
    have hLater := hNext.le_start literal hMem
    simp only [byteSize_cons] at hLater
    omega
  · have hNone (before text : List Char) : literalLength before ('b' :: text) = .ok none :=
      literalLength_of_ne (by decide) (by decide) (by decide) (by decide) before text
    have hNext := (h.of_none (hNone _ _)).of_none (literalLength_of_inWord hWord (by decide) rest)
    have hRead : read offset [] ('b' :: 'r' :: rest) =
        (read (offset + byteSize ['b']) ['b'] ('r' :: rest)).cons (.plain ['b']) [] := by
      rw [read]
      split
      · next hEq => simp [hNone] at hEq
      · next hEq => simp [hNone] at hEq
      · rw [if_neg (by decide)]
    rw [hRead, Reading.cons] at hClosed hNext
    obtain ⟨literal, hMem, hStart⟩ :=
      exists_skipped_of_ne_none (hRaw (by simp [InWord]) hQuote) hClosed
    have hLater := hNext.le_start literal hMem
    simp only [byteSize_cons, byteSize_nil] at hStart hLater
    omega

/-- Code that has been found in a text is read again: the same literals are skipped and none is left
open if and only if the code does not begin with the end of a word that looks like the prefix of a
raw string, and no name of a reference is such a prefix. -/
theorem reread_iff (h : Skims 0 before text found) :
    ((read 0 [] text).failure = none ∧ (read 0 [] text).skipped = found) ↔
      ¬ CutsWord before text ∧ KeepsPrefixes (pieces [] text) := by
  rw [← pieces_read 0]
  by_cases hCuts : CutsWord before text
  · exact iff_of_false (not_read_of_cutsWord hCuts h) (fun hKeeps => hKeeps.1 hCuts)
  · rw [read_skips_iff (agree_of_not_cutsWord hCuts) h]
    simp [hCuts]

/-- Marks in code are references, stray marks, marks of patterns, or stand in literals. -/
theorem mark_of_mem_pieces (hClosed : (read offset before text).failure = none) :
    ∀ piece ∈ (read offset before text).pieces, '@' ∈ piece.source →
      (∃ literal ∈ (read offset before text).skipped, piece = .plain literal.text) ∨
        piece = .plain ['@'] ∨ piece = .stray ∨ ∃ name, piece = .reference name := by
  fun_induction read offset before text with
  | case1 => exact List.forall_mem_nil _
  | case2 offset before c rest kind hLiteral => cases hClosed
  | case3 offset before c rest length hLiteral literal ih =>
    refine List.forall_mem_cons.2 ⟨fun _ => .inl ⟨_, List.mem_cons_self, rfl⟩, ?_⟩
    intro piece hPiece hMark
    refine (ih hClosed piece hPiece hMark).imp_left ?_
    rintro ⟨other, hMem, hText⟩
    exact ⟨other, List.mem_cons_of_mem _ hMem, hText⟩
  | case4 offset before rest hStart name hLiteral ih =>
    exact List.forall_mem_cons.2 ⟨fun _ => .inr (.inr (.inr ⟨name, rfl⟩)), ih hClosed⟩
  | case5 offset before rest hStart hLiteral ih =>
    refine List.forall_mem_cons.2 ⟨fun _ => .inr ?_, ih hClosed⟩
    rw [Piece.mark]
    split
    · exact .inl rfl
    · exact .inr (.inl rfl)
  | case6 offset before c rest hLiteral hOther ih =>
    refine List.forall_mem_cons.2 ⟨fun hMark => ?_, ih hClosed⟩
    exact absurd (List.mem_singleton.1 hMark).symm hOther

/-- A piece of code in a text and the piece alone: reading the piece alone, up to its end, skips the
same literals as finding its end did if and only if it does not begin with the end of a word that
looks like the prefix of a raw string, and no name of a reference in it is such a prefix. Then all
marks outside of literals are found. -/
theorem ReadState.fragment_reread_iff {source : List Char} {bound : Nat}
    {state : ReadState source bound} {stops : List Char} {angle : Bool}
    {result : Onward state Fragment} (h : state.fragment stops angle = .ok result) :
    ∃ skipped, state.fragmentNoted stops angle = .ok (result.withValue (result.value, skipped)) ∧
      let reading := TreeGrammar.read 0 [] result.value.text.toList
      reading.pieces = result.value.pieces ∧
        ((reading.failure = none ∧ reading.skipped = skipped) ↔
          ¬ CutsWord state.reader.before result.value.text.toList ∧
            KeepsPrefixes result.value.pieces) ∧
        (reading.failure = none → ∀ piece ∈ result.value.pieces, '@' ∈ piece.source →
          (∃ literal ∈ reading.skipped, piece = .plain literal.text) ∨
            piece = .plain ['@'] ∨ piece = .stray ∨ ∃ name, piece = .reference name) := by
  rw [← fragmentNoted_eq] at h
  cases hNoted : state.fragmentNoted stops angle with
  | error failure => simp [hNoted, Except.map] at h
  | ok noted =>
    rw [hNoted] at h
    obtain rfl := Except.ok.inj h
    obtain ⟨⟨skipped, next, le⟩, hSkip, hPure⟩ := Attempt.bind_eq_ok.1 hNoted
    obtain rfl := Except.ok.inj hPure
    obtain ⟨code, hCode, hSkims⟩ := skims_of_skipCodeNoted hSkip
    have hText : state.rest.take (state.remaining - next.remaining) = code := by
      rw [remaining, remaining, hCode, List.length_append, Nat.add_sub_cancel, List.take_left]
    refine ⟨skipped, rfl, ?_⟩
    simp only [Onward.withValue, hText, String.toList_ofList, Fragment.pieces]
    refine ⟨pieces_read .., reread_iff hSkims, fun hClosed => ?_⟩
    rw [← pieces_read 0]
    exact mark_of_mem_pieces hClosed

namespace Sample

/-- The code `@x "@"` in front of a brace. -/
def markedCode : List Char := "@x \"@\"\x7d".toList

/-- The string is skipped both when the end of the code is looked for and when the code is read
again. -/
theorem fragment_reread_iff_markedCode :
    ∃ result skipped, (ReadState.ofText markedCode).fragment ['}'] false = .ok result ∧
      (ReadState.ofText markedCode).fragmentNoted ['}'] false =
        .ok (result.withValue (result.value, skipped)) ∧
      let reading := read 0 [] result.value.text.toList
      reading.failure = none ∧ reading.skipped = skipped := by
  have hValue : ((ReadState.ofText markedCode).fragment ['}'] false).toOption.map (·.value) =
      some ⟨"@x \"@\"", .start⟩ := by decide +kernel
  cases hFragment : (ReadState.ofText markedCode).fragment ['}'] false with
  | error failure => simp [hFragment, Except.toOption] at hValue
  | ok result =>
    have hText : result.value = ⟨"@x \"@\"", .start⟩ := by
      simpa [hFragment, Except.toOption] using hValue
    obtain ⟨skipped, hNoted, -, hIff, -⟩ := ReadState.fragment_reread_iff hFragment
    refine ⟨result, skipped, rfl, hNoted, hIff.2 ⟨?_, ?_⟩⟩
    · rw [hText]
      simp [CutsWord]
    · rw [hText]
      have hPieces : Fragment.pieces ⟨"@x \"@\"", .start⟩ =
          [.reference ['x'], .plain [' '], .plain "\"@\"".toList] := by decide +kernel
      rw [hPieces]
      simp [KeepsPrefixes, IsPrefix]

end Sample

namespace RawPrefix

/-- The code `@r"\"` in front of a brace. -/
def code : List Char := "@r\"\\\"\x7d".toList

/-- The parser skips a raw string behind the mark. When the code is read again, the `r` is the name
of an attribute, and a string is left open behind it. -/
theorem not_reread :
    ∃ result skipped, (ReadState.ofText code).fragment ['}'] false = .ok result ∧
      (ReadState.ofText code).fragmentNoted ['}'] false =
        .ok (result.withValue (result.value, skipped)) ∧
      skipped = [⟨1, "r\"\\\"".toList⟩] ∧
      let reading := read 0 [] result.value.text.toList
      reading.failure = some .string ∧ reading.skipped = [] := by
  have hValue : ((ReadState.ofText code).fragmentNoted ['}'] false).toOption.map (·.value) =
      some (⟨"@r\"\\\"", .start⟩, [⟨1, "r\"\\\"".toList⟩]) := by decide +kernel
  have hReading : (read 0 [] "@r\"\\\"".toList).failure = some .string ∧
      (read 0 [] "@r\"\\\"".toList).skipped = [] := by decide +kernel
  have hFragment := ReadState.fragmentNoted_eq (ReadState.ofText code) ['}'] false
  cases hNoted : (ReadState.ofText code).fragmentNoted ['}'] false with
  | error failure => simp [hNoted, Except.toOption] at hValue
  | ok noted =>
    rw [hNoted] at hFragment
    obtain ⟨value, state, le⟩ := noted
    obtain rfl : value = _ := by simpa [hNoted, Except.toOption] using hValue
    exact ⟨_, _, hFragment.symm, rfl, rfl, hReading⟩

end RawPrefix

end TreeGrammar
