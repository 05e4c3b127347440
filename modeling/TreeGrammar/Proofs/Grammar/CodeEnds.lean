import TreeGrammar.Proofs.Grammar.Delimiters
import TreeGrammar.Proofs.Grammar.LiteralForms
import TreeGrammar.Proofs.Grammar.Locality

/-!
# Where code ends

A piece of code goes up to the first of some characters that stands outside of all literals,
comments and delimiters, and if angle brackets count, outside of these. Cut into parts, the piece is
the shortest one that is closed and has such a character behind it. If there is none, then something
is wrong with the delimiters at some place, or something is left open at the end.

## Main definitions

* `cut`: the parts of code
* `IsStretch`: code that may be read as a piece
* `Fault`: what is wrong with code, and where
* `Nesting.seek`: the parts in front of the first end
* `ReadState.FindsShortest`: a piece of code is the shortest one

## Main results

* `ReadState.findsShortest`: the pieces of code that are read
-/

namespace TreeGrammar

open CodePart (texts)

/-! ### Cutting -/

/-- Code that is cut into parts, up to its end or to a literal that is left open. -/
structure Cut where
  parts : List CodePart := []
  failure : Option Literal := none

/-- Code with one more part in front. -/
def Cut.cons (part : CodePart) (code : Cut) : Cut := { code with parts := part :: code.parts }

/-- The parts of a text. `before` is the text before it, its last character first. -/
def cut (before text : List Char) : Cut :=
  match text with
  | [] => {}
  | c :: rest =>
    match _h : literalLength before (c :: rest) with
    | .error kind => { failure := kind }
    | .ok (some length) =>
      let literal := (c :: rest).take length
      (cut (literal.reverse ++ before) ((c :: rest).drop length)).cons (.literal literal)
    | .ok none =>
      if c = '-' ∧ rest.head? = some '>' then (cut ('>' :: '-' :: before) (rest.drop 1)).cons .arrow
      else (cut (c :: before) rest).cons (.char c)
  termination_by text.length
  decreasing_by
    · have := literalLength_pos _h
      simp only [List.length_drop, List.length_cons]
      omega
    · simp only [List.length_drop, List.length_cons]
      omega
    · simp

/-! ### Pieces and faults -/

/-- The first parts of code, if they are closed and one of the characters of `stops` comes next. -/
def IsStretch (stops : List Char) (angle : Bool) (parts pre : List CodePart) : Prop :=
  Closed angle pre ∧
    ∃ next post, parts = pre ++ next :: post ∧ ∃ c ∈ stops, next.head? = some c

/-- The shortest such parts. -/
def IsShortest (stops : List Char) (angle : Bool) (parts pre : List CodePart) : Prop :=
  IsStretch stops angle parts pre ∧
    ∀ other, IsStretch stops angle parts other → (texts pre).length ≤ (texts other).length

/-- What is wrong with code that stands at `start`, and where. -/
inductive Fault (start : Span) (code : Cut) : SyntaxError → Prop where
  /-- The first delimiter that closes something where nothing is open. -/
  | unbalanced {pre post : List CodePart} {c : Char} (hParts : code.parts = pre ++ .char c :: post)
      (hClosing : c ∈ closings) (hPre : Closed false pre) :
      Fault start code ⟨start.advance (texts pre), .unbalancedDelimiter c⟩
  /-- The first delimiter that closes another one than the innermost open one. -/
  | mismatched {outer inner post : List CodePart} {opening c : Char}
      (hParts : code.parts = outer ++ .char opening :: inner ++ .char c :: post)
      (hOpening : opening ∈ openings) (hClosing : c ∈ closings) (hOuter : Viable outer)
      (hInner : Closed false inner) (hMismatch : Nesting.closing opening ≠ c) :
      Fault start code ⟨start.advance (texts (outer ++ .char opening :: inner)),
        .mismatchedDelimiter c (start.advance (texts outer)) (Nesting.closing opening)⟩
  /-- A literal or comment that is left open. -/
  | unterminated {kind : Literal} (hFailure : code.failure = some kind)
      (hParts : Viable code.parts) :
      Fault start code ⟨start.advance (texts code.parts), .unterminated kind⟩
  /-- The last delimiter that is left open. -/
  | unclosed {outer inner : List CodePart} {opening : Char} (hFailure : code.failure = none)
      (hParts : code.parts = outer ++ .char opening :: inner) (hOpening : opening ∈ openings)
      (hOuter : Viable outer) (hInner : Closed false inner) :
      Fault start code
        ⟨start.advance (texts outer), .unclosedDelimiter (Nesting.closing opening)⟩
  /-- No delimiter is left open, but the code around is. -/
  | unfinished (hFailure : code.failure = none) (hParts : Closed false code.parts) :
      Fault start code ⟨start, .unclosedDelimiter '\x7d'⟩

/-- What has been found in code is a stretch of it, or a fault. -/
def Cut.Yields (code : Cut) (stops : List Char) (angle : Bool) (start : Span) :
    Except SyntaxError (List CodePart) → Prop
  | .ok pre => IsStretch stops angle code.parts pre
  | .error error => Fault start code error

/-! ### Seeking the end -/

namespace Nesting

/-- The code may end in front of the part. -/
def endsAt (nesting : Nesting) (stops : List Char) (part : CodePart) : Bool :=
  nesting.isEmpty && part.head?.any stops.contains

/-- The error at the end of code, which begins at `start` and ends at `place`. -/
def atEnd (nesting : Nesting) (start place : Span) : Option Literal → SyntaxError
  | some kind => ⟨place, .unterminated kind⟩
  | none =>
    let (opening, opened) := nesting.opened.head?.getD ('\x7b', start)
    ⟨opened, .unclosedDelimiter (closing opening)⟩

/-- The parts in front of the first end of code. The code begins at `start`, and the parts that are
still to come stand at `place`. -/
def seek (nesting : Nesting) (stops : List Char) (angle : Bool) (start place : Span)
    (failure : Option Literal) : List CodePart → Except SyntaxError (List CodePart)
  | [] => .error (nesting.atEnd start place failure)
  | part :: parts =>
    if nesting.endsAt stops part then .ok []
    else
      match nesting.past angle place part with
      | .error cause => .error ⟨place, cause⟩
      | .ok next =>
        (next.seek stops angle start (place.advance part.text) failure parts).map (part :: ·)

variable {nesting next : Nesting} {stops : List Char} {angle : Bool} {start place : Span}
  {failure : Option Literal} {passed parts pre rest : List CodePart} {error : SyntaxError}

theorem endsAt_iff {part : CodePart} : nesting.endsAt stops part = true ↔
    nesting.isEmpty = true ∧ ∃ c ∈ stops, part.head? = some c := by
  rw [endsAt, Bool.and_eq_true, Option.any_eq_true]
  simp only [List.contains_iff_mem, and_comm]

theorem seek_of_endsAt {part : CodePart} (hEnd : nesting.endsAt stops part) :
    nesting.seek stops angle start place failure (part :: parts) = .ok [] := by
  rw [seek, if_pos hEnd]

theorem seek_of_past {part : CodePart} (hEnd : ¬ nesting.endsAt stops part)
    (hPast : nesting.past angle place part = .ok next) :
    nesting.seek stops angle start place failure (part :: parts) =
      (next.seek stops angle start (place.advance part.text) failure parts).map (part :: ·) := by
  rw [seek, if_neg hEnd, hPast]

theorem seek_of_error {part : CodePart} {cause : SyntaxError.Cause}
    (hEnd : ¬ nesting.endsAt stops part) (hPast : nesting.past angle place part = .error cause) :
    nesting.seek stops angle start place failure (part :: parts) = .error ⟨place, cause⟩ := by
  rw [seek, if_neg hEnd, hPast]

theorem fault_atEnd (hNested : Nested angle start passed nesting) :
    Fault start ⟨passed, failure⟩ (nesting.atEnd start (start.advance (texts passed)) failure) := by
  cases failure with
  | some kind =>
    show Fault start ⟨passed, some kind⟩ ⟨start.advance (texts passed), .unterminated kind⟩
    exact .unterminated rfl hNested.viable
  | none =>
    cases hOpened : nesting.opened with
    | nil =>
      have hForget := hNested.forget
      rw [hOpened] at hForget
      rw [atEnd, hOpened]
      exact .unfinished rfl (hForget.closed_of_isEmpty rfl)
    | cons delimiter outer =>
      obtain ⟨opening, opened⟩ := delimiter
      obtain ⟨outerParts, inner, rfl, hOpening, hInner, rfl, hOuter⟩ :=
        hNested.exists_of_opened hOpened
      rw [atEnd, hOpened]
      exact .unclosed rfl rfl hOpening hOuter.viable hInner

/-- The delimiter that is wrong where code is not passed. -/
theorem fault_of_past {part : CodePart} {cause : SyntaxError.Cause}
    (hNested : Nested angle start passed nesting)
    (hPast : nesting.past angle place part = .error cause) :
    Fault start ⟨passed ++ part :: rest, failure⟩ ⟨start.advance (texts passed), cause⟩ := by
  cases part with
  | literal | arrow => cases hPast
  | char c =>
    rw [past] at hPast
    cases takes_of_after hPast with
    | unbalanced hClosing hOpened =>
      have hForget := hNested.forget
      rw [hOpened] at hForget
      exact .unbalanced rfl hClosing (hForget.closed_of_isEmpty rfl)
    | mismatched hClosing hOpened hMismatch =>
      obtain ⟨outer, inner, rfl, hMem, hInner, rfl, hOuter⟩ := hNested.exists_of_opened hOpened
      exact .mismatched rfl hMem hClosing hOuter.viable hInner hMismatch

/-- What is found is a stretch of the code, and an error is a fault of it. -/
theorem yields_seek (hNested : Nested angle start passed nesting)
    (hPlace : place = start.advance (texts passed)) :
    Cut.Yields ⟨passed ++ parts, failure⟩ stops angle start
      ((nesting.seek stops angle start place failure parts).map (passed ++ ·)) := by
  -- with each step, one part goes over from the code to what has been passed
  induction parts generalizing nesting passed place with
  | nil =>
    subst hPlace
    rw [seek, List.append_nil]
    exact fault_atEnd hNested
  | cons part parts ih =>
    by_cases hEnd : nesting.endsAt stops part
    · obtain ⟨hEmpty, hStop⟩ := endsAt_iff.1 hEnd
      rw [seek_of_endsAt hEnd]
      show IsStretch stops angle (passed ++ part :: parts) (passed ++ [])
      rw [List.append_nil]
      exact ⟨hNested.closed_of_isEmpty hEmpty, part, parts, rfl, hStop⟩
    cases hPast : nesting.past angle place part with
    | error cause =>
      subst hPlace
      rw [seek_of_error hEnd hPast]
      exact fault_of_past hNested hPast
    | ok next =>
      have hNext : place.advance part.text = start.advance (texts (passed ++ [part])) := by
        simp [hPlace]
      have hRest := ih (hNested.past hPlace hPast) hNext
      rw [seek_of_past hEnd hPast]
      cases hSeek : next.seek stops angle start (place.advance part.text) failure parts with
      | error error =>
        rw [hSeek, List.append_assoc] at hRest
        exact hRest
      | ok pre =>
        rw [hSeek] at hRest
        show IsStretch stops angle (passed ++ part :: parts) (passed ++ part :: pre)
        rw [List.append_cons, List.append_cons passed part pre]
        exact hRest

/-- Where a stretch ends, something is found, there or before. -/
theorem exists_seek_of_through {part : CodePart}
    (hThrough : nesting.through angle place pre = .ok next) (hEnd : next.endsAt stops part) :
    ∃ found, found <+: pre ∧
      nesting.seek stops angle start place failure (pre ++ part :: rest) = .ok found := by
  induction pre generalizing nesting place with
  | nil =>
    obtain rfl := Except.ok.inj hThrough
    exact ⟨[], List.nil_prefix, seek_of_endsAt hEnd⟩
  | cons first pre ih =>
    by_cases hFirst : nesting.endsAt stops first
    · exact ⟨[], List.nil_prefix, seek_of_endsAt hFirst⟩
    obtain ⟨inside, hPast, hMore⟩ := through_cons_eq_ok.1 hThrough
    obtain ⟨found, hPrefix, hFound⟩ := ih hMore
    refine ⟨first :: found, List.cons_prefix_cons.2 ⟨rfl, hPrefix⟩, ?_⟩
    rw [List.cons_append, seek_of_past hFirst hPast, hFound]
    rfl

/-- An error behind parts that are passed is found, unless the code ends before. -/
theorem seek_append_eq_error (hThrough : nesting.through angle place pre = .ok next)
    (hError : next.seek stops angle start (place.advance (texts pre)) failure rest = .error error)
    (hNone : ∀ found, nesting.seek stops angle start place failure (pre ++ rest) ≠ .ok found) :
    nesting.seek stops angle start place failure (pre ++ rest) = .error error := by
  induction pre generalizing nesting place with
  | nil =>
    obtain rfl := Except.ok.inj hThrough
    exact hError
  | cons first pre ih =>
    have hFirst : ¬ nesting.endsAt stops first := fun hEnd => hNone [] (seek_of_endsAt hEnd)
    obtain ⟨inside, hPast, hMore⟩ := through_cons_eq_ok.1 hThrough
    rw [CodePart.texts_cons, Span.advance_append] at hError
    rw [List.cons_append, seek_of_past hFirst hPast] at hNone ⊢
    rw [ih hMore hError fun found hFound => hNone (first :: found) (by rw [hFound]; rfl)]
    rfl

/-- If all parts are passed, then the error at the end is found. -/
theorem seek_eq_error (hThrough : nesting.through angle place parts = .ok next)
    (hNone : ∀ found, nesting.seek stops angle start place failure parts ≠ .ok found) :
    nesting.seek stops angle start place failure parts =
      .error (next.atEnd start (place.advance (texts parts)) failure) := by
  rw [← List.append_nil parts] at hNone
  have hError := seek_append_eq_error hThrough rfl hNone
  rwa [List.append_nil] at hError

end Nesting

/-- A fault is found, unless the code ends before. -/
theorem Fault.seek_eq {start : Span} {code : Cut} {error : SyntaxError} {stops : List Char}
    {angle : Bool} (h : Fault start code error) (hNone : ∀ found,
      Nesting.seek {} stops angle start start code.failure code.parts ≠ .ok found) :
    Nesting.seek {} stops angle start start code.failure code.parts = .error error := by
  obtain ⟨parts, failure⟩ := code
  -- code is passed up to the fault
  cases h with
  | @unbalanced pre post c hParts hClosing hPre =>
    subst hParts
    obtain ⟨angles, hThrough⟩ := hPre.through_opened angle start
    refine Nesting.seek_append_eq_error hThrough ?_ hNone
    refine Nesting.seek_of_error (fun hEnd => ?_) (Nesting.after_closing_nil hClosing rfl)
    obtain ⟨found, -, hFound⟩ := Nesting.exists_seek_of_through hThrough hEnd
    exact hNone found hFound
  | @mismatched outer inner post opening c hParts hOpening hClosing hOuter hInner hMismatch =>
    subst hParts
    obtain ⟨nesting, hThrough⟩ := hOuter.exists_through_opening hOpening hInner angle start
    refine Nesting.seek_append_eq_error hThrough ?_ hNone
    refine Nesting.seek_of_error (by simp [Nesting.endsAt, Nesting.isEmpty]) ?_
    rw [Nesting.past, Nesting.after_closing_cons hClosing rfl, if_neg hMismatch]
  | @unterminated kind hFailure hParts =>
    subst hFailure
    obtain ⟨nesting, hThrough⟩ := hParts.exists_through angle start
    exact Nesting.seek_eq_error hThrough hNone
  | unclosed hFailure hParts hOpening hOuter hInner =>
    subst hFailure
    obtain rfl : parts = _ := hParts
    obtain ⟨nesting, hThrough⟩ := hOuter.exists_through_opening hOpening hInner angle start
    exact Nesting.seek_eq_error hThrough hNone
  | unfinished hFailure hParts =>
    subst hFailure
    obtain ⟨angles, hThrough⟩ := hParts.through_opened angle start
    exact Nesting.seek_eq_error hThrough hNone

namespace Cut

variable {code : Cut} {stops : List Char} {angle : Bool} {start : Span} {pre : List CodePart}
  {error : SyntaxError}

/-- The parts in front of the first end of code that stands at `start`. -/
def seek (code : Cut) (stops : List Char) (angle : Bool) (start : Span) :
    Except SyntaxError (List CodePart) :=
  Nesting.seek {} stops angle start start code.failure code.parts

theorem yields_seek (code : Cut) (stops : List Char) (angle : Bool) (start : Span) :
    code.Yields stops angle start (code.seek stops angle start) := by
  have hYields : Yields ⟨[] ++ code.parts, code.failure⟩ stops angle start
      ((code.seek stops angle start).map ([] ++ ·)) :=
    Nesting.yields_seek (.closed .nil) rfl
  cases hSeek : code.seek stops angle start with
  | error error =>
    rw [hSeek] at hYields
    exact hYields
  | ok pre =>
    rw [hSeek] at hYields
    exact hYields

/-- There is an end in front of every stretch, or at its end. -/
theorem exists_seek (h : IsStretch stops angle code.parts pre) (start : Span) :
    ∃ found, found <+: pre ∧ code.seek stops angle start = .ok found := by
  obtain ⟨hClosed, next, post, hParts, hStop⟩ := h
  rw [seek, hParts]
  exact Nesting.exists_seek_of_through (hClosed.through_empty start)
    (Nesting.endsAt_iff.2 ⟨rfl, hStop⟩)

theorem isShortest_of_seek (h : code.seek stops angle start = .ok pre) :
    IsShortest stops angle code.parts pre := by
  have hYields := code.yields_seek stops angle start
  rw [h] at hYields
  refine ⟨hYields, fun other hOther => ?_⟩
  obtain ⟨found, ⟨more, rfl⟩, hFound⟩ := exists_seek hOther start
  -- what is found in front of the other stretch is found here too
  obtain rfl := Except.ok.inj (h.symm.trans hFound)
  rw [CodePart.texts_append, List.length_append]
  exact Nat.le_add_right ..

/-- The shortest stretch is the one that is found. -/
theorem exists_seek_of_isShortest (h : IsShortest stops angle code.parts pre) (start : Span) :
    ∃ found, code.seek stops angle start = .ok found ∧ texts found = texts pre := by
  obtain ⟨found, ⟨more, rfl⟩, hFound⟩ := exists_seek h.1 start
  refine ⟨found, hFound, ?_⟩
  have hLength := h.2 found (isShortest_of_seek hFound).1
  rw [CodePart.texts_append] at hLength ⊢
  exact (List.prefix_append _ _).eq_of_length_le hLength

theorem seek_eq_error_iff : code.seek stops angle start = .error error ↔
    (∀ pre, ¬ IsStretch stops angle code.parts pre) ∧ Fault start code error := by
  constructor
  · intro h
    have hYields := code.yields_seek stops angle start
    rw [h] at hYields
    refine ⟨fun pre hPre => ?_, hYields⟩
    obtain ⟨found, -, hFound⟩ := exists_seek hPre start
    rw [h] at hFound
    cases hFound
  · rintro ⟨hNone, hFault⟩
    refine hFault.seek_eq fun found hFound => hNone found ?_
    exact (isShortest_of_seek hFound).1

end Cut

/-! ### Parts of a text -/

section Cut

variable {before text rest : List Char}

theorem cut_nil : cut before [] = {} := by
  rw [cut]

theorem cut_of_error {kind : Literal} (h : literalLength before text = .error kind) :
    cut before text = { failure := kind } := by
  cases text with
  | nil => cases h
  | cons c rest =>
    rw [cut]
    split
    · next other hEq =>
      obtain rfl : other = kind := by simpa [h] using hEq.symm
      rfl
    · next hEq => simp [h] at hEq
    · next hEq => simp [h] at hEq

theorem cut_of_literal {length : Nat} (h : literalLength before text = .ok (some length)) :
    cut before text = (cut ((text.take length).reverse ++ before) (text.drop length)).cons
      (.literal (text.take length)) := by
  cases text with
  | nil => cases h
  | cons c rest =>
    rw [cut]
    split
    · next hEq => simp [h] at hEq
    · next other hEq =>
      obtain rfl : other = length := by simpa [h] using hEq.symm
      rfl
    · next hEq => simp [h] at hEq

/-- The part that begins at a character at which no literal begins. -/
def partAt (text : List Char) (c : Char) : CodePart :=
  if ReadState.codeStep text = 1 then .char c else .arrow

theorem codeStep_cons (c : Char) (rest : List Char) : ReadState.codeStep (c :: rest) =
    if c = '-' ∧ rest.head? = some '>' then 2 else 1 := by
  unfold ReadState.codeStep
  split
  · next hText =>
    obtain ⟨rfl, rfl⟩ := List.cons.inj hText
    rw [if_pos ⟨rfl, rfl⟩]
  · next hText =>
    rw [if_neg]
    rintro ⟨rfl, hHead⟩
    obtain ⟨more, rfl⟩ := List.head?_eq_some_iff.1 hHead
    exact hText more rfl

theorem Nesting.past_partAt (nesting : Nesting) (angle : Bool) (place : Span) (text : List Char)
    (c : Char) : nesting.past angle place (partAt text c) =
      if ReadState.codeStep text = 1 then nesting.after angle c place else .ok nesting := by
  rw [partAt]
  split <;> rfl

theorem text_partAt (c : Char) (rest : List Char) :
    (partAt (c :: rest) c).text = (c :: rest).take (ReadState.codeStep (c :: rest)) ∧
      (partAt (c :: rest) c).text.length = ReadState.codeStep (c :: rest) := by
  rw [partAt, codeStep_cons]
  by_cases hArrow : c = '-' ∧ rest.head? = some '>'
  · obtain ⟨rfl, hHead⟩ := hArrow
    obtain ⟨more, rfl⟩ := List.head?_eq_some_iff.1 hHead
    exact ⟨rfl, rfl⟩
  · rw [if_neg hArrow]
    exact ⟨rfl, rfl⟩

theorem head?_partAt (c : Char) (rest : List Char) :
    (partAt (c :: rest) c).head? = some c := by
  rw [partAt, codeStep_cons]
  by_cases hArrow : c = '-' ∧ rest.head? = some '>'
  · rw [if_pos hArrow, hArrow.1]
    rfl
  · rw [if_neg hArrow]
    rfl

theorem cut_of_none {c : Char} (h : literalLength before (c :: rest) = .ok none) :
    cut before (c :: rest) =
      (cut ((partAt (c :: rest) c).text.reverse ++ before)
        ((c :: rest).drop (ReadState.codeStep (c :: rest)))).cons (partAt (c :: rest) c) := by
  rw [cut]
  split
  · next hEq => simp [h] at hEq
  · next hEq => simp [h] at hEq
  · rw [partAt, codeStep_cons]
    by_cases hArrow : c = '-' ∧ rest.head? = some '>'
    · rw [if_pos hArrow, if_pos hArrow]
      rfl
    · rw [if_neg hArrow, if_neg hArrow]
      rfl

/-- The parts of a text are the text, up to a literal that is left open. -/
theorem texts_cut_prefix (before text : List Char) : texts (cut before text).parts <+: text := by
  fun_induction cut before text with
  | case1 => exact List.nil_prefix
  | case2 => exact List.nil_prefix
  | case3 before c rest length h literal ih =>
    have hPrefix := (List.prefix_append_right_inj literal).2 ih
    rw [List.take_append_drop] at hPrefix
    exact hPrefix
  | case4 before c rest h hArrow ih =>
    obtain ⟨rfl, hHead⟩ := hArrow
    obtain ⟨more, rfl⟩ := List.head?_eq_some_iff.1 hHead
    exact (List.prefix_append_right_inj ['-', '>']).2 ih
  | case5 before c rest h hArrow ih => exact (List.prefix_append_right_inj [c]).2 ih

end Cut

theorem Reader.drop_drop {source : List Char} (reader : Reader source) (count more : Nat) :
    (reader.drop count).drop more = reader.drop (count + more) := by
  have hRest : ((reader.drop count).drop more).rest = (reader.drop (count + more)).rest := by
    simp [List.drop_drop]
  have hBefore : ((reader.drop count).drop more).before = (reader.drop (count + more)).before := by
    simp [Reader.before_drop, List.take_add]
  generalize (reader.drop count).drop more = first at *
  generalize reader.drop (count + more) = second at *
  obtain ⟨before, rest, span, split, rfl⟩ := first
  obtain ⟨before', rest', span', split', rfl⟩ := second
  obtain rfl : before = before' := hBefore
  obtain rfl : rest = rest' := hRest
  rfl

namespace ReadState

variable {source : List Char} {bound : Nat} (state : ReadState source bound)

theorem span_drop (count : Nat) :
    (state.drop count).span = state.span.advance (state.rest.take count) := by
  have hBefore : (state.drop count).reader.before =
      (state.rest.take count).reverse ++ state.reader.before := Reader.before_drop ..
  rw [span, Reader.span_eq, hBefore, List.reverse_append, List.reverse_reverse,
    Span.advance_append, ← state.reader.span_eq]
  rfl

theorem drop_drop (count more : Nat) :
    (state.drop count).drop more = state.drop (count + more) := by
  simp only [drop, Reader.drop_drop]

/-- A step to the end of code does what has been found in its parts. -/
def Obeys (outcome : Except SyntaxError (List CodePart))
    (attempt : Attempt source bound (Onward state Unit)) : Prop :=
  (∀ pre, outcome = .ok pre → ∃ result, attempt = .ok result ∧
      result.state = state.drop (texts pre).length) ∧
    ∀ error, outcome = .error error → ∃ next, attempt = .error (error, next)

/-- A part is passed before the others. -/
theorem Obeys.cons {state : ReadState source bound} {part : CodePart} {count : Nat}
    {outcome : Except SyntaxError (List CodePart)}
    {attempt : Attempt source bound (Onward (state.drop count) Unit)}
    (h : Obeys _ outcome attempt) (hCount : part.text.length = count)
    (le : (state.drop count).remaining ≤ state.remaining) :
    state.Obeys (outcome.map (part :: ·))
      (attempt.bind fun result => .ok (result.weaken le)) := by
  subst hCount
  cases outcome with
  | error error =>
    refine ⟨by rintro pre ⟨⟩, ?_⟩
    rintro _ ⟨⟩
    obtain ⟨next, rfl⟩ := h.2 error rfl
    exact ⟨next, rfl⟩
  | ok pre =>
    refine ⟨?_, by rintro error ⟨⟩⟩
    rintro _ ⟨⟩
    obtain ⟨inner, rfl, hState⟩ := h.1 pre rfl
    refine ⟨inner.weaken le, rfl, ?_⟩
    rw [CodePart.texts_cons, List.length_append, ← drop_drop, ← hState]
    rfl

/-- Moving to the end of code is seeking the end in its parts. -/
theorem obeys_skipCode (stops : List Char) (angle : Bool) (start : Span) (nesting : Nesting) :
    state.Obeys (nesting.seek stops angle start state.span
      (cut state.reader.before state.rest).failure (cut state.reader.before state.rest).parts)
      (skipCode stops angle start nesting state) := by
  -- one case for each way a step ends: at the end of the text, at a literal that is left open,
  -- behind a literal, in front of an end, at a wrong delimiter, and behind another part
  fun_induction skipCode stops angle start nesting state with
  | case1 nesting state hRest opening place hOpened =>
    rw [hRest, cut_nil]
    refine ⟨by rintro pre ⟨⟩, ?_⟩
    rintro _ ⟨⟩
    rw [Nesting.atEnd, hOpened]
    exact ⟨state, rfl⟩
  | case2 nesting state c rest hRest pos kind hLiteral =>
    rw [cut_of_error hLiteral]
    refine ⟨by rintro pre ⟨⟩, ?_⟩
    rintro _ ⟨⟩
    exact ⟨state, rfl⟩
  | case3 nesting state c rest hRest pos length hLiteral hLength ih =>
    have hBefore : (state.drop length).reader.before =
        (state.rest.take length).reverse ++ state.reader.before := Reader.before_drop ..
    rw [span_drop, hBefore, rest_drop] at ih
    rw [cut_of_literal hLiteral, Cut.cons, Nesting.seek_of_past (by simp [Nesting.endsAt,
      CodePart.head?]) rfl]
    have hCount : (CodePart.literal (state.rest.take length)).text.length = length :=
      List.length_take_of_le (length_le_of_literalLength hLiteral)
    exact ih.cons hCount _
  | case4 nesting state c rest hRest pos hLiteral hStop =>
    rw [hRest] at hLiteral
    rw [hRest, cut_of_none hLiteral, Cut.cons, Nesting.seek_of_endsAt]
    · refine ⟨?_, by rintro error ⟨⟩⟩
      rintro _ ⟨⟩
      exact ⟨_, rfl, rfl⟩
    · rwa [Nesting.endsAt, head?_partAt]
  | case5 nesting state c rest hRest pos hLiteral hStop step hStep cause hNext =>
    have hPast : nesting.past angle state.span (partAt (c :: rest) c) = .error cause := by
      rw [Nesting.past_partAt, ← hRest]
      simpa [step] using hNext
    rw [hRest] at hLiteral
    rw [hRest, cut_of_none hLiteral, Cut.cons, Nesting.seek_of_error _ hPast]
    · refine ⟨by rintro pre ⟨⟩, ?_⟩
      rintro _ ⟨⟩
      exact ⟨state, rfl⟩
    · rwa [Nesting.endsAt, head?_partAt]
  | case6 nesting state c rest hRest pos hLiteral hStop step hStep next hNext ih =>
    have hBefore : (state.drop step).reader.before =
        (state.rest.take step).reverse ++ state.reader.before := Reader.before_drop ..
    have hPast : nesting.past angle state.span (partAt (c :: rest) c) = .ok next := by
      rw [Nesting.past_partAt, ← hRest]
      simpa [step] using hNext
    rw [span_drop, hBefore, rest_drop] at ih
    simp only [step, hRest] at hLiteral ih hStop ⊢
    rw [cut_of_none hLiteral, Cut.cons, Nesting.seek_of_past _ hPast, (text_partAt c rest).1]
    · exact ih.cons (by rw [hRest, (text_partAt c rest).2]) _
    · rwa [Nesting.endsAt, head?_partAt]

/-! ### The piece that is read -/

/-- The piece of code that is read is the shortest one, and if there is none, a fault is found. -/
structure FindsShortest (stops : List Char) (angle : Bool) (code : Cut) : Prop where
  /-- What is read is the shortest piece, and nothing behind it. -/
  found : ∀ (fragment : Fragment) (next : ReadState source bound),
    (∃ le, state.fragment stops angle = .ok ⟨fragment, next, le⟩) ↔
      ∃ pre, IsShortest stops angle code.parts pre ∧
        fragment = ⟨String.ofList (texts pre), state.span⟩ ∧ next = state.drop (texts pre).length
  /-- One of the characters of `stops` comes next. -/
  stands : ∀ pre, IsShortest stops angle code.parts pre →
    ∃ c ∈ stops, ∃ rest, state.rest = texts pre ++ c :: rest
  /-- It is an error if there is no piece. -/
  failed : ∀ error, (∃ next, state.fragment stops angle = .error (error, next)) ↔
    (∀ pre, ¬ IsStretch stops angle code.parts pre) ∧ Fault state.span code error

variable {state} {stops : List Char} {angle : Bool} {code : Cut} {pre : List CodePart}

/-- A stretch of code is followed by one of the characters. -/
theorem rest_of_isStretch
    (h : IsStretch stops angle (cut state.reader.before state.rest).parts pre) :
    ∃ c ∈ stops, ∃ rest, state.rest = texts pre ++ c :: rest := by
  obtain ⟨-, next, post, hParts, c, hStop, hHead⟩ := h
  obtain ⟨more, hMore⟩ := texts_cut_prefix state.reader.before state.rest
  obtain ⟨tail, hText⟩ := next.exists_text_of_head? hHead
  rw [hParts, CodePart.texts_append, CodePart.texts_cons, hText] at hMore
  exact ⟨c, hStop, tail ++ texts post ++ more, by rw [← hMore]; simp⟩

/-- The piece of code that is read if its end has been found. -/
theorem fragment_of_seek
    (h : (cut state.reader.before state.rest).seek stops angle state.span = .ok pre) :
    ∃ le, state.fragment stops angle = .ok
      ⟨⟨String.ofList (texts pre), state.span⟩, state.drop (texts pre).length, le⟩ := by
  obtain ⟨⟨⟨⟩, next, le⟩, hSkip, hState⟩ :=
    (state.obeys_skipCode stops angle state.span {}).1 pre h
  obtain rfl : next = state.drop (texts pre).length := hState
  obtain ⟨c, -, rest, hRest⟩ := rest_of_isStretch (Cut.isShortest_of_seek h).1
  have hText : state.rest.take (state.remaining - (state.drop (texts pre).length).remaining) =
      texts pre := by
    rw [remaining_drop, remaining, hRest]
    simp
  refine ⟨le, ?_⟩
  rw [fragment, hSkip]
  simp only [bind, Except.bind, pure, Except.pure, hText]

theorem fragment_of_seek_error {error : SyntaxError}
    (h : (cut state.reader.before state.rest).seek stops angle state.span = .error error) :
    ∃ next, state.fragment stops angle = .error (error, next) := by
  obtain ⟨next, hSkip⟩ := (state.obeys_skipCode stops angle state.span {}).2 error h
  exact ⟨next, by rw [fragment, hSkip]; rfl⟩

/-- A piece of code is read up to the first of the characters that stands outside of all literals,
comments and delimiters, whatever the text is; if there is none, then the first fault is found. -/
theorem findsShortest (state : ReadState source bound) (stops : List Char) (angle : Bool) :
    state.FindsShortest stops angle (cut state.reader.before state.rest) := by
  refine ⟨fun fragment next => ⟨?found, ?read⟩, fun pre h => rest_of_isStretch h.1,
    fun error => ⟨?failed, ?fault⟩⟩
  case found =>
    rintro ⟨le, hFragment⟩
    cases hSeek : (cut state.reader.before state.rest).seek stops angle state.span with
    | error error =>
      obtain ⟨next, hError⟩ := fragment_of_seek_error hSeek
      rw [hError] at hFragment
      cases hFragment
    | ok pre =>
      obtain ⟨le', hFound⟩ := fragment_of_seek hSeek
      rw [hFound] at hFragment
      cases hFragment
      exact ⟨pre, Cut.isShortest_of_seek hSeek, rfl, rfl⟩
  case read =>
    rintro ⟨pre, hShortest, rfl, rfl⟩
    obtain ⟨found, hSeek, hTexts⟩ := Cut.exists_seek_of_isShortest hShortest state.span
    rw [← hTexts]
    exact fragment_of_seek hSeek
  case failed =>
    rintro ⟨next, hFragment⟩
    rw [← Cut.seek_eq_error_iff]
    cases hSeek : (cut state.reader.before state.rest).seek stops angle state.span with
    | error other =>
      obtain ⟨next, hError⟩ := fragment_of_seek_error hSeek
      rw [hError] at hFragment
      cases hFragment
      rfl
    | ok pre =>
      obtain ⟨le, hFound⟩ := fragment_of_seek hSeek
      rw [hFound] at hFragment
      cases hFragment
  case fault => exact fun h => fragment_of_seek_error (Cut.seek_eq_error_iff.2 h)

end ReadState

end TreeGrammar
