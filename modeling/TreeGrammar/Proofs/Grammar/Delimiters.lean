import TreeGrammar.Grammar.Lexical

/-!
# Delimiters in code

Code is passed in parts: a literal or comment, an arrow, or any other character. Only characters
open and close delimiters. While code is passed, what is open is kept in a stack; here this is
compared with the code that has been passed: all delimiters of code are closed if it is made of
characters that are no delimiters and of pairs of delimiters around such code, and what is open
after some code is what is missing there.

## Main definitions

* `CodePart`: a part of code
* `Closed`: all delimiters of code are closed
* `Nested`: what is open after code
* `Nesting.through`: the nesting that is computed

## Main results

* `Closed.through_eq`: nothing is open after code whose delimiters are closed
* `Nested.past`: what is computed is what is open
-/

namespace TreeGrammar

/-- A part of Rust code that is passed at once. -/
inductive CodePart where
  /-- A literal or comment. -/
  | literal (text : List Char)
  /-- The characters `->`, the second of which neither closes nor ends anything. -/
  | arrow
  | char (c : Char)

namespace CodePart

/-- The characters of a part. -/
def text : CodePart → List Char
  | literal text => text
  | arrow => ['-', '>']
  | char c => [c]

/-- The first character of a part, unless it belongs to a literal or comment. -/
def head? : CodePart → Option Char
  | literal _ => none
  | arrow => some '-'
  | char c => some c

theorem exists_text_of_head? (part : CodePart) {c : Char} (h : part.head? = some c) :
    ∃ more, part.text = c :: more := by
  cases part with
  | literal => cases h
  | arrow | char =>
    obtain rfl := Option.some.inj h
    exact ⟨_, rfl⟩

/-- The characters of parts. -/
def texts (parts : List CodePart) : List Char := parts.flatMap text

@[simp] theorem texts_nil : texts [] = [] := rfl

@[simp] theorem texts_cons (part : CodePart) (parts : List CodePart) :
    texts (part :: parts) = part.text ++ texts parts := rfl

@[simp] theorem texts_append (parts more : List CodePart) :
    texts (parts ++ more) = texts parts ++ texts more :=
  List.flatMap_append

end CodePart

open CodePart (texts)

/-! ### Code whose delimiters are closed -/

/-- The delimiters that open a pair. -/
def openings : List Char := ['(', '[', '\x7b']

/-- The delimiters that close a pair. -/
def closings : List Char := [')', ']', '\x7d']

/-- The part neither is a delimiter nor, if angle brackets count, opens one. -/
def CodePart.IsPlain (angle : Bool) (part : CodePart) : Prop :=
  ∀ c, part = .char c → c ∉ openings ∧ c ∉ closings ∧ ¬ (angle = true ∧ c = '<')

/-- All delimiters are closed, and all angle brackets outside of them if `angle` is set. There may be
more angle brackets that close something. -/
inductive Closed : Bool → List CodePart → Prop where
  | nil {angle : Bool} : Closed angle []
  | plain {angle : Bool} {part : CodePart} {parts : List CodePart} (hPart : part.IsPlain angle)
      (h : Closed angle parts) : Closed angle (part :: parts)
  | pair {angle : Bool} {opening : Char} {inner parts : List CodePart}
      (hOpening : opening ∈ openings) (hInner : Closed false inner) (h : Closed angle parts) :
      Closed angle (.char opening :: inner ++ .char (Nesting.closing opening) :: parts)
  | angles {inner parts : List CodePart} (hInner : Closed true inner) (h : Closed true parts) :
      Closed true (.char '<' :: inner ++ .char '>' :: parts)

theorem CodePart.isPlain_char {angle : Bool} {c : Char} (hOpening : c ∉ openings)
    (hClosing : c ∉ closings) (hLess : ¬ (angle = true ∧ c = '<')) : (char c).IsPlain angle := by
  rintro _ ⟨⟩
  exact ⟨hOpening, hClosing, hLess⟩

theorem closing_mem_closings (opening : Char) : Nesting.closing opening ∈ closings := by
  unfold Nesting.closing
  split <;> decide

theorem not_mem_closings_of_mem_openings {c : Char} (h : c ∈ openings) : c ∉ closings := by
  simp only [openings, List.mem_cons, List.not_mem_nil, or_false] at h
  rcases h with rfl | rfl | rfl <;> decide

namespace Closed

variable {angle : Bool} {parts more inner : List CodePart}

theorem append (h : Closed angle parts) (hMore : Closed angle more) :
    Closed angle (parts ++ more) := by
  induction h with
  | nil => exact hMore
  | plain hPart _ ih => exact .plain hPart (ih hMore)
  | pair hOpening hInner _ _ ih =>
    rw [List.append_assoc]
    exact .pair hOpening hInner (ih hMore)
  | angles hInner _ _ ih =>
    rw [List.append_assoc]
    exact .angles hInner (ih hMore)

theorem singleton {part : CodePart} (h : part.IsPlain angle) : Closed angle [part] := .plain h .nil

theorem ofPair {opening : Char} (hOpening : opening ∈ openings) (hInner : Closed false inner) :
    Closed angle (.char opening :: inner ++ [.char (Nesting.closing opening)]) :=
  .pair hOpening hInner .nil

/-- Delimiters are closed, whether angle brackets count or not. -/
theorem forget (h : Closed angle parts) : Closed false parts := by
  induction h with
  | nil => exact .nil
  | plain hPart _ ih =>
    refine .plain (fun c hc => ?_) ih
    obtain ⟨hOpening, hClosing, -⟩ := hPart c hc
    exact ⟨hOpening, hClosing, by simp⟩
  | pair hOpening hInner _ _ ih => exact .pair hOpening hInner ih
  | angles _ _ ihInner ih =>
    exact .plain (CodePart.isPlain_char (by decide) (by decide) (by simp))
      (ihInner.append (.plain (CodePart.isPlain_char (by decide) (by decide) (by simp)) ih))

end Closed

/-! ### One character -/

namespace Nesting

variable {nesting next : Nesting} {angle : Bool} {c : Char} {place : Span}

theorem isOpening_iff : (c = '(' || c = '[' || c = '\x7b') = true ↔ c ∈ openings := by
  simp [openings, or_assoc]

theorem isClosing_iff : (c = ')' || c = ']' || c = '\x7d') = true ↔ c ∈ closings := by
  simp [closings, or_assoc]

theorem after_opening (h : c ∈ openings) :
    nesting.after angle c place = .ok { nesting with opened := (c, place) :: nesting.opened } := by
  rw [after, if_pos (isOpening_iff.2 h)]

theorem after_closing_nil (h : c ∈ closings) (hOpened : nesting.opened = []) :
    nesting.after angle c place = .error (.unbalancedDelimiter c) := by
  have hOpening : c ∉ openings := fun hMem => not_mem_closings_of_mem_openings hMem h
  rw [after, if_neg (mt isOpening_iff.1 hOpening), if_pos (isClosing_iff.2 h), hOpened]

theorem after_closing_cons (h : c ∈ closings) {opening : Char} {opened : Span}
    {outer : List (Char × Span)} (hOpened : nesting.opened = (opening, opened) :: outer) :
    nesting.after angle c place =
      if closing opening = c then .ok { nesting with opened := outer }
      else .error (.mismatchedDelimiter c opened (closing opening)) := by
  have hOpening : c ∉ openings := fun hMem => not_mem_closings_of_mem_openings hMem h
  rw [after, if_neg (mt isOpening_iff.1 hOpening), if_pos (isClosing_iff.2 h), hOpened]

/-- The number of open angle brackets after a character that is no delimiter. -/
def anglesAfter (nesting : Nesting) (angle : Bool) (c : Char) : Nat :=
  if angle && nesting.opened.isEmpty then
    if c = '<' then nesting.angles + 1 else if c = '>' then nesting.angles - 1 else nesting.angles
  else nesting.angles

theorem after_other (hOpening : c ∉ openings) (hClosing : c ∉ closings) :
    nesting.after angle c place = .ok { nesting with angles := nesting.anglesAfter angle c } := by
  rw [after, if_neg (mt isOpening_iff.1 hOpening), if_neg (mt isClosing_iff.1 hClosing),
    anglesAfter]
  split
  · split
    · rfl
    · split <;> rfl
  · rfl

theorem anglesAfter_congr {other : Nesting} (hOpened : other.opened.isEmpty = nesting.opened.isEmpty)
    (hAngles : other.angles = nesting.angles) :
    other.anglesAfter angle c = nesting.anglesAfter angle c := by
  rw [anglesAfter, anglesAfter, hOpened, hAngles]

/-- All that a character can do to the delimiters that are open. -/
inductive Takes (nesting : Nesting) (angle : Bool) (c : Char) (place : Span) :
    Except SyntaxError.Cause Nesting → Prop where
  | opening (hOpening : c ∈ openings) :
      Takes nesting angle c place
        (.ok { nesting with opened := (c, place) :: nesting.opened })
  | closing {opening : Char} {opened : Span} {outer : List (Char × Span)} (hClosing : c ∈ closings)
      (hOpened : nesting.opened = (opening, opened) :: outer) (hMatch : closing opening = c) :
      Takes nesting angle c place (.ok { nesting with opened := outer })
  | unbalanced (hClosing : c ∈ closings) (hOpened : nesting.opened = []) :
      Takes nesting angle c place (.error (.unbalancedDelimiter c))
  | mismatched {opening : Char} {opened : Span} {outer : List (Char × Span)}
      (hClosing : c ∈ closings) (hOpened : nesting.opened = (opening, opened) :: outer)
      (hMismatch : closing opening ≠ c) :
      Takes nesting angle c place (.error (.mismatchedDelimiter c opened (closing opening)))
  | other (hOpening : c ∉ openings) (hClosing : c ∉ closings) :
      Takes nesting angle c place (.ok { nesting with angles := nesting.anglesAfter angle c })

theorem takes_of_after {result : Except SyntaxError.Cause Nesting}
    (h : nesting.after angle c place = result) : nesting.Takes angle c place result := by
  subst h
  by_cases hOpening : c ∈ openings
  · rw [after_opening hOpening]
    exact .opening hOpening
  by_cases hClosing : c ∈ closings
  · cases hOpened : nesting.opened with
    | nil =>
      rw [after_closing_nil hClosing hOpened]
      exact .unbalanced hClosing hOpened
    | cons delimiter outer =>
      rw [after_closing_cons hClosing hOpened]
      split
      · next hMatch => exact .closing hClosing hOpened hMatch
      · next hMismatch => exact .mismatched hClosing hOpened hMismatch
  · rw [after_other hOpening hClosing]
    exact .other hOpening hClosing

/-! ### Parts of code -/

/-- The nesting after a part of code, which stands at `place`. -/
def past (nesting : Nesting) (angle : Bool) (place : Span) :
    CodePart → Except SyntaxError.Cause Nesting
  | .literal _ | .arrow => .ok nesting
  | .char c => nesting.after angle c place

/-- The nesting after parts of code, which stand at `place`. -/
def through (nesting : Nesting) (angle : Bool) (place : Span) :
    List CodePart → Except SyntaxError.Cause Nesting
  | [] => .ok nesting
  | part :: parts =>
    (nesting.past angle place part).bind fun next =>
      next.through angle (place.advance part.text) parts

/-- Parts are passed one by one. -/
theorem through_cons_eq_ok {part : CodePart} {parts : List CodePart} :
    nesting.through angle place (part :: parts) = .ok next ↔
      ∃ inside, nesting.past angle place part = .ok inside ∧
        inside.through angle (place.advance part.text) parts = .ok next := by
  rw [through]
  cases nesting.past angle place part <;> simp [Except.bind]

theorem through_append (front back : List CodePart) :
    nesting.through angle place (front ++ back) =
      (nesting.through angle place front).bind fun next =>
        next.through angle (place.advance (texts front)) back := by
  induction front generalizing nesting place with
  | nil => rfl
  | cons part front ih =>
    rw [List.cons_append, through, through]
    cases nesting.past angle place part with
    | error cause => rfl
    | ok next =>
      rw [CodePart.texts_cons, Span.advance_append]
      exact ih

/-- A part that is plain may close angle brackets, but nothing else. -/
theorem past_plain (angle : Bool) (nesting : Nesting) (place : Span) {part : CodePart}
    (h : part.IsPlain (angle && nesting.opened.isEmpty)) :
    ∃ angles ≤ nesting.angles, nesting.past angle place part = .ok { nesting with angles } ∧
      ((angle && nesting.opened.isEmpty) = false → angles = nesting.angles) := by
  cases part with
  | literal | arrow => exact ⟨_, Nat.le_refl _, rfl, fun _ => rfl⟩
  | char c =>
    obtain ⟨hOpening, hClosing, hLess⟩ := h c rfl
    refine ⟨nesting.anglesAfter angle c, ?_, after_other hOpening hClosing, fun hCounts => ?_⟩
    · rw [anglesAfter]
      split
      · next hCounts =>
        rw [if_neg fun hc => hLess ⟨hCounts, hc⟩]
        split
        · exact Nat.sub_le ..
        · exact Nat.le_refl _
      · exact Nat.le_refl _
    · rw [anglesAfter, if_neg (by simp [hCounts])]

theorem counts_eq_false (hOpened : nesting.opened ≠ []) :
    (angle && nesting.opened.isEmpty) = false := by
  rw [List.isEmpty_eq_false_iff.2 hOpened, Bool.and_false]

/-- A pair of delimiters is passed if the code between them leaves open what is open there. -/
theorem through_pair (nesting : Nesting) {opening : Char} {inner : List CodePart}
    (hOpening : opening ∈ openings)
    (hInner : ∀ inside : Nesting, inside.opened ≠ [] → ∀ later,
      inside.through angle later inner = .ok inside) (place : Span) (parts : List CodePart) :
    ∃ later, nesting.through angle place
        (.char opening :: inner ++ .char (closing opening) :: parts) =
      nesting.through angle later parts := by
  rw [List.cons_append, through, past, after_opening hOpening]
  dsimp only [Except.bind]
  rw [through_append, hInner _ (List.cons_ne_nil _ _)]
  dsimp only [Except.bind]
  rw [through, past, after_closing_cons (closing_mem_closings opening) rfl, if_pos rfl]
  exact ⟨_, rfl⟩

end Nesting

/-! ### Closed code leaves nothing open -/

namespace Closed

variable {angle : Bool} {parts : List CodePart} {nesting : Nesting} {place : Span}

/-- Where angle brackets do not count, closed code changes nothing. -/
theorem through_eq (h : Closed false parts)
    (hCounts : (angle && nesting.opened.isEmpty) = false) (place : Span) :
    nesting.through angle place parts = .ok nesting := by
  -- the code of a pair is passed with one more delimiter open, where angle brackets do not count
  generalize hFlag : false = flag at h
  induction h generalizing nesting place with
  | nil => rfl
  | plain hPart _ ih =>
    obtain ⟨angles, -, hPast, hSame⟩ := nesting.past_plain angle place
      (hCounts.trans hFlag ▸ hPart)
    obtain rfl := hSame hCounts
    rw [Nesting.through, hPast]
    exact ih hCounts _ hFlag
  | @pair _ opening inner parts hOpening hInner _ ihInner ih =>
    have hInside : ∀ inside : Nesting, inside.opened ≠ [] → ∀ later,
        inside.through angle later inner = .ok inside :=
      fun inside hOpened later => ihInner (Nesting.counts_eq_false hOpened) later rfl
    obtain ⟨later, hLater⟩ := nesting.through_pair hOpening hInside place parts
    rw [hLater]
    exact ih hCounts later hFlag
  | angles => cases hFlag

/-- Where angle brackets count, closed code may close more of them. -/
theorem through_angles (h : Closed true parts) (count : Nat) (place : Span) :
    ∃ angles ≤ count, Nesting.through ⟨[], count⟩ true place parts = .ok ⟨[], angles⟩ := by
  generalize hFlag : true = flag at h
  induction h generalizing count place with
  | nil => exact ⟨count, Nat.le_refl _, rfl⟩
  | plain hPart _ ih =>
    subst hFlag
    obtain ⟨angles, hLe, hPast, -⟩ :=
      Nesting.past_plain true ⟨[], count⟩ place hPart
    obtain ⟨fewer, hFewer, hThrough⟩ := ih angles (place.advance _) rfl
    refine ⟨fewer, Nat.le_trans hFewer hLe, ?_⟩
    rw [Nesting.through, hPast]
    exact hThrough
  | @pair _ opening inner parts hOpening hInner _ _ ih =>
    subst hFlag
    have hInside : ∀ inside : Nesting, inside.opened ≠ [] → ∀ later,
        inside.through true later inner = .ok inside :=
      fun inside hOpened later => hInner.through_eq (Nesting.counts_eq_false hOpened) later
    obtain ⟨later, hLater⟩ := Nesting.through_pair ⟨[], count⟩ hOpening hInside place parts
    rw [hLater]
    exact ih count later rfl
  | @angles inner parts _ _ ihInner ih =>
    -- the bracket is closed by the one behind it, or has been closed before
    obtain ⟨inside, hInside, hInner⟩ := ihInner (count + 1) (place.advance ['<']) rfl
    have hLess : Nesting.after ⟨[], count⟩ true '<' place = .ok ⟨[], count + 1⟩ :=
      Nesting.after_other (by decide) (by decide)
    have hGreater : ∀ later, Nesting.after ⟨[], inside⟩ true '>' later = .ok ⟨[], inside - 1⟩ :=
      fun later => Nesting.after_other (by decide) (by decide)
    obtain ⟨angles, hLe, hParts⟩ :=
      ih (inside - 1) (((place.advance ['<']).advance (texts inner)).advance ['>']) rfl
    refine ⟨angles, Nat.le_trans hLe (Nat.sub_le_of_le_add hInside), ?_⟩
    rw [List.cons_append, Nesting.through, Nesting.past, hLess]
    dsimp only [Except.bind]
    rw [Nesting.through_append, CodePart.text, hInner]
    dsimp only [Except.bind]
    rw [Nesting.through, Nesting.past, hGreater]
    exact hParts

/-- Nothing is open after closed code. -/
theorem through_empty (h : Closed angle parts) (place : Span) :
    Nesting.through {} angle place parts = .ok {} := by
  cases angle with
  | false => exact h.through_eq rfl place
  | true =>
    obtain ⟨angles, hLe, hThrough⟩ := h.through_angles 0 place
    obtain rfl := Nat.le_zero.1 hLe
    exact hThrough

end Closed

/-! ### What is open after code -/

/-- What is open after code, which stands at `start`: the delimiters that are not closed, and the
angle brackets that are not closed outside of them. -/
inductive Nested (angle : Bool) (start : Span) : List CodePart → Nesting → Prop where
  | closed {parts : List CodePart} (h : Closed angle parts) : Nested angle start parts {}
  | angles {outer inner : List CodePart} {count : Nat} (hAngle : angle = true)
      (h : Nested angle start outer ⟨[], count⟩) (hInner : Closed true inner) :
      Nested angle start (outer ++ .char '<' :: inner) ⟨[], count + 1⟩
  | delimiter {outer inner : List CodePart} {opening : Char} {nesting : Nesting}
      (h : Nested angle start outer nesting) (hOpening : opening ∈ openings)
      (hInner : Closed false inner) :
      Nested angle start (outer ++ .char opening :: inner)
        { nesting with opened := (opening, start.advance (texts outer)) :: nesting.opened }

namespace Nested

variable {angle : Bool} {start : Span} {parts more : List CodePart} {nesting next : Nesting}

/-- Closed code that follows leaves open what is open. -/
theorem append (h : Nested angle start parts nesting)
    (hMore : Closed (angle && nesting.opened.isEmpty) more) :
    Nested angle start (parts ++ more) nesting := by
  cases h with
  | closed h =>
    rw [show (angle && List.isEmpty []) = angle from Bool.and_true angle] at hMore
    exact .closed (h.append hMore)
  | angles hAngle h hInner =>
    subst hAngle
    rw [List.append_assoc, List.cons_append]
    exact .angles rfl h (hInner.append hMore)
  | delimiter h hOpening hInner =>
    rw [Nesting.counts_eq_false (List.cons_ne_nil _ _)] at hMore
    rw [List.append_assoc, List.cons_append]
    exact .delimiter h hOpening (hInner.append hMore)

theorem closed_of_isEmpty (h : Nested angle start parts nesting) (hEmpty : nesting.isEmpty) :
    Closed angle parts := by
  cases h with
  | closed h => exact h
  | angles => simp [Nesting.isEmpty] at hEmpty
  | delimiter => simp [Nesting.isEmpty] at hEmpty

/-- The innermost open delimiter. -/
theorem exists_of_opened (h : Nested angle start parts nesting) {opening : Char} {place : Span}
    {opened : List (Char × Span)} (hOpened : nesting.opened = (opening, place) :: opened) :
    ∃ outer inner, parts = outer ++ .char opening :: inner ∧ opening ∈ openings ∧
      Closed false inner ∧ place = start.advance (texts outer) ∧
      Nested angle start outer { nesting with opened } := by
  cases h with
  | closed | angles => cases hOpened
  | delimiter h hOpening hInner =>
    cases hOpened
    exact ⟨_, _, rfl, hOpening, hInner, rfl, h⟩

/-- The innermost open angle bracket. -/
theorem exists_of_angles {count : Nat} (h : Nested angle start parts ⟨[], count + 1⟩) :
    ∃ outer inner, parts = outer ++ .char '<' :: inner ∧ angle = true ∧ Closed true inner ∧
      Nested angle start outer ⟨[], count⟩ := by
  generalize hNesting : (⟨[], count + 1⟩ : Nesting) = nesting at h
  cases h with
  | closed | delimiter => cases hNesting
  | angles hAngle h hInner =>
    cases hNesting
    exact ⟨_, _, rfl, hAngle, hInner, h⟩

/-- A character that is no delimiter opens or closes an angle bracket at most. -/
theorem other {c : Char} (h : Nested angle start parts nesting) (hOpening : c ∉ openings)
    (hClosing : c ∉ closings) : Nested angle start (parts ++ [.char c])
      { nesting with angles := nesting.anglesAfter angle c } := by
  have hPlain (hLess : ¬ ((angle && nesting.opened.isEmpty) = true ∧ c = '<')) :
      Nested angle start (parts ++ [.char c]) nesting :=
    h.append (.singleton (CodePart.isPlain_char hOpening hClosing hLess))
  rw [Nesting.anglesAfter]
  split
  · next hCounts =>
    rw [Bool.and_eq_true, List.isEmpty_iff] at hCounts
    obtain ⟨rfl, hOpened⟩ := hCounts
    obtain ⟨opened, angles⟩ := nesting
    obtain rfl : opened = [] := hOpened
    split
    · next hLess =>
      subst hLess
      exact .angles rfl h .nil
    · next hLess =>
      split
      · next hGreater =>
        subst hGreater
        -- the code from the innermost open bracket on is closed now
        cases angles with
        | zero => exact hPlain (by simp)
        | succ count =>
          obtain ⟨outer, inner, rfl, -, hInner, hOuter⟩ := h.exists_of_angles
          rw [List.append_assoc]
          exact hOuter.append (.angles hInner .nil)
      · exact hPlain (by simp [hLess])
  · next hCounts => exact hPlain (by simp [hCounts])

/-- What is computed for one more part is what is open after it. -/
theorem past {part : CodePart} (h : Nested angle start parts nesting) {place : Span}
    (hPlace : place = start.advance (texts parts))
    (hPast : nesting.past angle place part = .ok next) :
    Nested angle start (parts ++ [part]) next := by
  subst hPlace
  cases part with
  | literal | arrow =>
    obtain rfl := Except.ok.inj hPast
    exact h.append (.singleton (by rintro c ⟨⟩))
  | char c =>
    rw [Nesting.past] at hPast
    cases Nesting.takes_of_after hPast with
    | opening hOpening => exact .delimiter h hOpening .nil
    | closing hClosing hOpened hMatch =>
      -- the code from the innermost open delimiter on is closed now
      obtain ⟨outer, inner, rfl, hMem, hInner, -, hOuter⟩ := h.exists_of_opened hOpened
      subst hMatch
      rw [List.append_assoc]
      exact hOuter.append (.ofPair hMem hInner)
    | other hOpening hClosing => exact h.other hOpening hClosing

/-- The delimiters that are open, whether angle brackets count or not. -/
theorem forget (h : Nested angle start parts nesting) :
    Nested false start parts { opened := nesting.opened } := by
  induction h with
  | closed h => exact .closed h.forget
  | angles _ _ hInner ih =>
    exact ih.append (.plain (CodePart.isPlain_char (by decide) (by decide) (by simp)) hInner.forget)
  | delimiter _ hOpening hInner ih => exact .delimiter ih hOpening hInner

end Nested

/-- Nothing is wrong with the delimiters so far: they can be closed. -/
def Viable (parts : List CodePart) : Prop := ∃ more, Closed false (parts ++ more)

theorem Nested.viable {angle : Bool} {start : Span} {parts : List CodePart} {nesting : Nesting}
    (h : Nested angle start parts nesting) : Viable parts := by
  have hForget := h.forget
  generalize nesting.opened = opened at hForget
  clear h
  -- the delimiters that are open are closed from the innermost one on
  induction opened generalizing parts with
  | nil => exact ⟨[], by rw [List.append_nil]; exact hForget.closed_of_isEmpty rfl⟩
  | cons delimiter opened ih =>
    obtain ⟨opening, place⟩ := delimiter
    obtain ⟨outer, inner, rfl, hOpening, hInner, -, hOuter⟩ := hForget.exists_of_opened rfl
    obtain ⟨more, hMore⟩ := ih (hOuter.append (.ofPair hOpening hInner))
    exact ⟨.char (Nesting.closing opening) :: more, by simpa using hMore⟩

/-! ### The computation goes through -/

namespace Nesting

variable {nesting next : Nesting} {place : Span} {parts : List CodePart}

/-- The delimiters that are open do not depend on angle brackets. -/
theorem past_opened {part : CodePart} (h : nesting.past false place part = .ok next)
    (angle : Bool) (count : Nat) : ∃ angles,
      past ⟨nesting.opened, count⟩ angle place part = .ok ⟨next.opened, angles⟩ := by
  cases part with
  | literal | arrow =>
    obtain rfl := Except.ok.inj h
    exact ⟨count, rfl⟩
  | char c =>
    rw [past] at h ⊢
    cases takes_of_after h with
    | opening hOpening => exact ⟨count, after_opening hOpening⟩
    | closing hClosing hOpened hMatch =>
      have hSame : (⟨nesting.opened, count⟩ : Nesting).opened = _ := hOpened
      exact ⟨count, (after_closing_cons hClosing hSame).trans (if_pos hMatch)⟩
    | other hOpening hClosing => exact ⟨_, after_other hOpening hClosing⟩

theorem through_opened (h : nesting.through false place parts = .ok next) (angle : Bool)
    (count : Nat) : ∃ angles,
      through ⟨nesting.opened, count⟩ angle place parts = .ok ⟨next.opened, angles⟩ := by
  induction parts generalizing nesting place count with
  | nil =>
    obtain rfl := Except.ok.inj h
    exact ⟨count, rfl⟩
  | cons part parts ih =>
    obtain ⟨inside, hPast, hMore⟩ := through_cons_eq_ok.1 h
    obtain ⟨angles, hAngles⟩ := past_opened hPast angle count
    obtain ⟨last, hLast⟩ := ih hMore angles
    exact ⟨last, through_cons_eq_ok.2 ⟨_, hAngles, hLast⟩⟩

end Nesting

variable {parts inner : List CodePart}

/-- After closed code no delimiter is open, even if angle brackets are not closed. -/
theorem Closed.through_opened (h : Closed false parts) (angle : Bool) (place : Span) :
    ∃ angles, Nesting.through {} angle place parts = .ok ⟨[], angles⟩ :=
  Nesting.through_opened (h.through_empty place) angle 0

/-- Code is passed if nothing is wrong with its delimiters. -/
theorem Viable.exists_through (h : Viable parts) (angle : Bool) (place : Span) :
    ∃ nesting, Nesting.through {} angle place parts = .ok nesting := by
  obtain ⟨more, hMore⟩ := h
  have hThrough := hMore.through_empty place
  rw [Nesting.through_append] at hThrough
  cases hParts : Nesting.through {} false place parts with
  | error cause =>
    rw [hParts] at hThrough
    cases hThrough
  | ok inside =>
    obtain ⟨angles, hAngles⟩ := Nesting.through_opened hParts angle 0
    exact ⟨_, hAngles⟩

/-- An open delimiter stays open while code in it is passed. -/
theorem Viable.exists_through_opening {opening : Char} (h : Viable parts)
    (hOpening : opening ∈ openings) (hInner : Closed false inner) (angle : Bool) (place : Span) :
    ∃ nesting : Nesting, Nesting.through {} angle place (parts ++ .char opening :: inner) = .ok
      { nesting with opened := (opening, place.advance (texts parts)) :: nesting.opened } := by
  obtain ⟨nesting, hNesting⟩ := h.exists_through angle place
  refine ⟨nesting, ?_⟩
  rw [Nesting.through_append, hNesting]
  dsimp only [Except.bind]
  rw [Nesting.through, Nesting.past, Nesting.after_opening hOpening]
  exact hInner.through_eq (Nesting.counts_eq_false (List.cons_ne_nil _ _)) _

end TreeGrammar
