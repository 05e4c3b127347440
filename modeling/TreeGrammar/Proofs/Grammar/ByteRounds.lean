import TreeGrammar.Grammar.Reference
import TreeGrammar.Proofs.Grammar.ByteScan
import TreeGrammar.Proofs.Grammar.CodeEnds
import TreeGrammar.Proofs.Grammar.Recovery

/-!
# Rounds over the bytes of a text

Every loop over the bytes of a text steps over a literal, a character or a name in each of its
rounds. Seen by characters, a round stands behind some of them and goes on behind more of them, or
ends. So a loop that starts between characters stays there, and each of its rounds begins behind the
one before it.

## Main definitions

* `ByteScan.Advances`: every round of a loop makes progress
* `ByteScan.placeBehind`: the place behind some characters

## Main results

* `ByteScan.triviaRound_advances`, `ByteScan.codeRound_advances`, `ByteScan.recoveryRound_advances`,
  `ByteScan.markersRound_advances`: the loops that step over literals make progress
-/

namespace TreeGrammar

namespace ByteScan

open Literal Text

variable {text front passed after rest : List Char} {span : Span} {limit : Nat} {c : Char}

/-! ### Loops that make progress -/

section Progress

variable {σ ρ : Type} {offset : σ → Nat} {round : σ → Option (σ ⊕ ρ)} {state : σ}

/-- A round of a loop over a text yields something, and if it goes on, then at a place between
characters that is behind the given one. -/
def GoesBehind (text : List Char) (offset : σ → Nat) (here : Nat) (attempt : Option (σ ⊕ ρ)) :
    Prop :=
  ∃ outcome, attempt = some outcome ∧
    ∀ next, outcome = .inl next → here < offset next ∧ IsBoundary text (offset next)

/-- Every round of a loop over a text makes progress. -/
def Advances (text : List Char) (offset : σ → Nat) (round : σ → Option (σ ⊕ ρ)) : Prop :=
  ∀ state, IsBoundary text (offset state) → GoesBehind text offset (offset state) (round state)

theorem goesBehind_of_result {here : Nat} (result : ρ) :
    GoesBehind text offset here (some (.inr result)) :=
  ⟨_, rfl, by rintro next ⟨⟩⟩

theorem goesBehind_of_next (hText : text = front ++ rest) (hRest : rest = passed ++ after)
    (hPassed : passed ≠ []) (hState : offset state = byteSize (front ++ passed)) :
    GoesBehind text offset (byteSize front) (some (.inl state) : Option (σ ⊕ ρ)) := by
  refine ⟨_, rfl, ?_⟩
  rintro next ⟨⟩
  rw [hState, hText, hRest, ← List.append_assoc]
  refine ⟨?_, isBoundary_append _ _⟩
  rw [byteSize_append]
  exact Nat.lt_add_of_pos_right (byteSize_pos hPassed)

theorem goesBehind_of_char (hText : text = front ++ rest) (hRest : rest = c :: after)
    (hState : offset state = byteSize (front ++ [c])) :
    GoesBehind text offset (byteSize front) (some (.inl state) : Option (σ ⊕ ρ)) :=
  goesBehind_of_next hText (hRest : rest = [c] ++ after) (List.cons_ne_nil _ _) hState

end Progress

/-! ### Places -/

/-- The place behind some characters at the start of a text. -/
def placeBehind (front : List Char) (span : Span) : Place := ⟨byteSize front, span⟩

section Places

variable (span : Span) (hText : text = front ++ rest)
include hText

theorem rest?_eq : (placeBehind front span).rest? text = some rest := by
  rw [hText]
  exact dropBytes?_append front rest

theorem moveTo_eq {stop : Nat} (hRest : rest = passed ++ after)
    (hStop : stop = byteSize front + byteSize passed) :
    (placeBehind front span).moveTo text stop =
      some (placeBehind (front ++ passed) (span.advance passed)) := by
  rw [hText, hRest, hStop, placeBehind, placeBehind, byteSize_append, Place.moveTo, slice?_append]
  rfl

theorem bump_eq (hRest : rest = c :: after) :
    (placeBehind front span).bump text = some (placeBehind (front ++ [c]) (span.next c)) := by
  rw [Place.bump, rest?_eq span hText, hRest]
  exact moveTo_eq span hText (hRest : rest = [c] ++ after) rfl

theorem literalEnd_of_closed (hLimit : text.length < limit) (hRest : rest = passed ++ after)
    (h : literalLength front.reverse rest = .ok (some passed.length)) :
    literalEnd limit text (byteSize front) =
      some (.ok (some (byteSize front + byteSize passed))) := by
  subst hText
  rw [literalEnd_append hLimit, h, hRest]
  simp [Except.map]

theorem literalEnd_of_none (hLimit : text.length < limit)
    (h : literalLength front.reverse rest = .ok none) :
    literalEnd limit text (byteSize front) = some (.ok none) := by
  subst hText
  rw [literalEnd_append hLimit, h]
  rfl

theorem literalEnd_of_open {kind : Literal} (hLimit : text.length < limit)
    (h : literalLength front.reverse rest = .error kind) :
    literalEnd limit text (byteSize front) = some (.error kind) := by
  subst hText
  rw [literalEnd_append hLimit, h]
  rfl

end Places

/-- A literal that is measured is there as a whole, and is not empty. -/
theorem take_of_literalLength {before : List Char} {length : Nat}
    (h : literalLength before rest = .ok (some length)) :
    (rest.take length).length = length ∧ rest.take length ≠ [] := by
  have hTake : (rest.take length).length = length :=
    List.length_take_of_le (length_le_of_literalLength h)
  exact ⟨hTake, List.ne_nil_of_length_pos (hTake.symm ▸ literalLength_pos h)⟩

theorem exists_of_literalLength {before : List Char} {length : Nat}
    (h : literalLength before rest = .ok (some length)) :
    ∃ passed after, rest = passed ++ after ∧ passed ≠ [] ∧ length = passed.length := by
  obtain ⟨hTake, hPassed⟩ := take_of_literalLength h
  exact ⟨_, _, (List.take_append_drop length rest).symm, hPassed, hTake.symm⟩

/-! ### White space and comments -/

/-- A comment begins with two characters. -/
def StartsComment (text : List Char) : Prop :=
  ∃ more, text = '/' :: '/' :: more ∨ text = '/' :: '*' :: more

theorem startsComment_cons_iff : StartsComment (c :: rest) ↔
    c = '/' ∧ (rest.head? = some '/' ∨ rest.head? = some '*') := by
  constructor
  · rintro ⟨more, h | h⟩
    · obtain ⟨rfl, rfl⟩ := List.cons.inj h
      exact ⟨rfl, .inl rfl⟩
    · obtain ⟨rfl, rfl⟩ := List.cons.inj h
      exact ⟨rfl, .inr rfl⟩
  · rintro ⟨rfl, hHead | hHead⟩
    · obtain ⟨more, rfl⟩ := List.head?_eq_some_iff.1 hHead
      exact ⟨more, .inl rfl⟩
    · obtain ⟨more, rfl⟩ := List.head?_eq_some_iff.1 hHead
      exact ⟨more, .inr rfl⟩

section Trivia

variable (span : Span) (hText : text = front ++ rest)
include hText

theorem triviaRound_blank (hRest : rest = c :: after) (hBlank : isBlank c) :
    triviaRound limit text (placeBehind front span) =
      some (.inl (placeBehind (front ++ [c]) (span.next c))) := by
  rw [triviaRound, rest?_eq span hText, bump_eq span hText hRest, hRest]
  exact if_pos hBlank

/-- At a comment, everything depends on its end. -/
theorem triviaRound_comment (hComment : StartsComment rest) :
    triviaRound limit text (placeBehind front span) =
      (do
        match ← literalEnd limit text (byteSize front) with
        | .ok (some stop) => return .inl (← (placeBehind front span).moveTo text stop)
        | .ok none => return .inr (.ok (placeBehind front span))
        | .error kind =>
          return .inr (.error (⟨span, .unterminated kind⟩, placeBehind front span))) := by
  cases rest with
  | nil => simp [StartsComment] at hComment
  | cons c more =>
    have hHead := startsComment_cons_iff.1 hComment
    have hBlank : ¬ isBlank c := by
      rw [hHead.1]
      decide
    rw [triviaRound, rest?_eq span hText]
    exact (if_neg hBlank).trans (if_pos hHead)

theorem triviaRound_closed (hLimit : text.length < limit) (hComment : StartsComment rest)
    (hRest : rest = passed ++ after)
    (hLength : literalLength front.reverse rest = .ok (some passed.length)) :
    triviaRound limit text (placeBehind front span) =
      some (.inl (placeBehind (front ++ passed) (span.advance passed))) := by
  rw [triviaRound_comment span hText hComment, literalEnd_of_closed hText hLimit hRest hLength]
  show ((placeBehind front span).moveTo text _).bind _ = _
  rw [moveTo_eq span hText hRest rfl]
  rfl

theorem triviaRound_open {kind : Literal} (hLimit : text.length < limit)
    (hComment : StartsComment rest) (hLength : literalLength front.reverse rest = .error kind) :
    triviaRound limit text (placeBehind front span) =
      some (.inr (.error (⟨span, .unterminated kind⟩, placeBehind front span))) := by
  rw [triviaRound_comment span hText hComment, literalEnd_of_open hText hLimit hLength]
  rfl

theorem triviaRound_other (hBlank : ∀ c ∈ rest.head?, ¬ isBlank c)
    (hComment : ¬ StartsComment rest) :
    triviaRound limit text (placeBehind front span) =
      some (.inr (.ok (placeBehind front span))) := by
  rw [triviaRound, rest?_eq span hText]
  cases rest with
  | nil => rfl
  | cons c rest =>
    have hHead := mt startsComment_cons_iff.2 hComment
    exact (if_neg (hBlank c rfl)).trans (if_neg hHead)

end Trivia

theorem triviaRound_advances (hLimit : text.length < limit) :
    Advances text Place.offset (triviaRound limit text) := by
  rintro ⟨offset, span⟩ ⟨front, rest, hText, rfl⟩
  change GoesBehind text _ (byteSize front) (triviaRound limit text (placeBehind front span))
  by_cases hBlank : ∃ c after, rest = c :: after ∧ isBlank c
  · obtain ⟨c, after, hRest, hBlank⟩ := hBlank
    rw [triviaRound_blank span hText hRest hBlank]
    exact goesBehind_of_char hText hRest rfl
  · by_cases hComment : StartsComment rest
    · cases hLength : literalLength front.reverse rest with
      | error kind =>
        rw [triviaRound_open span hText hLimit hComment hLength]
        exact goesBehind_of_result _
      | ok length? =>
        cases length? with
        | none =>
          rw [triviaRound_comment span hText hComment, literalEnd_of_none hText hLimit hLength]
          exact goesBehind_of_result _
        | some length =>
          obtain ⟨passed, after, hRest, hPassed, rfl⟩ := exists_of_literalLength hLength
          rw [triviaRound_closed span hText hLimit hComment hRest hLength]
          exact goesBehind_of_next hText hRest hPassed rfl
    · rw [triviaRound_other span hText _ hComment]
      · exact goesBehind_of_result _
      · rintro c hc hBlank'
        obtain ⟨after, hRest⟩ := List.head?_eq_some_iff.1 hc
        exact hBlank ⟨c, after, hRest, hBlank'⟩

/-! ### Code -/

section Code

variable (stops : List Char) (angle : Bool) (start span : Span) (nesting : Nesting)
  (hText : text = front ++ rest)
include hText

theorem codeRound_nil {opening : Char} {place : Span} (hRest : rest = [])
    (hOpened : nesting.opened.head?.getD ('{', start) = (opening, place)) :
    codeRound limit text stops angle start (placeBehind front span, nesting) =
      some (.inr (.error
        (⟨place, .unclosedDelimiter (Nesting.closing opening)⟩, placeBehind front span))) := by
  rw [codeRound, rest?_eq span hText, hRest]
  simp only [Option.bind_eq_bind, Option.bind_some, hOpened]
  rfl

theorem codeRound_closed (hLimit : text.length < limit) (hRest : rest = passed ++ after)
    (hPassed : passed ≠ [])
    (hLength : literalLength front.reverse rest = .ok (some passed.length)) :
    codeRound limit text stops angle start (placeBehind front span, nesting) =
      some (.inl (placeBehind (front ++ passed) (span.advance passed), nesting)) := by
  obtain ⟨c, more, rfl⟩ := List.exists_cons_of_ne_nil hPassed
  have hEnd := literalEnd_of_closed hText hLimit hRest hLength
  have hMove := moveTo_eq span hText hRest rfl
  rw [codeRound, rest?_eq span hText, hRest]
  show (literalEnd limit text (byteSize front)).bind _ = _
  rw [hEnd]
  show ((placeBehind front span).moveTo text _).bind _ = _
  rw [hMove]
  rfl

theorem codeRound_open {kind : Literal} (hLimit : text.length < limit) (hRest : rest = c :: after)
    (hLength : literalLength front.reverse rest = .error kind) :
    codeRound limit text stops angle start (placeBehind front span, nesting) =
      some (.inr (.error (⟨span, .unterminated kind⟩, placeBehind front span))) := by
  have hEnd := literalEnd_of_open hText hLimit hLength
  rw [codeRound, rest?_eq span hText, hRest]
  show (literalEnd limit text (byteSize front)).bind _ = _
  rw [hEnd]
  rfl

theorem codeRound_none (hLimit : text.length < limit) (hRest : rest = c :: after)
    (hLength : literalLength front.reverse rest = .ok none) :
    codeRound limit text stops angle start (placeBehind front span, nesting) =
      if nesting.isEmpty && stops.contains c then some (.inr (.ok (placeBehind front span)))
      else
        let step := ReadState.codeStep rest
        match if step = 1 then nesting.after angle c span else .ok nesting with
        | .ok next =>
          some (.inl (placeBehind (front ++ rest.take step) (span.advance (rest.take step)), next))
        | .error cause => some (.inr (.error (⟨span, cause⟩, placeBehind front span))) := by
  have hEnd := literalEnd_of_none hText hLimit hLength
  have hBump := bump_eq span hText hRest
  rw [codeRound, rest?_eq span hText, hRest]
  show (literalEnd limit text (byteSize front)).bind _ = _
  rw [hEnd, Option.bind_some, hBump, codeStep_cons]
  by_cases hStop : (nesting.isEmpty && stops.contains c) = true
  · exact (if_pos hStop).trans (if_pos hStop).symm
  · refine (if_neg hStop).trans (Eq.trans ?_ (if_neg hStop).symm)
    by_cases hArrow : c = '-' ∧ after.head? = some '>'
    · obtain ⟨more, rfl⟩ := List.head?_eq_some_iff.1 hArrow.2
      have hBehind : text = front ++ [c] ++ '>' :: more := by
        rw [hText, hRest, List.append_assoc, List.singleton_append]
      have hBoth : front ++ [c] ++ ['>'] = front ++ [c, '>'] := by simp
      refine (if_pos hArrow).trans ?_
      show ((placeBehind (front ++ [c]) (span.next c)).bump text).bind _ = _
      rw [bump_eq _ hBehind rfl, hBoth]
      simp only [if_pos hArrow]
      rfl
    · refine (if_neg hArrow).trans ?_
      simp only [if_neg hArrow, if_true]
      show (match nesting.after angle c span with | .ok _ => _ | .error _ => _) = _
      cases nesting.after angle c span with
      | ok next => rfl
      | error cause => rfl

end Code

theorem codeRound_advances (stops : List Char) (angle : Bool) (start : Span)
    (hLimit : text.length < limit) :
    Advances text (fun state => state.1.offset) (codeRound limit text stops angle start) := by
  rintro ⟨⟨offset, span⟩, nesting⟩ ⟨front, rest, hText, rfl⟩
  change GoesBehind text _ (byteSize front)
    (codeRound limit text stops angle start (placeBehind front span, nesting))
  cases hRest : rest with
  | nil =>
    rw [codeRound_nil stops angle start span nesting hText hRest rfl]
    exact goesBehind_of_result _
  | cons c after =>
    cases hLength : literalLength front.reverse rest with
    | error kind =>
      rw [codeRound_open stops angle start span nesting hText hLimit hRest hLength]
      exact goesBehind_of_result _
    | ok length? =>
      cases length? with
      | some length =>
        obtain ⟨passed, after, hRest, hPassed, rfl⟩ := exists_of_literalLength hLength
        rw [codeRound_closed stops angle start span nesting hText hLimit hRest hPassed hLength]
        exact goesBehind_of_next hText hRest hPassed rfl
      | none =>
        rw [codeRound_none stops angle start span nesting hText hLimit hRest hLength]
        split
        · exact goesBehind_of_result _
        · dsimp only
          split
          · have hStep : rest.take (ReadState.codeStep rest) ≠ [] := by
              rw [hRest, codeStep_cons]
              split
              · exact List.cons_ne_nil _ _
              · exact List.cons_ne_nil _ _
            exact goesBehind_of_next hText (List.take_append_drop ..).symm hStep rfl
          · exact goesBehind_of_result _

/-! ### Recovery -/

section Recovery

variable (span : Span) (depth : Nat) (hText : text = front ++ rest)
include hText

theorem recoveryRound_nil (hRest : rest = []) :
    recoveryRound limit text (placeBehind front span, depth) =
      some (.inr (placeBehind front span)) := by
  rw [recoveryRound, rest?_eq span hText, hRest]
  rfl

theorem recoveryRound_closed (hLimit : text.length < limit) (hRest : rest = passed ++ after)
    (hPassed : passed ≠ [])
    (hLength : literalLength front.reverse rest = .ok (some passed.length)) :
    recoveryRound limit text (placeBehind front span, depth) =
      some (.inl (placeBehind (front ++ passed) (span.advance passed), depth)) := by
  obtain ⟨c, more, rfl⟩ := List.exists_cons_of_ne_nil hPassed
  have hEnd := literalEnd_of_closed hText hLimit hRest hLength
  have hMove := moveTo_eq span hText hRest rfl
  rw [recoveryRound, rest?_eq span hText, hRest]
  show (literalEnd limit text (byteSize front)).bind _ = _
  rw [hEnd]
  show ((placeBehind front span).moveTo text _).bind _ = _
  rw [hMove]
  rfl

/-- Where no literal is closed, a character is passed, and what it means depends on the braces that
are open. -/
theorem recoveryRound_char (hLimit : text.length < limit) (hRest : rest = c :: after)
    (hLength : ∀ length, literalLength front.reverse rest ≠ .ok (some length)) :
    recoveryRound limit text (placeBehind front span, depth) =
      let next := placeBehind (front ++ [c]) (span.next c)
      some (if c = ';' ∧ depth = 0 then .inr next else .inl (next, bracesAfter c depth)) := by
  have hBump := bump_eq span hText hRest
  have hEnd : ∃ outcome, literalEnd limit text (byteSize front) = some outcome ∧
      ∀ stop, outcome ≠ .ok (some stop) := by
    cases hFound : literalLength front.reverse rest with
    | error kind => exact ⟨_, literalEnd_of_open hText hLimit hFound, by simp⟩
    | ok length? =>
      cases length? with
      | none => exact ⟨_, literalEnd_of_none hText hLimit hFound, by simp⟩
      | some length => exact absurd hFound (hLength length)
  obtain ⟨outcome, hEnd, hOutcome⟩ := hEnd
  rw [recoveryRound, rest?_eq span hText, hRest]
  show (literalEnd limit text (byteSize front)).bind _ = _
  rw [hEnd, Option.bind_some, hBump]
  split
  · next stop => exact absurd rfl (hOutcome stop)
  · show (if c = '{' then some (Sum.inl (_, depth + 1)) else
      if c = '}' then some (.inl (_, depth - 1)) else
        if c = ';' ∧ depth = 0 then some (.inr _) else some (.inl (_, depth))) = _
    by_cases hOpening : c = '{'
    · simp [hOpening, bracesAfter]
    · by_cases hClosing : c = '}'
      · simp [hClosing, bracesAfter]
      · rw [if_neg hOpening, if_neg hClosing, bracesAfter, if_neg hOpening, if_neg hClosing]
        split
        · rfl
        · rfl

end Recovery

theorem recoveryRound_advances (hLimit : text.length < limit) :
    Advances text (fun state => state.1.offset) (recoveryRound limit text) := by
  rintro ⟨⟨offset, span⟩, depth⟩ ⟨front, rest, hText, rfl⟩
  change GoesBehind text _ (byteSize front)
    (recoveryRound limit text (placeBehind front span, depth))
  cases hRest : rest with
  | nil =>
    rw [recoveryRound_nil span depth hText hRest]
    exact goesBehind_of_result _
  | cons c after =>
    by_cases hClosed : ∃ length, literalLength front.reverse rest = .ok (some length)
    · obtain ⟨length, hLength⟩ := hClosed
      obtain ⟨passed, after, hRest, hPassed, rfl⟩ := exists_of_literalLength hLength
      rw [recoveryRound_closed span depth hText hLimit hRest hPassed hLength]
      exact goesBehind_of_next hText hRest hPassed rfl
    · rw [recoveryRound_char span depth hText hLimit hRest (not_exists.1 hClosed)]
      dsimp only
      split
      · exact goesBehind_of_result _
      · exact goesBehind_of_char hText hRest rfl

/-! ### Marks -/

section Marks

variable {fragment : Fragment} (found : List Marker)
  (hText : fragment.text.toList = front ++ rest)
include hText

omit hText in
theorem second_eq (c : Char) (after : List Char) : (c :: after)[1]? = after.head? := by
  rw [List.getElem?_cons_succ, List.head?_eq_getElem?]

theorem spanAt_eq : spanAt fragment (byteSize front) = some (fragment.span.advance front) := by
  have hLe : byteSize front ≤ byteSize (front ++ rest) := by
    rw [byteSize_append]
    exact Nat.le_add_right ..
  rw [spanAt, hText, Nat.min_eq_left hLe, takeBytes?_append]
  rfl

theorem markersRound_nil (hRest : rest = []) :
    markersRound limit fragment (byteSize front, found) = some (.inr found) := by
  rw [hRest, List.append_nil] at hText
  rw [markersRound, hText]
  exact if_neg (Nat.lt_irrefl _)

/-- In front of the end, the rest of the text decides. -/
theorem markersRound_cons (hRest : rest ≠ []) :
    byteSize front < byteSize fragment.text.toList := by
  rw [hText, byteSize_append]
  exact Nat.lt_add_of_pos_right (byteSize_pos hRest)

theorem markersRound_closed (hLimit : fragment.text.toList.length < limit)
    (hRest : rest = passed ++ after) (hPassed : passed ≠ [])
    (hLength : literalLength front.reverse rest = .ok (some passed.length)) :
    markersRound limit fragment (byteSize front, found) =
      some (.inl (byteSize (front ++ passed), found)) := by
  have hEnd := literalEnd_of_closed hText hLimit hRest hLength
  have hInside := markersRound_cons hText (by simp [hRest, hPassed])
  rw [markersRound]
  refine (if_pos hInside).trans ?_
  rw [hEnd, byteSize_append]
  rfl

theorem markersRound_open {kind : Literal} (hLimit : fragment.text.toList.length < limit)
    (hRest : rest = c :: after) (hLength : literalLength front.reverse rest = .error kind) :
    markersRound limit fragment (byteSize front, found) = some (.inr found) := by
  have hEnd := literalEnd_of_open hText hLimit hLength
  have hInside := markersRound_cons hText (by simp [hRest])
  rw [markersRound]
  refine (if_pos hInside).trans ?_
  rw [hEnd]
  rfl

theorem markersRound_reference (hLimit : fragment.text.toList.length < limit)
    (hRest : rest = '@' :: after) (hLength : literalLength front.reverse rest = .ok none)
    (hName : after.head?.any isIdentStart) :
    markersRound limit fragment (byteSize front, found) =
      let name := after.takeWhile isIdentChar
      let stop := byteSize (front ++ '@' :: name)
      some (.inl (stop, found ++
        [.reference ⟨String.ofList name, fragment.span.advance front⟩ (byteSize front) stop])) := by
  have hEnd := literalEnd_of_none hText hLimit hLength
  have hInside := markersRound_cons hText (by simp [hRest])
  have hDrop : dropBytes? fragment.text.toList (byteSize front) = some ('@' :: after) := by
    rw [hText, hRest]
    exact dropBytes?_append ..
  have hBehind : dropBytes? ('@' :: after) 1 = some after := dropBytes?_append ['@'] after
  have hSlice : slice? ('@' :: after) 1 (1 + byteSize (after.takeWhile isIdentChar)) =
      some (after.takeWhile isIdentChar) := by
    have hParts := slice?_append ['@'] (after.takeWhile isIdentChar) (after.dropWhile isIdentChar)
    rwa [List.takeWhile_append_dropWhile] at hParts
  have hStop : byteSize front + 1 + byteSize (after.takeWhile isIdentChar) =
      byteSize (front ++ '@' :: after.takeWhile isIdentChar) := by
    rw [byteSize_append, byteSize_cons, Nat.add_assoc]
    rfl
  rw [markersRound]
  refine (if_pos hInside).trans ?_
  simp only [hEnd, hDrop, Option.bind_eq_bind, Option.bind_some, second_eq]
  refine (if_pos ⟨rfl, hName⟩).trans ?_
  simp only [hBehind, hSlice, spanAt_eq hText, hStop, Option.bind_some]
  rfl

theorem markersRound_other (hLimit : fragment.text.toList.length < limit)
    (hRest : rest = c :: after) (hLength : literalLength front.reverse rest = .ok none)
    (hOther : ¬ (c = '@' ∧ after.head?.any isIdentStart)) :
    markersRound limit fragment (byteSize front, found) = some (.inl (byteSize (front ++ [c]),
      if c = '@' ∧ ¬ (front.reverse.dropWhile isBlank).head?.any isIdentChar then
        found ++ [.stray (fragment.span.advance front)]
      else found)) := by
  have hEnd := literalEnd_of_none hText hLimit hLength
  have hInside := markersRound_cons hText (by simp [hRest])
  have hDrop : dropBytes? fragment.text.toList (byteSize front) = some (c :: after) := by
    rw [hText, hRest]
    exact dropBytes?_append ..
  have hTake : takeBytes? fragment.text.toList (byteSize front) = some front := by
    rw [hText]
    exact takeBytes?_append ..
  have hStop : byteSize front + c.utf8Size = byteSize (front ++ [c]) := by
    rw [byteSize_append]
    rfl
  rw [markersRound]
  refine (if_pos hInside).trans ?_
  simp only [hEnd, hDrop, Option.bind_eq_bind, Option.bind_some, second_eq, List.head?_cons,
    Option.getD_some, hStop]
  refine (if_neg hOther).trans ?_
  simp only [hTake, spanAt_eq hText, Option.bind_some]
  by_cases hMark : c = '@'
  · by_cases hWord : (front.reverse.dropWhile isBlank).head?.any isIdentChar
    · rw [if_pos hMark, if_pos hWord, if_neg fun h => h.2 hWord]
      rfl
    · rw [if_pos hMark, if_neg hWord, if_pos ⟨hMark, hWord⟩]
      rfl
  · rw [if_neg hMark, if_neg fun h => hMark h.1]
    rfl

end Marks

theorem markersRound_advances {fragment : Fragment}
    (hLimit : fragment.text.toList.length < limit) :
    Advances fragment.text.toList Prod.fst (markersRound limit fragment) := by
  rintro ⟨offset, found⟩ ⟨front, rest, hText, rfl⟩
  change GoesBehind _ _ (byteSize front) (markersRound limit fragment (byteSize front, found))
  cases hRest : rest with
  | nil =>
    rw [markersRound_nil found hText hRest]
    exact goesBehind_of_result _
  | cons c after =>
    cases hLength : literalLength front.reverse rest with
    | error kind =>
      rw [markersRound_open found hText hLimit hRest hLength]
      exact goesBehind_of_result _
    | ok length? =>
      cases length? with
      | some length =>
        obtain ⟨passed, after, hRest, hPassed, rfl⟩ := exists_of_literalLength hLength
        rw [markersRound_closed found hText hLimit hRest hPassed hLength]
        exact goesBehind_of_next hText hRest hPassed rfl
      | none =>
        by_cases hName : c = '@' ∧ after.head?.any isIdentStart
        · obtain ⟨rfl, hName⟩ := hName
          have hParts :
              rest = '@' :: after.takeWhile isIdentChar ++ after.dropWhile isIdentChar := by
            rw [List.cons_append, List.takeWhile_append_dropWhile, hRest]
          rw [markersRound_reference found hText hLimit hRest hLength hName]
          exact goesBehind_of_next hText hParts (List.cons_ne_nil _ _) rfl
        · rw [markersRound_other found hText hLimit hRest hLength hName]
          exact goesBehind_of_char hText hRest rfl

end ByteScan

end TreeGrammar
