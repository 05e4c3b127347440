import TreeGrammar.Proofs.Grammar.ByteRounds
import TreeGrammar.Proofs.Program.Substitution

/-!
# Loops over the bytes of a text

The loops over the bytes of a text yield what is read by characters: the places behind white space,
behind code and behind a faulty item, and the marks in a piece of code. They stand between
characters all the time, and find every literal there.

## Main definitions

* `ReadState.place`: the place in the bytes of a text at which a reader stands
* `ByteScan.LiteralAt`, `ByteScan.OpensAt`: literals that are closed, and that have to be closed
* `ByteScan.FindsLiteral`: what is found at an offset

## Main results

* `ByteScan.trivia_eq`, `ByteScan.code_eq`, `ByteScan.recovery_eq`, `ByteScan.markers_eq`: what the
  loops yield
* `ByteScan.findsLiteral`: what is found at an offset is the literal that begins there
* `ByteScan.scansSafely`: literals are found everywhere, and loops make progress
-/

namespace TreeGrammar

open Text

variable {source : List Char} {bound : Nat}

/-- The place in the bytes of a text at which a reader stands. -/
def ReadState.place (state : ReadState source bound) : ByteScan.Place :=
  ByteScan.placeBehind state.reader.before.reverse state.span

namespace ByteScan

open Literal

variable {text front passed after rest : List Char} {span : Span} {limit count : Nat} {c : Char}

/-! ### Readers -/

section Readers

variable (state : ReadState source bound)

theorem source_eq : source = state.reader.before.reverse ++ state.rest := state.reader.split.symm

theorem literalLength_place : literalLength state.reader.before state.rest =
    literalLength state.reader.before.reverse.reverse state.rest := by
  rw [List.reverse_reverse]

theorem place_drop (count : Nat) : (state.drop count).place =
    placeBehind (state.reader.before.reverse ++ state.rest.take count)
      (state.span.advance (state.rest.take count)) := by
  have hBefore : (state.drop count).reader.before =
      (state.rest.take count).reverse ++ state.reader.before := Reader.before_drop ..
  rw [ReadState.place, hBefore, ReadState.span_drop, List.reverse_append, List.reverse_reverse]

theorem remaining_drop_lt {state : ReadState source bound} {step count : Nat} (hStep : 0 < step)
    (hPos : 0 < state.remaining) (hCount : state.remaining < count) :
    (state.drop step).remaining < count - 1 := by
  rw [ReadState.remaining_drop]
  omega

theorem place_drop_one {rest : List Char} (hRest : state.rest = c :: rest) :
    (state.drop 1).place =
      placeBehind (state.reader.before.reverse ++ [c]) (state.span.next c) := by
  rw [place_drop, hRest]
  rfl

/-- Where an attempt to move on has led to. -/
def placed {state : ReadState source bound} (attempt : Attempt source bound (Onward state Unit)) :
    Except (SyntaxError × Place) Place :=
  match attempt with
  | .ok result => .ok result.state.place
  | .error (error, next) => .error (error, next.place)

end Readers

/-! ### White space and comments -/

/-- What skipping white space and comments has come to, if so many characters are passed, and
perhaps a block comment that is left open comes next. -/
def afterTrivia (front rest : List Char) (span : Span) (trivia : Nat × Bool) :
    Except (SyntaxError × Place) Place :=
  let passed := rest.take trivia.1
  let place := placeBehind (front ++ passed) (span.advance passed)
  if trivia.2 then .error (⟨place.span, .unterminated .blockComment⟩, place) else .ok place

theorem afterTrivia_append (more : Nat × Bool) :
    afterTrivia front (passed ++ rest) span (passed.length + more.1, more.2) =
      afterTrivia (front ++ passed) rest (span.advance passed) more := by
  simp only [afterTrivia, List.take_length_add_append, List.append_assoc, Span.advance_append]

/-- Skipping goes on behind characters that have been passed. -/
theorem rounds_trivia_of_next {count : Nat} {more : Nat × Bool} (hRest : rest = passed ++ after)
    (hPassed : passed ≠ []) (hCount : rest.length < count)
    (hRound : triviaRound limit text (placeBehind front span) =
      some (.inl (placeBehind (front ++ passed) (span.advance passed))))
    (ih : after.length < count - 1 →
      rounds none (triviaRound limit text) (count - 1)
        (placeBehind (front ++ passed) (span.advance passed)) =
      some (afterTrivia (front ++ passed) after (span.advance passed) more)) :
    rounds none (triviaRound limit text) count (placeBehind front span) =
      some (afterTrivia front rest span (passed.length + more.1, more.2)) := by
  have hShorter := List.length_pos_of_ne_nil hPassed
  subst hRest
  rw [List.length_append] at hCount
  rw [rounds_of_next hRound (by omega), ih (by omega), afterTrivia_append]

theorem rounds_trivia {count : Nat} (hText : text = front ++ rest) (hLimit : text.length < limit)
    (hCount : rest.length < count) :
    rounds none (triviaRound limit text) count (placeBehind front span) =
      some (afterTrivia front rest span (triviaLength rest)) := by
  have hPos : 0 < count := Nat.zero_lt_of_lt hCount
  -- one case for each way to go on, and one for each way to end
  fun_induction triviaLength rest generalizing front span count
  case case1 =>
    have hComment : ¬ StartsComment [] := by simp [StartsComment]
    rw [rounds_of_result (triviaRound_other span hText (by simp) hComment) hPos]
    simp [afterTrivia]
  case case2 rest line more ih =>
    -- a comment up to the end of its line
    have hRest : '/' :: '/' :: rest = '/' :: '/' :: rest.take line ++ rest.drop line := by simp
    have hLe : line ≤ rest.length := (List.takeWhile_prefix _).length_le
    have hLength : ('/' :: '/' :: rest.take line).length = 2 + line := by
      rw [List.length_cons, List.length_cons, List.length_take_of_le hLe, Nat.add_comm 2]
    have hRound := triviaRound_closed span hText hLimit ⟨rest, .inl rfl⟩ hRest
      (by rw [hLength]; rfl)
    have hResult := rounds_trivia_of_next hRest (List.cons_ne_nil _ _) hCount hRound fun hCount =>
      ih (by simpa using hText) hCount (Nat.zero_lt_of_lt hCount)
    rwa [hLength] at hResult
  case case3 rest comment hComment more ih =>
    -- a block comment
    have hRest : '/' :: '*' :: rest = '/' :: '*' :: rest.take comment ++ rest.drop comment := by
      simp
    have hLength : ('/' :: '*' :: rest.take comment).length = 2 + comment := by
      rw [List.length_cons, List.length_cons,
        List.length_take_of_le (blockCommentLength_take hComment).1, Nat.add_comm 2]
    have hRound := triviaRound_closed span hText hLimit ⟨rest, .inr rfl⟩ hRest
      (by rw [hLength, literalLength, hComment])
    have hResult := rounds_trivia_of_next hRest (List.cons_ne_nil _ _) hCount hRound fun hCount =>
      ih (by simpa using hText) hCount (Nat.zero_lt_of_lt hCount)
    rwa [hLength] at hResult
  case case4 rest hComment =>
    -- a block comment that is left open
    have hRound := triviaRound_open span hText hLimit
      ⟨rest, .inr rfl⟩ (by rw [literalLength, hComment])
    rw [rounds_of_result hRound hPos]
    simp [afterTrivia, placeBehind]
  case case5 c rest hLine hComment hBlank more ih =>
    -- white space
    exact rounds_trivia_of_next (rfl : c :: rest = [c] ++ rest) (List.cons_ne_nil _ _) hCount
      (triviaRound_blank span hText rfl hBlank) fun hCount =>
        ih (by simpa using hText) hCount (Nat.zero_lt_of_lt hCount)
  case case6 c rest hLine hComment hBlank =>
    have hOther : ¬ StartsComment (c :: rest) := by
      rintro ⟨more, h | h⟩
      · obtain ⟨rfl, rfl⟩ := List.cons.inj h
        exact hLine more rfl rfl
      · obtain ⟨rfl, rfl⟩ := List.cons.inj h
        exact hComment more rfl rfl
    rw [rounds_of_result (triviaRound_other span hText (by simpa using hBlank) hOther) hPos]
    simp [afterTrivia]

/-! ### Code -/

theorem placed_bind {state : ReadState source bound} {step : Nat}
    (attempt : Attempt source bound (Onward (state.drop step) Unit))
    (le : (state.drop step).remaining ≤ state.remaining) :
    placed (attempt.bind fun result => .ok (result.weaken le)) = placed attempt := by
  cases attempt with
  | ok result => rfl
  | error failure => rfl

/-- Moving to the end of code by bytes is moving there by characters. -/
theorem rounds_code (stops : List Char) (angle : Bool) (start : Span) (nesting : Nesting)
    (state : ReadState source bound) (hLimit : source.length < limit)
    (hCount : state.remaining < count) :
    rounds none (codeRound limit source stops angle start) count (state.place, nesting) =
      some (placed (ReadState.skipCode stops angle start nesting state)) := by
  have hPos : 0 < count := Nat.zero_lt_of_lt hCount
  -- each branch is one round, and the rounds that are left suffice for the characters behind it
  fun_induction ReadState.skipCode stops angle start nesting state generalizing count
  case case1 nesting state hRest opening place hOpened =>
    exact rounds_of_result
      (codeRound_nil _ _ start state.span nesting (source_eq state) hRest hOpened) hPos
  case case2 nesting state c rest hRest pos kind hLiteral =>
    rw [literalLength_place] at hLiteral
    exact rounds_of_result
      (codeRound_open _ _ _ state.span nesting (source_eq state) hLimit hRest hLiteral) hPos
  case case3 nesting state c rest hRest pos length hLiteral hLonger ih =>
    have hShorter := remaining_drop_lt hLonger pos hCount
    obtain ⟨hTake, hPassed⟩ := take_of_literalLength hLiteral
    rw [literalLength_place, ← hTake] at hLiteral
    have hRound := codeRound_closed stops angle start state.span nesting (source_eq state) hLimit
      (List.take_append_drop ..).symm hPassed hLiteral
    rw [← place_drop] at hRound
    have hResult := (rounds_of_next hRound hPos).trans (ih hShorter (Nat.zero_lt_of_lt hShorter))
    exact hResult.trans (congrArg some (placed_bind _ _).symm)
  case case4 nesting state c rest hRest pos hLiteral hStop =>
    rw [literalLength_place] at hLiteral
    have hRound := codeRound_none stops angle start state.span nesting (source_eq state) hLimit
      hRest hLiteral
    rw [if_pos hStop] at hRound
    exact rounds_of_result hRound hPos
  case case5 nesting state c rest hRest pos hLiteral hStop step hStep cause hNext =>
    rw [literalLength_place] at hLiteral
    have hRound := codeRound_none stops angle start state.span nesting (source_eq state) hLimit
      hRest hLiteral
    rw [if_neg hStop] at hRound
    simp only [step, dite_eq_ite] at hNext
    simp only [hNext] at hRound
    exact rounds_of_result hRound hPos
  case case6 nesting state c rest hRest pos hLiteral hStop step hStep next hNext ih =>
    have hShorter := remaining_drop_lt hStep pos hCount
    rw [literalLength_place] at hLiteral
    have hRound := codeRound_none stops angle start state.span nesting (source_eq state) hLimit
      hRest hLiteral
    rw [if_neg hStop] at hRound
    simp only [step, dite_eq_ite] at hNext
    simp only [hNext, ← place_drop] at hRound
    have hResult := (rounds_of_next hRound hPos).trans (ih hShorter (Nat.zero_lt_of_lt hShorter))
    exact hResult.trans (congrArg some (placed_bind _ _).symm)

/-! ### Recovery -/

/-- Moving past the end of a faulty item by bytes is moving there by characters. -/
theorem rounds_recovery (depth : Nat) (state : ReadState source bound)
    (hLimit : source.length < limit) (hCount : state.remaining < count) :
    rounds none (recoveryRound limit source) count (state.place, depth) =
      some (state.recover depth).1.place := by
  have hPos : 0 < count := Nat.zero_lt_of_lt hCount
  -- a literal that is left open is passed like a character, so two branches read no literal
  fun_induction ReadState.recover depth state generalizing count
  case case1 depth state hRest =>
    exact rounds_of_result (recoveryRound_nil state.span depth (source_eq state) hRest) hPos
  case case2 depth state c rest hRest pos length hLiteral hLonger next le hNext ih =>
    have hShorter := remaining_drop_lt hLonger pos hCount
    obtain ⟨hTake, hPassed⟩ := take_of_literalLength hLiteral
    rw [literalLength_place, ← hTake] at hLiteral
    have hRound := recoveryRound_closed state.span depth (source_eq state) hLimit
      (List.take_append_drop ..).symm hPassed hLiteral
    rw [← place_drop] at hRound
    rw [hNext] at ih
    exact (rounds_of_next hRound hPos).trans (ih hShorter (Nat.zero_lt_of_lt hShorter))
  case case3 depth state c rest hRest pos hEnd hNone =>
    rw [literalLength_place] at hNone
    have hRound := recoveryRound_char state.span depth (source_eq state) hLimit hRest hNone
    simp only [if_pos hEnd, ← place_drop_one state hRest] at hRound
    exact rounds_of_result hRound hPos
  case case4 depth state c rest hRest pos hEnd depth' next le hNext hNone ih =>
    have hShorter := remaining_drop_lt Nat.one_pos pos hCount
    rw [literalLength_place] at hNone
    have hRound := recoveryRound_char state.span depth (source_eq state) hLimit hRest hNone
    have hDepth : depth' = bracesAfter c depth := by
      simp only [depth', bracesAfter, dite_eq_ite]
    simp only [if_neg hEnd, ← place_drop_one state hRest, ← hDepth] at hRound
    rw [hNext] at ih
    exact (rounds_of_next hRound hPos).trans (ih hShorter (Nat.zero_lt_of_lt hShorter))

/-! ### Marks -/

/-- The marks among the parts of a piece of code that stand behind some characters. -/
def marksBehind (fragment : Fragment) (front : List Char) : List Piece → List Marker
  | [] => []
  | .plain text :: parts => marksBehind fragment (front ++ text) parts
  | .reference name :: parts =>
    .reference ⟨String.ofList name, fragment.span.advance front⟩ (byteSize front)
        (byteSize (front ++ '@' :: name)) ::
      marksBehind fragment (front ++ '@' :: name) parts
  | .stray :: parts =>
    .stray (fragment.span.advance front) :: marksBehind fragment (front ++ ['@']) parts

/-- The marks that are found by bytes are those among the parts. -/
theorem rounds_markers {fragment : Fragment} {before : List Char} (found : List Marker)
    (hText : fragment.text.toList = before.reverse ++ rest)
    (hLimit : fragment.text.toList.length < limit) (hCount : rest.length < count) :
    rounds none (markersRound limit fragment) count (byteSize before.reverse, found) =
      some (found ++ marksBehind fragment before.reverse (pieces before rest)) := by
  have hPos : 0 < count := Nat.zero_lt_of_lt hCount
  fun_induction pieces before rest generalizing found count
  case case1 before =>
    rw [rounds_of_result (markersRound_nil found hText rfl) hPos]
    simp [marksBehind]
  case case2 before c rest kind hLength =>
    -- a literal that is left open
    rw [← List.reverse_reverse before] at hLength
    rw [rounds_of_result (markersRound_open found hText hLimit rfl hLength) hPos]
    simp [marksBehind]
  case case3 before c rest length hLength ih =>
    -- a literal
    rw [List.reverse_append, List.reverse_reverse, List.append_assoc, List.take_append_drop] at ih
    obtain ⟨hTake, hPassed⟩ := take_of_literalLength hLength
    have hLonger := literalLength_pos hLength
    have hShorter : ((c :: rest).drop length).length < count - 1 := by
      rw [List.length_drop, List.length_cons]
      rw [List.length_cons] at hCount
      omega
    rw [← List.reverse_reverse before, ← hTake] at hLength
    have hRound := markersRound_closed found hText hLimit (List.take_append_drop ..).symm hPassed
      hLength
    exact (rounds_of_next hRound hPos).trans (ih found hText hShorter (Nat.zero_lt_of_lt hShorter))
  case case4 before rest hName hLength ih =>
    -- a reference with its name
    have hFront : ((rest.takeWhile isIdentChar).reverse ++ '@' :: before).reverse =
        before.reverse ++ '@' :: rest.takeWhile isIdentChar := by simp
    rw [hFront] at ih
    have hText' : fragment.text.toList =
        before.reverse ++ '@' :: rest.takeWhile isIdentChar ++ rest.dropWhile isIdentChar := by
      rw [List.append_assoc, List.cons_append, List.takeWhile_append_dropWhile, hText]
    have hShorter : (rest.dropWhile isIdentChar).length < count - 1 := by
      have hLe := (List.dropWhile_suffix isIdentChar (l := rest)).length_le
      rw [List.length_cons] at hCount
      omega
    rw [← List.reverse_reverse before] at hLength
    have hRound := markersRound_reference found hText hLimit rfl hLength hName
    have hResult := ih (found ++ [.reference ⟨String.ofList (rest.takeWhile isIdentChar),
      fragment.span.advance before.reverse⟩ (byteSize before.reverse)
      (byteSize (before.reverse ++ '@' :: rest.takeWhile isIdentChar))]) hText' hShorter
      (Nat.zero_lt_of_lt hShorter)
    rw [rounds_of_next hRound hPos, hResult, marksBehind, List.append_assoc, List.singleton_append]
  case case5 before rest hName hWord hLength ih =>
    -- a mark of a pattern
    have hShorter : rest.length < count - 1 := Nat.lt_sub_of_add_lt hCount
    rw [← List.reverse_reverse before] at hLength
    have hRound := markersRound_other found hText hLimit rfl hLength fun h => hName h.2
    rw [List.reverse_reverse, if_neg fun h => h.2 hWord] at hRound
    rw [List.reverse_cons] at ih
    have hResult := ih found (by simpa using hText) hShorter (Nat.zero_lt_of_lt hShorter)
    exact (rounds_of_next hRound hPos).trans hResult
  case case6 before rest hName hWord hLength ih =>
    -- a stray mark
    have hShorter : rest.length < count - 1 := Nat.lt_sub_of_add_lt hCount
    rw [← List.reverse_reverse before] at hLength
    have hRound := markersRound_other found hText hLimit rfl hLength fun h => hName h.2
    rw [List.reverse_reverse, if_pos ⟨rfl, hWord⟩] at hRound
    rw [List.reverse_cons] at ih
    have hResult := ih (found ++ [.stray (fragment.span.advance before.reverse)])
      (by simpa using hText) hShorter (Nat.zero_lt_of_lt hShorter)
    rw [rounds_of_next hRound hPos, hResult, marksBehind, List.append_assoc, List.singleton_append]
  case case7 before c rest hLength hMark ih =>
    have hShorter : rest.length < count - 1 := Nat.lt_sub_of_add_lt hCount
    rw [← List.reverse_reverse before] at hLength
    have hRound := markersRound_other found hText hLimit rfl hLength fun h => hMark h.1
    rw [if_neg fun h => hMark h.1] at hRound
    rw [List.reverse_cons] at ih
    have hResult := ih found (by simpa using hText) hShorter (Nat.zero_lt_of_lt hShorter)
    exact (rounds_of_next hRound hPos).trans hResult

/-- The reference that a mark is, if it is one. -/
def Marker.mention? : Marker → Option Mention
  | .reference name start stop => some ⟨name, start, stop⟩
  | .stray _ => none

/-- The position of a stray mark. -/
def Marker.stray? : Marker → Option Span
  | .reference .. => none
  | .stray span => some span

theorem mention?_marksBehind (fragment : Fragment) (front : List Char) (parts : List Piece) :
    (marksBehind fragment front parts).filterMap Marker.mention? =
      Fragment.mentions.locate (byteSize front)
        (Fragment.locatedPieces.locate (fragment.span.advance front) parts) := by
  induction parts generalizing front with
  | nil => rfl
  | cons part parts ih =>
    have hSpan : (fragment.span.advance front).advance part.source =
        fragment.span.advance (front ++ part.source) := (Span.advance_append ..).symm
    have hSize : byteSize front + byteSize part.source = byteSize (front ++ part.source) :=
      (byteSize_append ..).symm
    have hOthers := ih (front ++ part.source)
    rw [Fragment.locatedPieces.locate, hSpan]
    cases part with
    | plain text | stray =>
      rw [← hSize] at hOthers
      exact hOthers
    | reference name =>
      rw [Fragment.mentions.locate, hSize, ← hOthers]
      rfl

theorem stray?_marksBehind (fragment : Fragment) (front : List Char) (parts : List Piece) :
    (marksBehind fragment front parts).filterMap Marker.stray? =
      (Fragment.locatedPieces.locate (fragment.span.advance front) parts).filterMap fun
        | (.stray, span) => some span
        | _ => none := by
  induction parts generalizing front with
  | nil => rfl
  | cons part parts ih =>
    have hSpan : (fragment.span.advance front).advance part.source =
        fragment.span.advance (front ++ part.source) := (Span.advance_append ..).symm
    rw [Fragment.locatedPieces.locate, hSpan]
    cases part with
    | plain text => exact ih _
    | reference name => exact ih _
    | stray => exact congrArg (_ :: ·) (ih _)

/-! ### What the loops yield -/

section Results

variable (state : ReadState source bound) (hLimit : source.length < limit)
include hLimit

theorem remaining_lt : state.remaining < limit := by
  have hLength := congrArg List.length (source_eq state)
  rw [List.length_append] at hLength
  exact Nat.lt_of_le_of_lt (hLength ▸ Nat.le_add_left ..) hLimit

theorem trivia_eq : trivia limit source state.place = some (placed state.skipTrivia) := by
  rw [trivia, ReadState.place, rounds_trivia (source_eq state) hLimit (remaining_lt state hLimit),
    afterTrivia, ← place_drop, ReadState.skipTrivia]
  split
  · rfl
  · rfl

theorem code_eq (stops : List Char) (angle : Bool) :
    code limit source stops angle state.place =
      some (placed (ReadState.skipCode stops angle state.span {} state)) :=
  rounds_code stops angle state.span {} state hLimit (remaining_lt state hLimit)

theorem recovery_eq : recovery limit source state.place = some (state.recover 0).1.place :=
  rounds_recovery 0 state hLimit (remaining_lt state hLimit)

end Results

theorem markers_eq (fragment : Fragment) (hLimit : fragment.text.toList.length < limit) :
    ∃ found, markers limit fragment = some found ∧
      found.filterMap Marker.mention? = fragment.mentions ∧
      found.filterMap Marker.stray? = fragment.strayMarks := by
  have hText : fragment.text.toList = ([] : List Char).reverse ++ fragment.text.toList := rfl
  have hFound := rounds_markers [] hText hLimit hLimit
  rw [List.nil_append] at hFound
  exact ⟨_, hFound, mention?_marksBehind fragment [] _, stray?_marksBehind fragment [] _⟩

/-! ### Literals in a text -/

/-- A complete literal or comment takes the bytes from one offset up to another one. -/
def LiteralAt (text : List Char) (offset stop : Nat) : Prop :=
  ∃ front literal after, text = front ++ (literal ++ after) ∧ offset = byteSize front ∧
    stop = byteSize (front ++ literal) ∧ IsLiteral front.reverse literal after

/-- A literal or comment that has to be closed begins at an offset. -/
def OpensAt (text : List Char) (offset : Nat) (kind : Literal) : Prop :=
  ∃ front rest, text = front ++ rest ∧ offset = byteSize front ∧ Opens front.reverse kind rest

/-- What is found at an offset is the literal or comment that begins there. -/
structure FindsLiteral (text : List Char) (offset : Nat) (outcome : Except Literal (Option Nat)) :
    Prop where
  /-- An end is found if and only if a complete literal ends there. -/
  closed : ∀ stop, outcome = .ok (some stop) ↔ LiteralAt text offset stop
  /-- An end lies behind the offset, in the text and between characters. -/
  inside : ∀ stop, outcome = .ok (some stop) →
    offset < stop ∧ stop ≤ byteSize text ∧ IsBoundary text stop
  /-- It is an error if and only if a literal begins and is not closed. -/
  left_open : ∀ kind, outcome = .error kind ↔
    OpensAt text offset kind ∧ ∀ stop, ¬ LiteralAt text offset stop
  /-- A quote that begins no character belongs to a lifetime. -/
  lifetime : ∀ rest, dropBytes? text offset = some ('\'' :: rest) → rest.head? ≠ some '\\' →
    rest[1]? ≠ some '\'' → outcome = .ok none

/-- Places in a text are the same if their offsets are. -/
theorem eq_of_byteSize_eq {front' rest' : List Char} (hText : front ++ rest = front' ++ rest')
    (hSize : byteSize front = byteSize front') : front = front' ∧ rest = rest' := by
  have hSplit := splitBytes?_append front rest
  rw [hText, hSize, splitBytes?_append, Option.some.injEq, Prod.mk.injEq] at hSplit
  exact ⟨hSplit.1.symm, hSplit.2.symm⟩

theorem literalAt_append_iff {stop : Nat} :
    LiteralAt (front ++ rest) (byteSize front) stop ↔
      ∃ literal after, rest = literal ++ after ∧ stop = byteSize (front ++ literal) ∧
        IsLiteral front.reverse literal after := by
  constructor
  · rintro ⟨front', literal, after, hText, hSize, hStop, h⟩
    obtain ⟨rfl, hRest⟩ := eq_of_byteSize_eq hText hSize
    exact ⟨literal, after, hRest, hStop, h⟩
  · rintro ⟨literal, after, rfl, hStop, h⟩
    exact ⟨front, literal, after, rfl, rfl, hStop, h⟩

theorem opensAt_append_iff {kind : Literal} :
    OpensAt (front ++ rest) (byteSize front) kind ↔ Opens front.reverse kind rest := by
  constructor
  · rintro ⟨front', rest', hText, hSize, h⟩
    obtain ⟨rfl, rfl⟩ := eq_of_byteSize_eq hText hSize
    exact h
  · exact fun h => ⟨front, rest, rfl, rfl, h⟩

/-- The end of a literal, as it is measured. -/
theorem literalEnd_eq_some_iff (stop : Nat) (hLimit : (front ++ rest).length < limit) :
    literalEnd limit (front ++ rest) (byteSize front) = some (.ok (some stop)) ↔
      LiteralAt (front ++ rest) (byteSize front) stop := by
  rw [literalAt_append_iff, literalEnd_append hLimit]
  constructor
  · intro h
    cases hLength : literalLength front.reverse rest with
    | error kind => simp [hLength, Except.map] at h
    | ok length? =>
      cases length? with
      | none => simp [hLength, Except.map] at h
      | some length =>
        obtain ⟨literal, after, rfl, rfl, hLiteral⟩ := literalLength_eq_some_iff.1 hLength
        refine ⟨literal, after, rfl, ?_, hLiteral⟩
        simpa [hLength, Except.map, eq_comm] using h
  · rintro ⟨literal, after, rfl, rfl, h⟩
    rw [h.literalLength_eq]
    simp [Except.map]

/-- Where a quote belongs to a lifetime, there is no literal. -/
theorem literalLength_lifetime {before : List Char} (hBackslash : rest.head? ≠ some '\\')
    (hQuote : rest[1]? ≠ some '\'') : literalLength before ('\'' :: rest) = .ok none := by
  cases hLength : literalLength before ('\'' :: rest) with
  | error kind =>
    cases opens_of_literalLength hLength with
    | character => exact absurd rfl hBackslash
  | ok length? =>
    cases length? with
    | none => rfl
    | some length =>
      obtain ⟨literal, after, hText, -, hLiteral⟩ := literalLength_eq_some_iff.1 hLength
      cases hLiteral with
      | character =>
        obtain ⟨-, rfl⟩ := List.cons.inj hText
        exact absurd rfl hQuote
      | escaped =>
        obtain ⟨-, rfl⟩ := List.cons.inj hText
        exact absurd rfl hBackslash
      | line | blockComment | string | rawString => cases hText

/-- What is found between two characters is the literal that begins there. -/
theorem findsLiteral {offset : Nat} (hLimit : text.length < limit)
    (hOffset : IsBoundary text offset) :
    ∃ outcome, literalEnd limit text offset = some outcome ∧ FindsLiteral text offset outcome := by
  obtain ⟨front, rest, rfl, rfl⟩ := hOffset
  have hEnd := literalEnd_append hLimit
  have hClosed (stop : Nat) := literalEnd_eq_some_iff stop hLimit
  rw [hEnd] at hClosed
  simp only [Option.some.injEq] at hClosed
  refine ⟨_, hEnd, hClosed, ?inside, ?left_open, ?lifetime⟩
  case inside =>
    intro stop hStop
    obtain ⟨literal, after, rfl, rfl, hLiteral⟩ := literalAt_append_iff.1 ((hClosed stop).1 hStop)
    have hBoundary := isBoundary_append (front ++ literal) after
    rw [List.append_assoc] at hBoundary
    have hLonger : 0 < byteSize literal :=
      byteSize_pos (List.ne_nil_of_length_pos (literalLength_pos hLiteral.literalLength_eq))
    refine ⟨?_, hBoundary.le, hBoundary⟩
    rw [byteSize_append]
    exact Nat.lt_add_of_pos_right hLonger
  case left_open =>
    intro kind
    have hError : (literalLength front.reverse rest).map
        (Option.map fun length => byteSize front + byteSize (rest.take length)) = .error kind ↔
          literalLength front.reverse rest = .error kind := by
      cases literalLength front.reverse rest <;> simp [Except.map]
    rw [hError, literalLength_eq_error_iff, opensAt_append_iff]
    refine and_congr_right fun _ => ?_
    simp only [literalAt_append_iff]
    constructor
    · rintro hNone stop ⟨literal, after, hText, -, h⟩
      exact hNone literal after hText h
    · intro hNone literal after hText h
      exact hNone _ ⟨literal, after, hText, rfl, h⟩
  case lifetime =>
    intro rest' hRest hBackslash hQuote
    rw [dropBytes?_append] at hRest
    obtain rfl := Option.some.inj hRest
    rw [literalLength_lifetime hBackslash hQuote]
    rfl

/-- What readers and pieces of code yield is found by bytes. -/
structure Agrees (limit : Nat) (text : List Char) : Prop where
  literal : ∀ front rest, text = front ++ rest →
    literalEnd limit text (byteSize front) = some ((literalLength front.reverse rest).map
      (Option.map fun length => byteSize front + byteSize (rest.take length)))
  markers : ∀ fragment : Fragment, fragment.text.toList = text →
    ∃ found, markers limit fragment = some found ∧
      found.filterMap Marker.mention? = fragment.mentions ∧
      found.filterMap Marker.stray? = fragment.strayMarks
  code : ∀ bound (state : ReadState text bound) stops angle,
    code limit text stops angle state.place =
      some (placed (ReadState.skipCode stops angle state.span {} state))
  recovery : ∀ bound (state : ReadState text bound),
    recovery limit text state.place = some (state.recover 0).1.place
  trivia : ∀ bound (state : ReadState text bound),
    trivia limit text state.place = some (placed state.skipTrivia)

/-- Literals are found at all places of a text, and the loops that step over them make progress. -/
structure ScansSafely (limit : Nat) (text : List Char) : Prop where
  /-- No cut fails and no search goes on forever between two characters, and the literal that begins
  there is found. -/
  literal : ∀ offset, IsBoundary text offset →
    ∃ outcome, literalEnd limit text offset = some outcome ∧ FindsLiteral text offset outcome
  agrees : Agrees limit text
  markers : ∀ fragment : Fragment, fragment.text.toList = text →
    Advances text Prod.fst (markersRound limit fragment)
  code : ∀ stops angle start,
    Advances text (fun state => state.1.offset) (codeRound limit text stops angle start)
  recovery : Advances text (fun state => state.1.offset) (recoveryRound limit text)
  trivia : Advances text Place.offset (triviaRound limit text)

theorem agrees (hLimit : text.length < limit) : Agrees limit text where
  literal front rest hText := by
    subst hText
    exact literalEnd_append hLimit
  markers fragment hText := markers_eq fragment (hText ▸ hLimit)
  code _ state stops angle := code_eq state hLimit stops angle
  recovery _ state := recovery_eq state hLimit
  trivia _ state := trivia_eq state hLimit

/-- Wherever a scanner stands in a text, it finds the literal that begins there, never cuts within a
character, and moves on. -/
theorem scansSafely (hLimit : text.length < limit) : ScansSafely limit text where
  literal _ hOffset := findsLiteral hLimit hOffset
  agrees := agrees hLimit
  markers _ hText := hText ▸ markersRound_advances (hText ▸ hLimit)
  code stops angle start := codeRound_advances stops angle start hLimit
  recovery := recoveryRound_advances hLimit
  trivia := triviaRound_advances hLimit

/-- A string in which a quote is escaped. -/
theorem scansSafely_string : ScansSafely 10 "a \"b\\\"c\"".toList :=
  scansSafely (by decide)

end ByteScan

end TreeGrammar
