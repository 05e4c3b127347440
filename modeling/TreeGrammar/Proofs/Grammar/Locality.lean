import TreeGrammar.Proofs.Grammar.ParserSteps
import TreeGrammar.Proofs.Grammar.Pieces
import TreeGrammar.Proofs.Grammar.Shift

/-!
# Items are read independently

An item that ends with a semicolon is read in the same way on its own and within a longer text: each
step of the parser has the same result in both, but for the place and the number of elements before
it, or it fails in both with the same error. The parser never looks beyond the end of the item, and
it does not fail inside of a block of code.

## Main definitions

* `Surroundings`: what stands around an item
* `ReadState.Mirrors`: a place in an item, and the same place within a longer text
* `Attempt.Mirrors`: the same step from both places

## Main results

* `ReadState.rule_mirrors`: a rule is read independently of what stands around it
-/

namespace TreeGrammar

open ReadState (identLength codeStep)

/-! ### Places -/

/-- What stands around a text: what comes before it, the last character first, what comes after it,
and what has been read before. -/
structure Surroundings where
  front : List Char
  back : List Char
  grammar : SourceGrammar
  /-- Nothing in front of the text can be a part of its first word. -/
  endsNoWord : EndsNoWord front

/-- Where the text stands. -/
def Surroundings.shift (around : Surroundings) : Shift where
  place := Span.start.advance around.front.reverse
  count := around.grammar.exprCount

variable {source source' : List Char} {bound bound' : Nat} {α β γ δ : Type}
  {around : Surroundings} {p q : List Char → List Char → Prop} {opened : List Enclosure}

namespace ReadState

/-- A place in a text, of which something is known, and the same place within a longer text. -/
structure Mirrors (around : Surroundings) (p : List Char → List Char → Prop)
    (state : ReadState source bound) (other : ReadState source' bound') : Prop where
  rest : other.rest = state.rest ++ around.back
  before : other.reader.before = state.reader.before ++ around.front
  rules : other.grammar.rules = around.grammar.rules ++ state.grammar.rules.map around.shift.rule
  malformed : other.grammar.malformed =
    around.grammar.malformed ++ state.grammar.malformed.map around.shift.ident
  count : other.grammar.exprCount = around.shift.count + state.grammar.exprCount
  here : p state.reader.before state.rest

variable {state : ReadState source bound} {other : ReadState source' bound'}

namespace Mirrors

theorem span_eq (h : state.Mirrors around p other) : other.span = around.shift.span state.span := by
  have hState : state.span = Span.start.advance state.reader.before.reverse := state.reader.span_eq
  have hOther : other.span = Span.start.advance other.reader.before.reverse := other.reader.span_eq
  rw [hOther, h.before, List.reverse_append, Span.advance_append, hState, Shift.span_advance]
  rfl

theorem endAlike (h : state.Mirrors around p other) :
    EndAlike state.reader.before other.reader.before :=
  ⟨state.reader.before, [], around.front, (List.append_nil _).symm, h.before, nofun,
    around.endsNoWord⟩

theorem mono (h : state.Mirrors around p other) (hq : q state.reader.before state.rest) :
    state.Mirrors around q other :=
  { h with here := hq }

/-- The places after some more characters of the text. -/
theorem drop (h : state.Mirrors around p other) {count : Nat} (hCount : count ≤ state.rest.length)
    (hq : q ((state.rest.take count).reverse ++ state.reader.before) (state.rest.drop count)) :
    (state.drop count).Mirrors around q (other.drop count) := by
  have hBefore : (state.drop count).reader.before =
      (state.rest.take count).reverse ++ state.reader.before := Reader.before_drop ..
  have hBefore' : (other.drop count).reader.before =
      (other.rest.take count).reverse ++ other.reader.before := Reader.before_drop ..
  refine { h with rest := ?_, before := ?_, here := ?_ }
  · rw [rest_drop, rest_drop, h.rest, List.drop_append_of_le_length hCount]
  · rw [hBefore, hBefore', h.before, h.rest, List.take_append_of_le_length hCount,
      List.append_assoc]
  · rwa [hBefore, rest_drop]

/-- The same character comes next. -/
theorem peek?_eq (h : state.Mirrors around p other) (hRest : state.rest ≠ []) :
    other.peek? = state.peek? := by
  obtain ⟨c, rest, hRest⟩ := List.exists_cons_of_ne_nil hRest
  rw [peek?, peek?, h.rest, hRest]
  rfl

/-- The places after the next character. -/
theorem drop_one (h : state.Mirrors around p other) {c : Char} (hPeek : state.peek? = some c)
    (hq : ∀ before text, p before (c :: text) → q (c :: before) text) :
    (state.drop 1).Mirrors around q (other.drop 1) := by
  obtain ⟨rest, hRest⟩ := List.head?_eq_some_iff.1 hPeek
  have hHere := h.here
  rw [hRest] at hHere
  refine h.drop ?_ ?_
  · rw [hRest]
    exact Nat.le_add_left 1 _
  · rw [hRest]
    exact hq _ _ hHere

end Mirrors

end ReadState

/-! ### Steps -/

/-- A step has results that correspond to each other, or it fails in both texts with the same error.
Then it has not come to the end of the item, and it stands outside of all code. -/
def Attempt.Mirrors (around : Surroundings) (r : α → β → Prop) :
    Attempt source bound α → Attempt source' bound' β → Prop
  | .ok a, .ok b => r a b
  | .error (error, state), .error (error', other) =>
    error' = around.shift.error error ∧
      ∃ opened, .code ∉ opened ∧ state.Mirrors around (Remains opened) other
  | _, _ => False

section Results

variable {origin : ReadState source bound} {origin' : ReadState source' bound'}

/-- Results with the same value, apart from the place. -/
def Onward.Mirrors (around : Surroundings) (move : α → α) (p : List Char → List Char → Prop)
    (result : Onward origin α) (result' : Onward origin' α) : Prop :=
  result'.value = move result.value ∧ result.state.Mirrors around p result'.state

/-- Results with the same value, apart from the place. -/
def Ahead.Mirrors (around : Surroundings) (move : α → α) (p : List Char → List Char → Prop)
    (result : Ahead origin α) (result' : Ahead origin' α) : Prop :=
  result'.value = move result.value ∧ result.state.Mirrors around p result'.state

/-- The same has been found, apart from the place, or nothing. -/
def Found.Mirrors (around : Surroundings) (move : α → α) (p q : List Char → List Char → Prop) :
    Found origin α → Found origin' α → Prop
  | .yes value state _, .yes value' state' _ => value' = move value ∧ state.Mirrors around p state'
  | .no state _, .no state' _ => state.Mirrors around q state'
  | _, _ => False

end Results

/-- What has been found in both texts, or that nothing has been found in either. -/
theorem Found.Mirrors.yes_or_no {origin : ReadState source bound}
    {origin' : ReadState source' bound'} {move : α → α} {found : Found origin α}
    {found' : Found origin' α} (h : found.Mirrors around move p q found') :
    (∃ value state lt state' lt', found = .yes value state lt ∧
        found' = .yes (move value) state' lt' ∧ state.Mirrors around p state') ∨
      ∃ state le state' le', found = .no state le ∧ found' = .no state' le' ∧
        state.Mirrors around q state' := by
  cases found with
  | yes value state lt =>
    cases found' with
    | yes value' state' lt' =>
      obtain ⟨rfl, hState⟩ := h
      exact .inl ⟨value, state, lt, state', lt', rfl, rfl, hState⟩
    | no => exact h.elim
  | no state le =>
    cases found' with
    | yes => exact h.elim
    | no state' le' => exact .inr ⟨state, le, state', le', rfl, rfl, h⟩

namespace Attempt

variable {r : α → β → Prop} {t : γ → δ → Prop} {attempt : Attempt source bound α}
  {attempt' : Attempt source' bound' β} {next : α → Attempt source bound γ}
  {next' : β → Attempt source' bound' δ}

/-- A step and another one after it. -/
theorem Mirrors.bind (h : attempt.Mirrors around r attempt')
    (hNext : ∀ a b, r a b → (next a).Mirrors around t (next' b)) :
    (attempt >>= next).Mirrors around t (attempt' >>= next') := by
  cases attempt with
  | ok a =>
    cases attempt' with
    | ok b => exact hNext a b h
    | error failure => exact h.elim
  | error failure =>
    cases attempt' with
    | ok b => exact h.elim
    | error failure' => exact h

/-- A step by another name. -/
theorem Mirrors.of_eq (h : ∀ a, a = attempt → a.Mirrors around r attempt') :
    attempt.Mirrors around r attempt' := h attempt rfl

/-- A choice between two steps that is made in the same way in both texts. -/
theorem Mirrors.ite {c : Prop} [Decidable c] {first second : Attempt source bound α}
    {first' second' : Attempt source' bound' β} (hFirst : c → first.Mirrors around r first')
    (hSecond : ¬ c → second.Mirrors around r second') :
    (if c then first else second).Mirrors around r (if c then first' else second') := by
  by_cases hc : c
  · rw [if_pos hc, if_pos hc]
    exact hFirst hc
  · rw [if_neg hc, if_neg hc]
    exact hSecond hc

/-- A step that may consume something and another one after it. -/
theorem Mirrors.onward {origin : ReadState source bound} {origin' : ReadState source' bound'}
    {move : α → α} {attempt : Attempt source bound (Onward origin α)}
    {attempt' : Attempt source' bound' (Onward origin' α)}
    {next : Onward origin α → Attempt source bound γ}
    {next' : Onward origin' α → Attempt source' bound' δ}
    (h : attempt.Mirrors around (Onward.Mirrors around move p) attempt')
    (hNext : ∀ value state le state' le', state.Mirrors around p state' →
      (next ⟨value, state, le⟩).Mirrors around t (next' ⟨move value, state', le'⟩)) :
    (attempt >>= next).Mirrors around t (attempt' >>= next') := by
  refine h.bind fun ⟨value, state, le⟩ ⟨value', state', le'⟩ ⟨hValue, hState⟩ => ?_
  obtain rfl : value' = move value := hValue
  exact hNext value state le state' le' hState

/-- A step that consumes something and another one after it. -/
theorem Mirrors.ahead {origin : ReadState source bound} {origin' : ReadState source' bound'}
    {move : α → α} {attempt : Attempt source bound (Ahead origin α)}
    {attempt' : Attempt source' bound' (Ahead origin' α)}
    {next : Ahead origin α → Attempt source bound γ}
    {next' : Ahead origin' α → Attempt source' bound' δ}
    (h : attempt.Mirrors around (Ahead.Mirrors around move p) attempt')
    (hNext : ∀ value state lt state' lt', state.Mirrors around p state' →
      (next ⟨value, state, lt⟩).Mirrors around t (next' ⟨move value, state', lt'⟩)) :
    (attempt >>= next).Mirrors around t (attempt' >>= next') := by
  refine h.bind fun ⟨value, state, lt⟩ ⟨value', state', lt'⟩ ⟨hValue, hState⟩ => ?_
  obtain rfl : value' = move value := hValue
  exact hNext value state lt state' lt' hState

/-- A step that looks for something and another one after it. -/
theorem Mirrors.found {origin : ReadState source bound} {origin' : ReadState source' bound'}
    {move : α → α} {attempt : Attempt source bound (Found origin α)}
    {attempt' : Attempt source' bound' (Found origin' α)}
    {next : Found origin α → Attempt source bound γ}
    {next' : Found origin' α → Attempt source' bound' δ}
    (h : attempt.Mirrors around (Found.Mirrors around move p q) attempt')
    (hYes : ∀ value state lt state' lt', state.Mirrors around p state' →
      (next (.yes value state lt)).Mirrors around t (next' (.yes (move value) state' lt')))
    (hNo : ∀ state le state' le', state.Mirrors around q state' →
      (next (.no state le)).Mirrors around t (next' (.no state' le'))) :
    (attempt >>= next).Mirrors around t (attempt' >>= next') := by
  refine h.bind fun found found' hFound => ?_
  obtain ⟨value, state, lt, state', lt', rfl, rfl, hState⟩ |
      ⟨state, le, state', le', rfl, rfl, hState⟩ := hFound.yes_or_no
  · exact hYes value state lt state' lt' hState
  · exact hNo state le state' le' hState

/-- A step succeeds in both texts, or it fails in both. -/
theorem Mirrors.ok_or_error (h : attempt.Mirrors around r attempt') :
    (∃ a b, attempt = .ok a ∧ attempt' = .ok b ∧ r a b) ∨
      ∃ error state state' opened, attempt = .error (error, state) ∧
        attempt' = .error (around.shift.error error, state') ∧ .code ∉ opened ∧
        state.Mirrors around (Remains opened) state' := by
  cases attempt with
  | ok a =>
    cases attempt' with
    | ok b => exact .inl ⟨a, b, rfl, rfl, h⟩
    | error failure => exact h.elim
  | error failure =>
    cases attempt' with
    | ok b => exact h.elim
    | error failure' =>
      obtain ⟨error', state'⟩ := failure'
      obtain ⟨rfl, opened, hCode, hState⟩ := h
      exact .inr ⟨_, _, _, opened, rfl, rfl, hCode, hState⟩

end Attempt

namespace ReadState

variable {state : ReadState source bound} {other : ReadState source' bound'}

/-- The same error in both texts. -/
theorem Mirrors.fail (h : state.Mirrors around (Remains opened) other) (hCode : .code ∉ opened)
    {r : α → β → Prop} {span span' : Span} (hSpan : span' = around.shift.span span)
    {cause cause' : SyntaxError.Cause} (hCause : cause' = around.shift.cause cause) :
    (state.fail span cause).Mirrors around r (other.fail span' cause') :=
  ⟨by rw [hSpan, hCause]; rfl, opened, hCode, h⟩

theorem Mirrors.failHere (h : state.Mirrors around (Remains opened) other) (hCode : .code ∉ opened)
    {r : α → β → Prop} {cause cause' : SyntaxError.Cause}
    (hCause : cause' = around.shift.cause cause) :
    (state.failHere cause).Mirrors around r (other.failHere cause') :=
  h.fail hCode h.span_eq hCause

/-! ### Marks and names -/

theorem skipTrivia_mirrors (h : state.Mirrors around (Remains opened) other)
    (hCode : .code ∉ opened) :
    state.skipTrivia.Mirrors around (Onward.Mirrors around id (Remains opened))
      other.skipTrivia := by
  obtain ⟨hSame, hClosed, hAfter⟩ := h.here.triviaLength_append hCode around.back
  rw [← h.rest] at hSame
  have hLength := Remains.le_length_of_after hAfter
  simp only [skipTrivia, hSame, hClosed]
  exact ⟨rfl, h.drop hLength hAfter⟩

theorem nextChar_mirrors (h : state.Mirrors around (Remains opened) other)
    (hCode : .code ∉ opened) :
    state.nextChar.Mirrors around (fun a b => (∃ c, a.state.peek? = some c ∧ a.value = some c) ∧
      Onward.Mirrors around id (Remains opened) a b) other.nextChar := by
  refine (skipTrivia_mirrors h hCode).onward fun _ next _ next' _ hNext => ?_
  obtain ⟨c, rest, hRest⟩ := List.exists_cons_of_ne_nil hNext.here.ne_nil
  have hPeek : next.peek? = some c := congrArg List.head? hRest
  exact ⟨⟨c, hPeek, hPeek⟩, hNext.peek?_eq hNext.here.ne_nil, hNext⟩

/-- The next character is looked at before another step. -/
theorem nextChar_bind_mirrors (h : state.Mirrors around (Remains opened) other)
    (hCode : .code ∉ opened) {r : α → β → Prop}
    {step : Onward state (Option Char) → Attempt source bound α}
    {step' : Onward other (Option Char) → Attempt source' bound' β}
    (hStep : ∀ c next le next' le', next.peek? = some c →
      next.Mirrors around (Remains opened) next' →
        (step ⟨some c, next, le⟩).Mirrors around r (step' ⟨some c, next', le'⟩)) :
    (state.nextChar >>= step).Mirrors around r (other.nextChar >>= step') := by
  refine (nextChar_mirrors h hCode).bind ?_
  rintro ⟨_, next, le⟩ ⟨_, next', le'⟩ ⟨⟨c, hPeek, rfl⟩, rfl, hNext⟩
  exact hStep c next le next' le' hPeek hNext

theorem eat_mirrors (h : state.Mirrors around (Remains opened) other) (hCode : .code ∉ opened)
    {c : Char} (hPass : ∀ before text, Remains opened before (c :: text) → q (c :: before) text) :
    (state.eat c).Mirrors around (Found.Mirrors around id q (Remains opened)) (other.eat c) := by
  refine (skipTrivia_mirrors h hCode).onward fun _ next _ next' _ hNext => ?_
  have hPeek := hNext.peek?_eq hNext.here.ne_nil
  dsimp only
  by_cases hFound : next.peek? = some c
  · rw [dif_pos hFound, dif_pos (hPeek.trans hFound)]
    exact ⟨rfl, hNext.drop_one hFound hPass⟩
  · rw [dif_neg hFound, dif_neg (hPeek ▸ hFound)]
    exact hNext

theorem expect_mirrors (h : state.Mirrors around (Remains opened) other) (hCode : .code ∉ opened)
    {c : Char} (hPass : ∀ before text, Remains opened before (c :: text) → q (c :: before) text) :
    (state.expect c).Mirrors around (Ahead.Mirrors around id q) (other.expect c) := by
  refine (eat_mirrors h hCode hPass).found ?_ ?_
  · exact fun _ next _ next' _ hNext => ⟨rfl, hNext⟩
  · intro next _ next' _ hNext
    exact hNext.failHere hCode (by rw [hNext.peek?_eq hNext.here.ne_nil]; rfl)

theorem ident_mirrors (h : state.Mirrors around (Remains opened) other) (hCode : .code ∉ opened) :
    state.ident.Mirrors around
      (Found.Mirrors around around.shift.ident (Remains opened) (Remains opened)) other.ident := by
  refine (skipTrivia_mirrors h hCode).onward fun _ next _ next' _ hNext => ?_
  obtain ⟨hSame, hAfter⟩ := hNext.here.identLength_append hCode around.back
  have hLength := Remains.le_length_of_after hAfter
  dsimp only
  rw [← hNext.rest] at hSame
  by_cases hFound : 0 < identLength next.rest
  · rw [dif_pos hFound, dif_pos (hSame ▸ hFound)]
    refine ⟨?_, ?_⟩
    · rw [hSame, hNext.rest, List.take_append_of_le_length hLength, hNext.span_eq]
      rfl
    · simp only [hSame]
      exact hNext.drop hLength hAfter
  · rw [dif_neg hFound, dif_neg (hSame ▸ hFound)]
    exact hNext

theorem expectIdent_mirrors (h : state.Mirrors around (Remains opened) other)
    (hCode : .code ∉ opened) (wanted : SyntaxError.Wanted) :
    (state.expectIdent wanted).Mirrors around
      (Ahead.Mirrors around around.shift.ident (Remains opened)) (other.expectIdent wanted) := by
  refine (ident_mirrors h hCode).found ?_ ?_
  · exact fun _ next _ next' _ hNext => ⟨rfl, hNext⟩
  · intro next _ next' _ hNext
    exact hNext.failHere hCode (by rw [hNext.peek?_eq hNext.here.ne_nil]; rfl)

/-- The same words and marks come next. -/
theorem keywordAhead_eq (h : state.Mirrors around (Remains opened) other) (hCode : .code ∉ opened)
    (keyword : String) (c : Char) :
    other.keywordAhead keyword c = state.keywordAhead keyword c := by
  rw [keywordAhead, keywordAhead]
  obtain ⟨found, found', hIdent, hIdent', hFound⟩ | ⟨_, _, _, _, hIdent, hIdent', -⟩ :=
    (ident_mirrors h hCode).ok_or_error
  · rw [hIdent, hIdent']
    obtain ⟨ident, next, _, next', _, rfl, rfl, hNext⟩ | ⟨next, _, next', _, rfl, rfl, hNext⟩ :=
      hFound.yes_or_no
    · dsimp only
      obtain ⟨ahead, ahead', hChar, hChar', -, hValue, -⟩ | ⟨_, _, _, _, hChar, hChar', -⟩ :=
        (nextChar_mirrors hNext hCode).ok_or_error
      · rw [hChar, hChar']
        dsimp only
        rw [hValue]
        rfl
      · rw [hChar, hChar']
    · rfl
  · rw [hIdent, hIdent']

/-! ### Code -/

end ReadState

/-- The open delimiters of code further on. -/
def Shift.nesting (shift : Shift) (nesting : Nesting) : Nesting :=
  { nesting with opened := nesting.opened.map fun entry => (entry.1, shift.span entry.2) }

/-- The same delimiters are open after the next character, or the same is wrong with it. -/
theorem Shift.after_nesting (shift : Shift) (nesting : Nesting) (angle : Bool) (c : Char)
    (span : Span) :
    (shift.nesting nesting).after angle c (shift.span span) =
      match nesting.after angle c span with
      | .ok next => .ok (shift.nesting next)
      | .error cause => .error (shift.cause cause) := by
  have hOpened' : (shift.nesting nesting).opened =
      nesting.opened.map fun entry => (entry.1, shift.span entry.2) := rfl
  generalize hAfter : nesting.after angle c span = result
  cases Nesting.takes_of_after hAfter with
  | opening hOpening => exact Nesting.after_opening hOpening
  | closing hClosing hOpened hMatch =>
    rw [hOpened, List.map_cons] at hOpened'
    exact (Nesting.after_closing_cons hClosing hOpened').trans (if_pos hMatch)
  | unbalanced hClosing hOpened =>
    rw [hOpened] at hOpened'
    exact Nesting.after_closing_nil hClosing hOpened'
  | mismatched hClosing hOpened hMismatch =>
    rw [hOpened, List.map_cons] at hOpened'
    exact (Nesting.after_closing_cons hClosing hOpened').trans (if_neg hMismatch)
  | other hOpening hClosing =>
    have hAngles : (shift.nesting nesting).anglesAfter angle c = nesting.anglesAfter angle c :=
      Nesting.anglesAfter_congr List.isEmpty_map rfl
    rw [Nesting.after_other hOpening hClosing, hAngles]
    rfl

/-- The delimiters that are open in code are those of some enclosures. -/
def Nesting.Encloses (nesting : Nesting) (inner : List Enclosure) : Prop :=
  nesting.opened.map Prod.fst = inner.map Enclosure.opening

theorem Shift.isEmpty_nesting (shift : Shift) (nesting : Nesting) :
    (shift.nesting nesting).isEmpty = nesting.isEmpty := by
  rw [Nesting.isEmpty, Nesting.isEmpty, Shift.nesting, List.isEmpty_map]

theorem Nesting.Encloses.eq_nil {nesting : Nesting} {inner : List Enclosure}
    (h : nesting.Encloses inner) (hEmpty : nesting.isEmpty) : inner = [] := by
  simp only [Nesting.isEmpty, Bool.and_eq_true, List.isEmpty_iff] at hEmpty
  rw [Encloses, hEmpty.1] at h
  exact List.map_eq_nil_iff.1 h.symm

/-- In what is left of an item, no delimiter is wrong but one that closes the enclosure around the
code. -/
theorem Nesting.Encloses.after {nesting : Nesting} {inner outer : List Enclosure}
    {enclosure : Enclosure} (h : nesting.Encloses inner) {before text : List Char} {c : Char}
    (hRemains : Remains (inner ++ enclosure :: outer) before (c :: text))
    (hLiteral : literalLength before (c :: text) = .ok none) (angle : Bool) (span : Span) :
    (∃ next inner', nesting.after angle c span = .ok next ∧ next.Encloses inner' ∧
        (angle = false → next.angles = nesting.angles) ∧
        Remains (inner' ++ enclosure :: outer) (c :: before) text) ∨
      inner = [] ∧ c = enclosure.closing ∧
        nesting.after angle c span = .error (.unbalancedDelimiter c) := by
  rcases hRemains.of_cons hLiteral with
    ⟨-, hNil, -⟩ | ⟨new, hNames, rfl, hRest⟩ | ⟨closed, more, hClosed, rfl, hRest⟩ |
      ⟨hDelimiter, -, hRest⟩
  · simp at hNil
  · have hOpening : new.opening ∈ openings := by cases new <;> decide
    exact .inl ⟨_, new :: inner, after_opening hOpening, congrArg (new.opening :: ·) h,
      fun _ => rfl, hRest⟩
  · have hClosing : closed.closing ∈ closings := by cases closed <;> decide
    cases inner with
    | nil =>
      obtain ⟨rfl, rfl⟩ := List.cons.inj hClosed
      exact .inr ⟨rfl, rfl, after_closing_nil hClosing (List.map_eq_nil_iff.1 h)⟩
    | cons first inner =>
      obtain ⟨rfl, rfl⟩ := List.cons.inj hClosed
      obtain ⟨⟨opening, place⟩, outer, hOpened, hEntry, hOuter⟩ := List.map_eq_cons_iff.1 h
      have hMatch : Nesting.closing opening = first.closing := by
        rw [show opening = first.opening from hEntry]
        cases first <;> rfl
      exact .inl ⟨_, inner, (after_closing_cons hClosing hOpened).trans (if_pos hMatch), hOuter,
        fun _ => rfl, hRest⟩
  · have hNeither : c ∉ openings ∧ c ∉ closings := by
      simp only [isDelimiter, Bool.or_eq_false_iff, decide_eq_false_iff_not] at hDelimiter
      simp [openings, closings, hDelimiter]
    exact .inl ⟨_, inner, after_other hNeither.1 hNeither.2, h, fun hAngle => by
      rw [hAngle]; rfl, hRest⟩

namespace ReadState

/-- Two characters tell whether an arrow comes next. -/
theorem codeStep_append {c d : Char} (rest post : List Char) :
    codeStep (c :: d :: rest ++ post) = codeStep (c :: d :: rest) := by
  by_cases hArrow : c = '-' ∧ d = '>'
  · obtain ⟨rfl, rfl⟩ := hArrow
    rfl
  · have hOne : ∀ more, codeStep (c :: d :: more) = 1 := by
      intro more
      rw [codeStep]
      intro tail hEq
      obtain ⟨hDash, hMore⟩ := List.cons.inj hEq
      exact hArrow ⟨hDash, (List.cons.inj hMore).1⟩
    rw [List.cons_append, List.cons_append, hOne, hOne]

namespace Mirrors

variable {state : ReadState source bound} {other : ReadState source' bound'}

theorem peek?_eq_some (h : state.Mirrors around p other) {c : Char} {rest : List Char}
    (hRest : state.rest = c :: rest) : other.peek? = some c := by
  rw [peek?, h.rest, hRest]
  rfl

/-- The same literal comes next, or none in either text. -/
theorem literalLength_eq (h : state.Mirrors around (Remains opened) other)
    {length? : Option Nat}
    (hLiteral : literalLength state.reader.before state.rest = .ok length?) :
    literalLength other.reader.before other.rest = .ok length? := by
  have hSame := h.here.literalLength_append around.back
  rwa [← h.rest, h.endAlike.literalLength_eq, hLiteral] at hSame

/-- Where a delimiter is open, the next two characters belong to the item. -/
theorem codeStep_eq (h : state.Mirrors around (Remains opened) other) (hOpened : opened ≠ []) :
    codeStep other.rest = codeStep state.rest := by
  have hLength := h.here.lt_length
  have hPos := List.length_pos_iff.2 hOpened
  obtain ⟨c, rest, hRest⟩ := List.exists_cons_of_ne_nil h.here.ne_nil
  cases rest with
  | nil =>
    rw [hRest, List.length_singleton] at hLength
    omega
  | cons d rest =>
    have hState : state.rest = c :: d :: rest := hRest
    rw [h.rest, hState, codeStep_append]

end Mirrors

/-- An arrow is passed as a whole. -/
theorem remainsAfter_codeStep {text before : List Char} (h : Remains opened before text)
    (hStep : codeStep text ≠ 1) : RemainsAfter (codeStep text) opened before text := by
  unfold codeStep at hStep ⊢
  split
  · have hNone : ∀ before rest, literalLength before ('-' :: rest) = .ok none ∧
        literalLength before ('>' :: rest) = .ok none := by
      simp [literalLength]
    have hDash := h.of_other (hNone ..).1 (by decide) (by decide)
    exact hDash.of_other (hNone ..).2 (by decide) (by decide)
  · simp at hStep

/-- Code between delimiters of an item is read up to the same place in both texts, in front of one
of the characters that end it. It can only fail at the delimiter around it. -/
theorem skipCode_mirrors {stops : List Char} {angle : Bool} {start : Span} {nesting : Nesting}
    {state : ReadState source bound} {other : ReadState source' bound'}
    {inner outer : List Enclosure} {enclosure : Enclosure}
    (h : state.Mirrors around (Remains (inner ++ enclosure :: outer)) other)
    (hNesting : nesting.Encloses inner) (hAngles : angle = false → nesting.angles = 0)
    (hStop : enclosure.closing ∈ stops) (hCode : angle = true → .code ∉ enclosure :: outer) :
    (skipCode stops angle start nesting state).Mirrors around
      (Onward.Mirrors around id (RemainsAt stops (enclosure :: outer)))
      (skipCode stops angle (around.shift.span start) (around.shift.nesting nesting) other) := by
  have hNotNil : ∀ inner, inner ++ enclosure :: outer ≠ [] := by simp
  -- by induction on what is left, with the delimiters that are open inside of the code
  fun_induction skipCode stops angle start nesting state generalizing inner other with
  | case1 nesting state hRest => exact absurd hRest h.here.ne_nil
  | case2 nesting state c rest hRest _ literal hLiteral =>
    obtain ⟨length?, hLength⟩ := h.here.exists_literalLength
    rw [hLiteral] at hLength
    cases hLength
  | case3 nesting state c rest hRest _ length hLiteral _ ih =>
    obtain ⟨le, hEq⟩ := skipCode_eq_of_literal (h.literalLength_eq hLiteral)
    rw [hEq]
    have hEnd := h.here.lt_of_literal hLiteral
    exact Attempt.Mirrors.bind (ih (h.drop (Nat.le_of_lt hEnd) (h.here.of_literal hLiteral))
      hNesting hAngles) fun a b hResult => hResult
  | case4 nesting state c rest hRest _ hLiteral hEnd =>
    obtain ⟨le, hEq⟩ := skipCode_eq_of_none (h.peek?_eq_some hRest) (h.literalLength_eq hLiteral)
      (h.codeStep_eq (hNotNil inner))
    rw [hEq, around.shift.isEmpty_nesting, if_pos hEnd]
    simp only [Bool.and_eq_true] at hEnd
    obtain rfl := hNesting.eq_nil hEnd.1
    exact ⟨rfl, h.mono ⟨h.here, c, List.contains_iff_mem.1 hEnd.2, by rw [hRest]; rfl⟩⟩
  | case5 nesting state c rest hRest _ hLiteral hEnd step _ cause =>
    rename_i hCause
    split at hCause
    case isFalse => cases hCause
    case isTrue hStep =>
    obtain ⟨le, hEq⟩ := skipCode_eq_of_none (h.peek?_eq_some hRest) (h.literalLength_eq hLiteral)
      ((h.codeStep_eq (hNotNil inner)).trans hStep)
    have hHere := h.here
    rw [hRest] at hHere hLiteral
    obtain ⟨next, _, hNext, -⟩ | ⟨rfl, rfl, -⟩ := hNesting.after hHere hLiteral angle state.span
    · rw [hNext] at hCause
      cases hCause
    -- code does not end in front of the delimiter that closes it only if angle brackets are open
    have hAngle : angle = true := by
      by_contra hNo
      refine hEnd ?_
      have hOpened : nesting.opened = [] := List.map_eq_nil_iff.1 hNesting
      simp [Nesting.isEmpty, hOpened, hAngles (Bool.eq_false_iff.2 hNo), hStop]
    rw [hEq, around.shift.isEmpty_nesting, if_neg hEnd, if_pos rfl, h.span_eq,
      Shift.after_nesting, hCause]
    exact h.failHere (hCode hAngle) rfl
  | case6 nesting state c rest hRest _ hLiteral hEnd step _ next =>
    rename_i hNext ih
    obtain ⟨le, hEq⟩ := skipCode_eq_of_none (h.peek?_eq_some hRest) (h.literalLength_eq hLiteral)
      (h.codeStep_eq (hNotNil inner))
    rw [hEq, around.shift.isEmpty_nesting, if_neg hEnd, h.span_eq]
    split at hNext
    case isTrue hOne =>
      have hHere := h.here
      rw [hRest] at hHere hLiteral
      obtain ⟨_, inner', hAfter, hNesting', hAngles', hRest'⟩ | ⟨-, -, hAfter⟩ :=
        hNesting.after hHere hLiteral angle state.span
      · obtain rfl := Except.ok.inj (hAfter.symm.trans hNext)
        rw [if_pos hOne, Shift.after_nesting, hNext]
        have hDrop : RemainsAfter step (inner' ++ enclosure :: outer) state.reader.before
            state.rest := by
          rw [RemainsAfter, hOne, hRest]
          exact hRest'
        exact Attempt.Mirrors.bind (ih (h.drop (Remains.le_length_of_after hDrop) hDrop) hNesting'
          fun hAngle => (hAngles' hAngle).trans (hAngles hAngle)) fun a b hResult => hResult
      · rw [hAfter] at hNext
        cases hNext
    case isFalse hArrow =>
      obtain rfl := Except.ok.inj hNext
      rw [if_neg hArrow]
      have hDrop := remainsAfter_codeStep h.here hArrow
      exact Attempt.Mirrors.bind (ih (h.drop (Remains.le_length_of_after hDrop) hDrop) hNesting
        hAngles) fun a b hResult => hResult

section Fragments

variable {state : ReadState source bound} {other : ReadState source' bound'}
  {outer : List Enclosure}

/-- Code between delimiters is the same in both texts. -/
theorem fragment_mirrors (enclosure : Enclosure) (stops : List Char) (angle : Bool)
    (h : state.Mirrors around (Remains (enclosure :: outer)) other)
    (hStop : enclosure.closing ∈ stops) (hCode : angle = true → .code ∉ enclosure :: outer) :
    (state.fragment stops angle).Mirrors around
      (Onward.Mirrors around around.shift.fragment (RemainsAt stops (enclosure :: outer)))
      (other.fragment stops angle) := by
  have hNothing : Nesting.Encloses {} [] := rfl
  have hSkip : (skipCode stops angle state.span {} state).Mirrors around
      (Onward.Mirrors around id (RemainsAt stops (enclosure :: outer)))
      (skipCode stops angle (around.shift.span state.span) {} other) :=
    skipCode_mirrors h hNothing (fun _ => rfl) hStop hCode
  rw [← h.span_eq] at hSkip
  refine hSkip.onward fun _ next le next' _ hNext => ⟨?_, hNext⟩
  have hLength : other.remaining - next'.remaining = state.remaining - next.remaining := by
    have hState := congrArg List.length h.rest
    have hLater := congrArg List.length hNext.rest
    simp only [List.length_append] at hState hLater
    simp only [remaining]
    omega
  have hText : other.rest.take (state.remaining - next.remaining) =
      state.rest.take (state.remaining - next.remaining) := by
    have hLe : state.remaining - next.remaining ≤ state.rest.length := Nat.sub_le ..
    rw [h.rest, List.take_append_of_le_length hLe]
  dsimp only
  rw [hLength, hText, h.span_eq]
  rfl

/-- A character that neither is white space nor starts a comment is found where it stands. -/
theorem expect_of_peek? {c : Char} (hPeek : state.peek? = some c) (hBlank : ¬ Text.isBlank c)
    (hSlash : c ≠ '/') : ∃ lt, state.expect c = .ok ⟨(), state.drop 1, lt⟩ := by
  have hLt : (state.drop 1).remaining < state.remaining := by
    have hPos := remaining_pos_of_peek hPeek
    rw [remaining_drop]
    omega
  obtain ⟨rest, hRest⟩ := List.head?_eq_some_iff.1 hPeek
  have hTrivia : triviaLength state.rest = (0, false) := by
    rw [hRest, triviaLength_cons hSlash, if_neg hBlank]
  have hSkip : state.skipTrivia = .ok ⟨(), state, state.remaining_le_self⟩ := by
    simp only [skipTrivia, hTrivia]
    rfl
  refine ⟨hLt, ?_⟩
  simp [expect, eat, hSkip, hPeek, bind, Except.bind, pure, Except.pure]

/-- The delimiter in front of which code ends is passed. -/
theorem close_mirrors (enclosure : Enclosure)
    (h : state.Mirrors around (RemainsAt [enclosure.closing] (enclosure :: outer)) other) :
    (state.expect enclosure.closing).Mirrors around (Ahead.Mirrors around id (Remains outer))
      (other.expect enclosure.closing) := by
  obtain ⟨-, c, hMem, hPeek⟩ := h.here
  obtain rfl := List.mem_singleton.1 hMem
  have hSolid : ¬ Text.isBlank enclosure.closing ∧ enclosure.closing ≠ '/' := by
    cases enclosure <;> decide
  have hPeek' := (h.peek?_eq h.here.1.ne_nil).trans hPeek
  obtain ⟨_, hExpect⟩ := expect_of_peek? hPeek hSolid.1 hSolid.2
  obtain ⟨_, hExpect'⟩ := expect_of_peek? hPeek' hSolid.1 hSolid.2
  rw [hExpect, hExpect']
  exact ⟨rfl, h.drop_one hPeek fun _ _ hHere => hHere.1.of_closing enclosure⟩

end Fragments

end ReadState

end TreeGrammar
