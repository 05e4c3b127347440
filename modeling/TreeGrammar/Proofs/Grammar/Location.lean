import TreeGrammar.Proofs.Grammar.Delimiters
import TreeGrammar.Proofs.Grammar.ParserSteps
import TreeGrammar.Proofs.Text.Position

/-!
# What is read stands in the text

All names and pieces of code that are read of a text stand in the text as they are, at their
positions, and all syntax errors are at positions of the text. This holds of whatever has been read
of a text with errors, too. Only the name of a grammar without a header stands nowhere.

The parser carries its position from step to step. So the steps are gone through one by one: if the
grammar so far stands in the text, then so do the result of a step and the grammar after it, or the
error is at a position of the text.

## Main definitions

* `Ident.IsVerbatim`, `Fragment.IsVerbatim`: names and code that stand in a text
* `SourceGrammar.IsVerbatim`: the parts of a grammar stand in a text
* `SyntaxError.IsLocated`: the positions that an error mentions are positions of a text

## Main results

* `ReadState.isPlace_span`: the position of the parser is a position of the text
* `SourceGrammar.parse_isVerbatim`: what is read of a text, and what is wrong with it
-/

namespace TreeGrammar

open Text

/-! ### Parts of grammars -/

section Verbatim

variable (source : List Char)

/-- A name stands in a text at its position. -/
def Ident.IsVerbatim (ident : Ident) : Prop := StandsAt source ident.name.toList ident.span

/-- A piece of code stands in a text at its position. -/
def Fragment.IsVerbatim (fragment : Fragment) : Prop :=
  StandsAt source fragment.text.toList fragment.span

/-- The parts of an attribute stand in a text. -/
structure Attribute.IsVerbatim (attr : Attribute) : Prop where
  name : attr.name.IsVerbatim source
  type : attr.type.IsVerbatim source
  init : ∀ init ∈ attr.init, init.IsVerbatim source

/-- The parts of an option stand in a text. -/
structure GrammarOption.IsVerbatim (option : GrammarOption) : Prop where
  name : option.name.IsVerbatim source
  args : ∀ args ∈ option.args, args.IsVerbatim source

/-- The parts of an alternative stand in a text, apart from its elements. -/
structure Alternative.IsVerbatim (alternative : Alternative) : Prop where
  span : alternative.span.IsPlace source
  guard : ∀ guard ∈ alternative.guard, guard.IsVerbatim source

/-- A label stands in a text, if there is one. -/
def Ident.IsVerbatimLabel (label : Option Ident) : Prop := ∀ ident ∈ label, ident.IsVerbatim source

/-- The parts of an element stand in a text, apart from the elements inside it. -/
def Expr.IsVerbatim : Expr → Prop
  | .node _ span label name _ | .token _ span label name =>
    span.IsPlace source ∧ Ident.IsVerbatimLabel source label ∧ name.IsVerbatim source
  | .wildcard _ span label => span.IsPlace source ∧ Ident.IsVerbatimLabel source label
  | .rule _ span label name args =>
    span.IsPlace source ∧ Ident.IsVerbatimLabel source label ∧ name.IsVerbatim source ∧
      ∀ code ∈ args, Fragment.IsVerbatim source code
  | .subrule _ span _ alternatives =>
    span.IsPlace source ∧ ∀ alternative ∈ alternatives, alternative.IsVerbatim source
  | .action _ code | .predicate _ code => code.IsVerbatim source

/-- The parts of a rule stand in a text, apart from its elements. -/
structure Rule.IsVerbatim (rule : Rule) : Prop where
  name : rule.name.IsVerbatim source
  attributes : ∀ attr ∈ rule.attributes, attr.IsVerbatim source
  params : ∀ params ∈ rule.params, params.IsVerbatim source
  returns : ∀ value ∈ rule.returns, value.IsVerbatim source
  alternatives : ∀ alternative ∈ rule.alternatives, alternative.IsVerbatim source

/-- The parts of a grammar stand in a text: those of its rules, and those of all elements that have
been read. A name that the text does not give stands nowhere. -/
structure SourceGrammar.IsVerbatim (grammar : SourceGrammar) : Prop where
  name : grammar.name = ({} : SourceGrammar).name ∨ grammar.name.IsVerbatim source
  options : ∀ option ∈ grammar.options, option.IsVerbatim source
  tokens : ∀ token ∈ grammar.tokens, token.IsVerbatim source
  prelude : ∀ prelude ∈ grammar.prelude, prelude.IsVerbatim source
  rules : ∀ rule ∈ grammar.rules, rule.IsVerbatim source
  malformed : ∀ name ∈ grammar.malformed, name.IsVerbatim source
  elements : ∀ expr ∈ grammar.elements, expr.IsVerbatim source

/-- The positions that a cause of an error mentions. -/
def SyntaxError.Cause.spans : SyntaxError.Cause → List Span
  | mismatchedDelimiter _ opened _ => [opened]
  | repeatedLabel _ suffix => [suffix]
  | _ => []

/-- The positions that a syntax error mentions are positions of a text. -/
def SyntaxError.IsLocated (error : SyntaxError) : Prop :=
  error.span.IsPlace source ∧ ∀ span ∈ error.cause.spans, span.IsPlace source

end Verbatim

theorem Ident.IsVerbatim.isPlace {source : List Char} {ident : Ident}
    (h : ident.IsVerbatim source) : ident.span.IsPlace source := StandsAt.isPlace h

theorem Fragment.IsVerbatim.isPlace {source : List Char} {fragment : Fragment}
    (h : fragment.IsVerbatim source) : fragment.span.IsPlace source := StandsAt.isPlace h

theorem Alternative.isVerbatim_mk {source : List Char} {elements : List Expr} {span : Span}
    (h : span.IsPlace source) : (Alternative.mk none elements span).IsVerbatim source :=
  ⟨h, nofun⟩

variable {source : List Char} {bound : Nat} {α β : Type}

/-! ### The position of the parser -/

namespace ReadState

variable (state : ReadState source bound)

/-- What comes next stands in the text at the position of the parser. -/
theorem standsAt_rest : StandsAt source state.rest state.span := by
  have hAll := standsAt_append state.reader.before.reverse state.rest []
  rw [List.append_nil, ← state.reader.span_eq] at hAll
  rwa [rest, state.reader.split] at hAll

/-- What comes next is split where the parser is told to. -/
theorem standsAt_take (length : Nat) : StandsAt source (state.rest.take length) state.span := by
  have hAll := state.standsAt_rest
  rw [← List.take_append_drop length state.rest] at hAll
  exact hAll.of_append

/-- The position of the parser is a position of the text. -/
theorem isPlace_span : state.span.IsPlace source := state.standsAt_rest.isPlace

/-- All that has been read stands in the text. -/
def IsVerbatim : Prop := state.grammar.IsVerbatim source

theorem IsVerbatim.drop {state : ReadState source bound} (h : state.IsVerbatim) (count : Nat) :
    (state.drop count).IsVerbatim := h

end ReadState

/-! ### Results of steps -/

variable {origin : ReadState source bound}

/-- All that has been read after a step stands in the text, and its value has a property. -/
def Onward.Meets (p : α → Prop) (result : Onward origin α) : Prop :=
  p result.value ∧ result.state.IsVerbatim

/-- All that has been read after a step stands in the text, and its value has a property. -/
def Ahead.Meets (p : α → Prop) (result : Ahead origin α) : Prop :=
  p result.value ∧ result.state.IsVerbatim

/-- All that has been read after something has been looked for stands in the text, and what has been
found has a property. -/
def Found.Meets (p : α → Prop) : Found origin α → Prop
  | .yes value state _ => p value ∧ state.IsVerbatim
  | .no state _ => state.IsVerbatim

/-- A step has a result with a property, or all that has been read until it fails stands in the text
and the error is at a position of the text. -/
def Attempt.Meets (p : α → Prop) : Attempt source bound α → Prop
  | .ok result => p result
  | .error (error, state) => error.IsLocated source ∧ state.IsVerbatim

namespace Attempt

variable {p : α → Prop} {q : β → Prop} {attempt : Attempt source bound α}
  {next : α → Attempt source bound β}

/-- A step and another one after it. -/
theorem Meets.bind (h : attempt.Meets p) (hNext : ∀ a, p a → (next a).Meets q) :
    (attempt >>= next).Meets q := by
  cases attempt with
  | ok result => exact hNext result h
  | error failure => exact h

end Attempt

namespace ReadState

variable {state : ReadState source bound}

theorem IsVerbatim.fail (h : state.IsVerbatim) {span : Span} (hSpan : span.IsPlace source)
    {cause : SyntaxError.Cause} (hCause : ∀ span ∈ cause.spans, span.IsPlace source)
    {p : α → Prop} :
    (state.fail span cause : Attempt source bound α).Meets p :=
  ⟨⟨hSpan, hCause⟩, h⟩

/-- An error whose cause mentions no position. -/
theorem IsVerbatim.failAt (h : state.IsVerbatim) {span : Span} (hSpan : span.IsPlace source)
    {cause : SyntaxError.Cause} (hCause : cause.spans = []) {p : α → Prop} :
    (state.fail span cause : Attempt source bound α).Meets p :=
  h.fail hSpan fun _ hMem => absurd (hCause ▸ hMem) List.not_mem_nil

theorem IsVerbatim.failHere (h : state.IsVerbatim) {cause : SyntaxError.Cause}
    (hCause : cause.spans = []) {p : α → Prop} :
    (state.failHere cause : Attempt source bound α).Meets p :=
  h.failAt state.isPlace_span hCause

end ReadState

namespace ReadState

variable (state : ReadState source bound)

/-! ### Marks, names and code -/

theorem skipTrivia_meets (h : state.IsVerbatim) :
    state.skipTrivia.Meets (Onward.Meets fun _ => True) := by
  rw [skipTrivia]
  split
  · exact (h.drop _).failHere rfl
  · exact ⟨trivial, h.drop _⟩

theorem nextChar_meets (h : state.IsVerbatim) :
    state.nextChar.Meets (Onward.Meets fun _ => True) :=
  (state.skipTrivia_meets h).bind fun _ hNext => hNext

theorem eat_meets (h : state.IsVerbatim) (c : Char) :
    (state.eat c).Meets (Found.Meets fun _ => True) := by
  refine (state.skipTrivia_meets h).bind fun ⟨_, next, _⟩ hNext => ?_
  dsimp only
  split
  · exact ⟨trivial, hNext.2.drop 1⟩
  · exact hNext.2

theorem expect_meets (h : state.IsVerbatim) (c : Char) :
    (state.expect c).Meets (Ahead.Meets fun _ => True) := by
  refine (state.eat_meets h c).bind fun found hFound => ?_
  cases found with
  | yes _ next _ => exact hFound
  | no next _ => exact IsVerbatim.failHere hFound rfl

theorem ident_meets (h : state.IsVerbatim) :
    state.ident.Meets (Found.Meets (Ident.IsVerbatim source)) := by
  refine (state.skipTrivia_meets h).bind fun ⟨_, next, _⟩ hNext => ?_
  dsimp only
  split
  · refine ⟨?_, hNext.2.drop _⟩
    rw [Ident.IsVerbatim, String.toList_ofList]
    exact next.standsAt_take _
  · exact hNext.2

theorem expectIdent_meets (h : state.IsVerbatim) (wanted : SyntaxError.Wanted) :
    (state.expectIdent wanted).Meets (Ahead.Meets (Ident.IsVerbatim source)) := by
  refine (state.ident_meets h).bind fun found hFound => ?_
  cases found with
  | yes ident next _ => exact hFound
  | no next _ => exact IsVerbatim.failHere hFound rfl

end ReadState

/-- The delimiters that are open have been opened at positions of the text. -/
def Nesting.IsLocated (source : List Char) (nesting : Nesting) : Prop :=
  ∀ entry ∈ nesting.opened, entry.2.IsPlace source

/-- The next character opens or closes a delimiter at its position, or it is an error that mentions
where the delimiter was opened. -/
theorem Nesting.IsLocated.after {nesting : Nesting} (h : nesting.IsLocated source) (angle : Bool)
    (c : Char) {span : Span} (hSpan : span.IsPlace source) :
    match nesting.after angle c span with
    | .ok next => next.IsLocated source
    | .error cause => ∀ span ∈ cause.spans, span.IsPlace source := by
  generalize hAfter : nesting.after angle c span = result
  cases takes_of_after hAfter with
  | opening => exact List.forall_mem_cons.2 ⟨hSpan, h⟩
  | closing _ hOpened _ =>
    rw [IsLocated, hOpened] at h
    exact (List.forall_mem_cons.1 h).2
  | unbalanced => exact List.forall_mem_nil _
  | mismatched _ hOpened _ =>
    rw [IsLocated, hOpened] at h
    exact List.forall_mem_singleton.2 (List.forall_mem_cons.1 h).1
  | other => exact h

namespace ReadState

variable (state : ReadState source bound)

theorem skipCode_meets (stops : List Char) (angle : Bool) {start : Span} {nesting : Nesting}
    (hStart : start.IsPlace source) (hNesting : nesting.IsLocated source) (h : state.IsVerbatim) :
    (skipCode stops angle start nesting state).Meets (Onward.Meets fun _ => True) := by
  fun_induction skipCode stops angle start nesting state with
  | case1 nesting state hRest opening place hOpening =>
    -- the delimiter that is left open is the innermost one, or else that around the code
    have hPlace : (nesting.opened.head?.getD ('{', start)).2.IsPlace source := by
      cases hOpened : nesting.opened with
      | nil => exact hStart
      | cons entry outer => exact hNesting entry (hOpened ▸ List.mem_cons_self)
    rw [hOpening] at hPlace
    exact h.failAt hPlace rfl
  | case2 => exact h.failHere rfl
  | case3 _ _ _ _ _ _ _ _ _ ih => exact (ih hNesting (h.drop _)).bind fun _ hNext => hNext
  | case4 => exact ⟨trivial, h⟩
  | case5 nesting state c _ _ _ _ _ step _ cause hCause =>
    have hAfter := hNesting.after angle c state.isPlace_span
    split at hCause
    · rw [hCause] at hAfter
      exact h.fail state.isPlace_span hAfter
    · cases hCause
  | case6 nesting state c _ _ _ _ _ step _ next hNext ih =>
    have hAfter := hNesting.after angle c state.isPlace_span
    have hLocated : next.IsLocated source := by
      split at hNext
      · rw [hNext] at hAfter
        exact hAfter
      · exact Except.ok.inj hNext ▸ hNesting
    exact (ih hLocated (h.drop _)).bind fun _ hLater => hLater

theorem fragment_meets (h : state.IsVerbatim) (stops : List Char) (angle : Bool) :
    (state.fragment stops angle).Meets (Onward.Meets (Fragment.IsVerbatim source)) := by
  have hNothing : Nesting.IsLocated source {} := fun _ hMem => absurd hMem List.not_mem_nil
  refine (state.skipCode_meets stops angle state.isPlace_span hNothing h).bind
    fun ⟨_, next, _⟩ hNext => ?_
  refine ⟨?_, hNext.2⟩
  rw [Fragment.IsVerbatim, String.toList_ofList]
  exact state.standsAt_take _

theorem recover_isVerbatim (h : state.IsVerbatim) (depth : Nat) :
    (state.recover depth).1.IsVerbatim := by
  fun_induction recover depth state with
  | case1 => exact h
  | case3 => exact h.drop 1
  | case2 _ _ _ _ _ _ _ _ _ _ _ hNext ih =>
    have hLater := ih (h.drop _)
    rwa [hNext] at hLater
  | case4 _ _ _ _ _ _ _ _ _ _ hNext _ ih =>
    have hLater := ih (h.drop _)
    rwa [hNext] at hLater

theorem codeBlock_meets (h : state.IsVerbatim) :
    state.codeBlock.Meets (Ahead.Meets fun value => value.1.IsVerbatim source) := by
  refine (state.expect_meets h '{').bind fun ⟨_, state₁, _⟩ h₁ => ?_
  refine (state₁.fragment_meets h₁.2 ['}'] false).bind fun ⟨code, state₂, _⟩ h₂ => ?_
  refine (state₂.expect_meets h₂.2 '}').bind fun ⟨_, state₃, _⟩ h₃ => ?_
  refine (state₃.eat_meets h₃.2 '?').bind fun found hFound => ?_
  have hCode : code.IsVerbatim source := h₂.1
  -- the block is the same with and without a question mark, but for the error
  cases found with
  | yes _ state₄ _ =>
    by_cases hBlank : code.isBlank
    · simp only [hBlank, if_true]
      exact hFound.2.failAt hCode.isPlace rfl
    · simp only [hBlank]
      exact ⟨hCode, hFound.2⟩
  | no state₄ _ =>
    by_cases hBlank : code.isBlank
    · simp only [hBlank, if_true]
      exact IsVerbatim.failAt hFound hCode.isPlace rfl
    · simp only [hBlank]
      exact ⟨hCode, hFound⟩

/-! ### Elements -/

/-- An element that is ended stands in the text if its parts do. -/
theorem finish_meets (h : state.IsVerbatim) (label : Option Ident) (build : Nat → Expr)
    (hBuild : ∀ n, (build n).IsVerbatim source) :
    (state.finish label build).Meets (Expr.IsVerbatim source) := by
  refine ⟨hBuild _, { h with elements := ?_ }⟩
  exact List.forall_mem_append.2 ⟨h.elements, List.forall_mem_singleton.2 (hBuild _)⟩

theorem codeElement_meets (h : state.IsVerbatim) :
    state.codeElement.Meets (Ahead.Meets (Expr.IsVerbatim source)) := by
  refine (state.codeBlock_meets h).bind fun ⟨⟨code, isPredicate⟩, next, _⟩ hNext => ?_
  cases isPredicate with
  | true => exact next.finish_meets hNext.2 none (.predicate · code) fun _ => hNext.1
  | false => exact next.finish_meets hNext.2 none (.action · code) fun _ => hNext.1

theorem label_meets (h : state.IsVerbatim) :
    state.label.Meets (Onward.Meets (Ident.IsVerbatimLabel source)) := by
  have hIdent := state.ident_meets h
  have hNone : Ident.IsVerbatimLabel source none := nofun
  rw [label]
  -- a name that is no label is given back, so that the first state counts again
  cases hFound : state.ident with
  | error failure =>
    rw [hFound] at hIdent
    exact ⟨hIdent.1, h⟩
  | ok found =>
    rw [hFound] at hIdent
    cases found with
    | no next le => exact ⟨hNone, h⟩
    | yes ident next lt =>
      have hName : ident.IsVerbatim source := hIdent.1
      have hMark := next.eat_meets hIdent.2 '='
      cases hEat : next.eat '=' with
      | error failure =>
        rw [hEat] at hMark
        simp only [bind, Except.bind, hEat]
        exact ⟨hMark.1, h⟩
      | ok mark =>
        rw [hEat] at hMark
        cases mark with
        | no next' le' =>
          simp only [bind, Except.bind, hEat]
          exact ⟨hNone, h⟩
        | yes _ next' lt' =>
          simp only [bind, Except.bind, hEat, pure, Except.pure]
          by_cases hToken : ident.isToken
          · rw [if_pos hToken]
            exact hMark.2.failAt hName.isPlace rfl
          · rw [if_neg hToken]
            exact ⟨fun _ hMem => Option.some.inj hMem ▸ hName, hMark.2⟩

theorem reference_meets {span : Span} {label : Option Ident} (hSpan : span.IsPlace source)
    (hLabel : Ident.IsVerbatimLabel source label) (h : state.IsVerbatim) :
    (reference span label state).Meets (Ahead.Meets (Expr.IsVerbatim source)) := by
  refine (state.expectIdent_meets h _).bind fun ⟨name, state₁, _⟩ ⟨hName, h₁⟩ => ?_
  dsimp only
  by_cases hToken : name.isToken
  · rw [if_pos hToken]
    exact state₁.finish_meets h₁ label (.token · span label name) fun _ => ⟨hSpan, hLabel, hName⟩
  rw [if_neg hToken]
  by_cases hArgs : state₁.peek? = some '['
  · rw [if_pos hArgs]
    refine ((state₁.drop 1).fragment_meets (h₁.drop 1) [']'] false).bind
      fun ⟨args, state₂, _⟩ ⟨hCode, h₂⟩ => ?_
    refine (state₂.expect_meets h₂ ']').bind fun ⟨_, state₃, _⟩ h₃ => ?_
    exact state₃.finish_meets h₃.2 label (.rule · span label name (some args)) fun _ =>
      ⟨hSpan, hLabel, hName, fun _ hMem => Option.some.inj hMem ▸ hCode⟩
  · rw [if_neg hArgs]
    exact state₁.finish_meets h₁ label (.rule · span label name none) fun _ =>
      ⟨hSpan, hLabel, hName, nofun⟩

/-- An element stands in the text under a repetition, too. If it is replaced in its place, then all
other elements are those from before. -/
theorem repeatExpr_meets {span : Span} (hSpan : span.IsPlace source) (repetition : Repetition)
    {expr : Expr} (hExpr : expr.IsVerbatim source) (h : state.IsVerbatim) :
    (repeatExpr span repetition expr state).Meets (Expr.IsVerbatim source) := by
  unfold repeatExpr
  split
  · next id span' alternatives =>
    have hGroup : (Expr.subrule id span' repetition alternatives).IsVerbatim source := hExpr
    refine ⟨hGroup, { h with elements := fun other hOther => ?_ }⟩
    rcases List.mem_or_eq_of_mem_set hOther with hOld | rfl
    · exact h.elements other hOld
    · exact hGroup
  · refine state.finish_meets h none (.subrule · span repetition [.mk none [expr] span]) fun _ => ?_
    exact ⟨hSpan, List.forall_mem_singleton.2 (Alternative.isVerbatim_mk hSpan)⟩

theorem suffixed_meets {span : Span} {label : Option Ident} {expr : Expr}
    (hSpan : span.IsPlace source) (hLabel : Ident.IsVerbatimLabel source label)
    (hExpr : expr.IsVerbatim source) (h : state.IsVerbatim) :
    (suffixed span label expr state).Meets (Onward.Meets (Expr.IsVerbatim source)) := by
  refine (state.nextChar_meets h).bind fun ⟨c, state₁, _⟩ h₁ => ?_
  cases hSuffix : suffix? c with
  | none =>
    simp only [hSuffix]
    exact ⟨hExpr, h₁.2⟩
  | some repetition =>
    simp only [hSuffix]
    have h₂ := h₁.2.drop 1
    cases label with
    | some label =>
      -- the error stands at the label and mentions the suffix
      refine h₂.fail (hLabel label rfl).isPlace ?_
      exact List.forall_mem_singleton.2 state₁.isPlace_span
    | none => exact (state₁.drop 1).repeatExpr_meets hSpan repetition hExpr h₂

mutual

/-- What is read as alternatives stands in the text. -/
theorem alternatives_meets (close : Char) (state : ReadState source bound) (h : state.IsVerbatim) :
    (alternatives close state).Meets
      (Onward.Meets fun value => ∀ alternative ∈ value, alternative.IsVerbatim source) := by
  rw [alternatives]
  refine (alternative_meets close state h).bind fun ⟨first, state₁, h₁⟩ ⟨hFirst, hState₁⟩ => ?_
  refine (state₁.eat_meets hState₁ '|').bind fun found hFound => ?_
  cases found with
  | no state₂ _ => exact ⟨List.forall_mem_singleton.2 hFirst, hFound⟩
  | yes _ state₂ h₂ =>
    refine (alternatives_meets close state₂ hFound.2).bind fun ⟨others, state₃, _⟩ hOthers => ?_
    exact ⟨List.forall_mem_cons.2 ⟨hFirst, hOthers.1⟩, hOthers.2⟩
termination_by 6 * state.remaining + 5

/-- What is read as an alternative stands in the text. -/
theorem alternative_meets (close : Char) (state : ReadState source bound) (h : state.IsVerbatim) :
    (alternative close state).Meets (Onward.Meets (Alternative.IsVerbatim source)) := by
  rw [alternative]
  refine (state.skipTrivia_meets h).bind fun ⟨_, state₁, h₁⟩ hState₁ => ?_
  have hSpan := state₁.isPlace_span
  dsimp only
  split
  · refine (state₁.codeBlock_meets hState₁.2).bind
      fun ⟨⟨code, isPredicate⟩, state₂, h₂⟩ hBlock => ?_
    cases isPredicate with
    | true =>
      refine (elements_meets close state₂ hBlock.2).bind fun ⟨elements, state₃, _⟩ hRest => ?_
      exact ⟨⟨hSpan, fun _ hMem => Option.some.inj hMem ▸ hBlock.1⟩, hRest.2⟩
    | false =>
      -- the action becomes the first element of the alternative
      have hAction := state₂.finish_meets hBlock.2 none (.action · code) fun _ => hBlock.1
      have hRemaining : (state₂.finish none (.action · code)).state.remaining = state₂.remaining :=
        rfl
      refine (elements_meets close (state₂.finish none (.action · code)).state hAction.2).bind
        fun ⟨elements, state₃, _⟩ hRest => ?_
      exact ⟨Alternative.isVerbatim_mk hSpan, hRest.2⟩
  · refine (elements_meets close state₁ hState₁.2).bind fun ⟨elements, state₂, _⟩ hRest => ?_
    exact ⟨Alternative.isVerbatim_mk hSpan, hRest.2⟩
termination_by 6 * state.remaining + 4

/-- What is read as elements stands in the text. -/
theorem elements_meets (close : Char) (state : ReadState source bound) (h : state.IsVerbatim) :
    (elements close state).Meets (Onward.Meets fun _ => True) := by
  rw [elements]
  refine (state.nextChar_meets h).bind fun ⟨c, state₁, h₁⟩ hState₁ => ?_
  cases c with
  | none => exact hState₁.2.failHere rfl
  | some c =>
    dsimp only
    split
    · exact hState₁
    · split
      · refine (state₁.codeElement_meets hState₁.2).bind fun ⟨expr, state₂, h₂⟩ hExpr => ?_
        exact (elements_meets close state₂ hExpr.2).bind fun _ hRest => ⟨trivial, hRest.2⟩
      · refine (element_meets state₁ hState₁.2).bind fun ⟨expr, state₂, h₂⟩ hExpr => ?_
        exact (elements_meets close state₂ hExpr.2).bind fun _ hRest => ⟨trivial, hRest.2⟩
termination_by 6 * state.remaining + 3

/-- What is read as an element stands in the text. -/
theorem element_meets (state : ReadState source bound) (h : state.IsVerbatim) :
    (element state).Meets (Ahead.Meets (Expr.IsVerbatim source)) := by
  rw [element]
  refine (state.skipTrivia_meets h).bind fun ⟨_, state₁, h₁⟩ hState₁ => ?_
  refine (state₁.label_meets hState₁.2).bind fun ⟨label, state₂, h₂⟩ ⟨hLabel, hState₂⟩ => ?_
  have hSpan := state₁.isPlace_span
  refine (primary_meets state₂ hSpan hLabel hState₂).bind fun ⟨expr, state₃, h₃⟩ hExpr => ?_
  exact (state₃.suffixed_meets hSpan hLabel hExpr.1 hExpr.2).bind fun _ hResult => hResult
termination_by 6 * state.remaining + 2

/-- What is read as an element without its label and its suffix stands in the text. -/
theorem primary_meets {span : Span} {label : Option Ident} (state : ReadState source bound)
    (hSpan : span.IsPlace source) (hLabel : Ident.IsVerbatimLabel source label)
    (h : state.IsVerbatim) :
    (primary span label state).Meets (Ahead.Meets (Expr.IsVerbatim source)) := by
  rw [primary]
  refine (state.skipTrivia_meets h).bind fun ⟨_, state₁, h₁⟩ hState₁ => ?_
  dsimp only
  -- by the next mark: a node, a wildcard, a group, or the name of a token or rule
  split
  · next hPeek =>
    have hPos := remaining_pos_of_peek hPeek
    have hDrop := state₁.remaining_drop 1
    have hMark := hState₁.2.drop 1
    split
    · have hDrop₂ := (state₁.drop 1).remaining_drop 1
      refine (((state₁.drop 1).drop 1).expectIdent_meets (hMark.drop 1) _).bind
        fun ⟨name, state₃, h₃⟩ ⟨hName, hState₃⟩ => ?_
      dsimp only
      split
      · refine (children_meets state₃ hState₃).bind fun ⟨children, state₄, _⟩ hRest => ?_
        exact state₄.finish_meets hRest.2 label (.node · span label name children) fun _ =>
          ⟨hSpan, hLabel, hName⟩
      · exact hState₃.failAt hName.isPlace rfl
    · exact hMark.failAt state₁.isPlace_span rfl
  · exact (state₁.drop 1).finish_meets (hState₁.2.drop 1) label (.wildcard · span label)
      fun _ => ⟨hSpan, hLabel⟩
  · next hPeek =>
    have hPos := remaining_pos_of_peek hPeek
    have hDrop := state₁.remaining_drop 1
    have hMark := hState₁.2.drop 1
    cases label with
    | some label => exact hMark.failAt (hLabel label rfl).isPlace rfl
    | none =>
      refine (alternatives_meets ')' (state₁.drop 1) hMark).bind
        fun ⟨alternatives, state₃, h₃⟩ ⟨hAlternatives, hState₃⟩ => ?_
      refine (state₃.expect_meets hState₃ ')').bind fun ⟨_, state₄, _⟩ hState₄ => ?_
      exact state₄.finish_meets hState₄.2 none (.subrule · span .once alternatives) fun _ =>
        ⟨hSpan, hAlternatives⟩
  · split
    · exact (state₁.reference_meets hSpan hLabel hState₁.2).bind fun _ hResult => hResult
    · exact hState₁.2.failHere rfl
termination_by 6 * state.remaining + 1

/-- What is read as the children of a node match stands in the text. -/
theorem children_meets (state : ReadState source bound) (h : state.IsVerbatim) :
    (children state).Meets (Onward.Meets fun _ => True) := by
  rw [children]
  refine (state.nextChar_meets h).bind fun ⟨c, state₁, h₁⟩ hState₁ => ?_
  cases c with
  | none => exact hState₁.2.failHere rfl
  | some c =>
    dsimp only
    split
    · exact ⟨trivial, hState₁.2.drop 1⟩
    · split
      · exact hState₁.2.failHere rfl
      · split
        · refine (state₁.codeElement_meets hState₁.2).bind fun ⟨expr, state₂, h₂⟩ hExpr => ?_
          exact (children_meets state₂ hExpr.2).bind fun _ hRest => ⟨trivial, hRest.2⟩
        · refine (element_meets state₁ hState₁.2).bind fun ⟨expr, state₂, h₂⟩ hExpr => ?_
          exact (children_meets state₂ hExpr.2).bind fun _ hRest => ⟨trivial, hRest.2⟩
termination_by 6 * state.remaining + 3

end

/-! ### Rules -/

theorem attr_meets (h : state.IsVerbatim) :
    state.attr.Meets (Ahead.Meets (Attribute.IsVerbatim source)) := by
  refine (state.expectIdent_meets h _).bind fun ⟨name, state₁, _⟩ ⟨hName, h₁⟩ => ?_
  refine (state₁.eat_meets h₁ ':').bind fun found hFound => ?_
  cases found with
  | no state₂ _ => exact IsVerbatim.failHere hFound rfl
  | yes _ state₂ _ =>
    refine (state₂.fragment_meets hFound.2 [',', '=', ']'] true).bind
      fun ⟨type, state₃, _⟩ ⟨hType, h₃⟩ => ?_
    dsimp only
    split
    · exact h₃.failAt hType.isPlace rfl
    · refine (state₃.eat_meets h₃ '=').bind fun found hFound => ?_
      cases found with
      | no state₄ _ => exact ⟨⟨hName, hType, nofun⟩, hFound⟩
      | yes _ state₄ _ =>
        refine (state₄.fragment_meets hFound.2 [',', ']'] false).bind
          fun ⟨init, state₅, _⟩ ⟨hInit, h₅⟩ => ?_
        dsimp only
        split
        · exact h₅.failAt hInit.isPlace rfl
        · exact ⟨⟨hName, hType, fun _ hMem => Option.some.inj hMem ▸ hInit⟩, h₅⟩

theorem attributes_meets (h : state.IsVerbatim) : state.attributes.Meets
    (Onward.Meets fun value => ∀ attr ∈ value, attr.IsVerbatim source) := by
  fun_induction attributes state with
  | case1 state ih =>
    refine (state.eat_meets h ']').bind fun found hFound => ?_
    cases found with
    | yes _ state₁ _ => exact ⟨List.forall_mem_nil _, hFound.2⟩
    | no state₁ h₁ =>
      refine (state₁.attr_meets hFound).bind ?_
      rintro ⟨first, state₂, h₂⟩ ⟨hFirst, hState₂⟩
      refine (state₂.eat_meets hState₂ ',').bind fun found hFound => ?_
      cases found with
      | yes _ state₃ h₃ =>
        refine (ih state₁ h₁ state₂ h₂ state₃ h₃ hFound.2).bind ?_
        rintro ⟨others, _, _⟩ hOthers
        exact ⟨List.forall_mem_cons.2 ⟨hFirst, hOthers.1⟩, hOthers.2⟩
      | no state₃ _ =>
        refine (state₃.expect_meets hFound ']').bind fun _ hEnd => ?_
        exact ⟨List.forall_mem_singleton.2 hFirst, hEnd.2⟩

theorem parenthesized_meets (h : state.IsVerbatim) : state.parenthesized.Meets
    (Onward.Meets fun value => ∀ code ∈ value, Fragment.IsVerbatim source code) := by
  refine (state.eat_meets h '(').bind fun found hFound => ?_
  cases found with
  | no state₁ _ => exact ⟨nofun, hFound⟩
  | yes _ state₁ _ =>
    refine (state₁.fragment_meets hFound.2 [')'] false).bind fun ⟨text, state₂, _⟩ ⟨hText, h₂⟩ => ?_
    refine (state₂.expect_meets h₂ ')').bind fun _ hEnd => ?_
    exact ⟨fun _ hMem => Option.some.inj hMem ▸ hText, hEnd.2⟩

theorem returnValue_meets (h : state.IsVerbatim) : state.returnValue.Meets
    (Onward.Meets fun value => ∀ attr ∈ value, Attribute.IsVerbatim source attr) := by
  rw [returnValue]
  split
  · refine (state.expectIdent_meets h _).bind ?_
    rintro ⟨_, state₁, _⟩ h₁
    refine (state₁.expect_meets h₁.2 '[').bind ?_
    rintro ⟨_, state₂, _⟩ h₂
    refine (state₂.attr_meets h₂.2).bind ?_
    rintro ⟨value, state₃, _⟩ ⟨hValue, h₃⟩
    refine (state₃.expect_meets h₃ ']').bind fun _ hEnd => ?_
    exact ⟨fun _ hMem => Option.some.inj hMem ▸ hValue, hEnd.2⟩
  · refine ⟨?_, h⟩
    rintro _ ⟨⟩

theorem ruleBody_meets {name : Ident} (hName : name.IsVerbatim source) (isPublic : Bool)
    (h : state.IsVerbatim) :
    (ruleBody name isPublic state).Meets (Onward.Meets (Rule.IsVerbatim source)) := by
  rw [ruleBody]
  refine (state.eat_meets h '[').bind fun found hFound => ?_
  extract_lets later
  -- the steps after the attributes are the same with and without attributes
  have hLater : ∀ result : Onward state (List Attribute),
      (∀ attr ∈ result.value, attr.IsVerbatim source) → result.state.IsVerbatim →
        (later result).Meets (Onward.Meets (Rule.IsVerbatim source)) := by
    intro ⟨attributes, state₁, _⟩ hAttributes h₁
    refine (state₁.parenthesized_meets h₁).bind fun ⟨params, state₂, _⟩ ⟨hParams, h₂⟩ => ?_
    refine (state₂.returnValue_meets h₂).bind fun ⟨returns, state₃, _⟩ ⟨hReturns, h₃⟩ => ?_
    refine (state₃.expect_meets h₃ ':').bind fun ⟨_, state₄, _⟩ h₄ => ?_
    refine (alternatives_meets ';' state₄ h₄.2).bind
      fun ⟨alternatives, state₅, _⟩ ⟨hAlternatives, h₅⟩ => ?_
    refine (state₅.expect_meets h₅ ';').bind fun _ hEnd => ?_
    exact ⟨⟨hName, hAttributes, hParams, hReturns, hAlternatives⟩, hEnd.2⟩
  cases found with
  | no next le => exact hLater ⟨[], next, le⟩ nofun hFound
  | yes _ next lt =>
    refine (next.attributes_meets hFound.2).bind fun result hResult => ?_
    exact hLater (result.weaken (Nat.le_of_lt lt)) hResult.1 hResult.2

theorem ruleName_meets (h : state.IsVerbatim) : state.ruleName.Meets
    (Ahead.Meets fun value => value.1.IsVerbatim source) := by
  refine (state.expectIdent_meets h _).bind fun ⟨name, state₁, _⟩ ⟨hName, h₁⟩ => ?_
  dsimp only
  split
  · exact (state₁.expectIdent_meets h₁ _).bind fun _ hOther => hOther
  · exact ⟨hName, h₁⟩

theorem rule_meets (h : state.IsVerbatim) : state.rule.Meets (Ahead.Meets fun _ => True) := by
  refine (state.ruleName_meets h).bind fun ⟨⟨name, isPublic⟩, state₁, _⟩ ⟨hName, h₁⟩ => ?_
  dsimp only
  by_cases hToken : name.isToken
  · rw [if_pos hToken]
    exact h₁.failAt hName.isPlace rfl
  rw [if_neg hToken]
  have hBody := state₁.ruleBody_meets hName isPublic h₁
  cases hResult : ruleBody name isPublic state₁ with
  | ok result =>
    rw [hResult] at hBody
    obtain ⟨rule, state₂, _⟩ := result
    obtain ⟨hRule, h₂⟩ := hBody
    refine ⟨trivial, { h₂ with rules := ?_ }⟩
    exact List.forall_mem_append.2 ⟨h₂.rules, List.forall_mem_singleton.2 hRule⟩
  | error failure =>
    rw [hResult] at hBody
    obtain ⟨hError, h₂⟩ := hBody
    refine ⟨hError, { h₂ with malformed := ?_ }⟩
    exact List.forall_mem_append.2 ⟨h₂.malformed, List.forall_mem_singleton.2 hName⟩

/-! ### Other items -/

theorem tokenNames_meets (h : state.IsVerbatim) :
    state.tokenNames.Meets (Onward.Meets fun _ => True) := by
  fun_induction tokenNames state with
  | case1 state ih =>
    refine (state.eat_meets h '}').bind fun found hFound => ?_
    cases found with
    | yes _ state₁ _ => exact hFound
    | no state₁ h₁ =>
      refine (state₁.expectIdent_meets hFound _).bind ?_
      rintro ⟨token, state₂, h₂⟩ ⟨hName, hState₂⟩
      -- a token that has been declared before is not added
      have hToken : (state₂.update (·.addToken token)).IsVerbatim := by
        show (state₂.grammar.addToken token).IsVerbatim source
        rw [SourceGrammar.addToken]
        split
        · exact hState₂
        · refine { hState₂ with tokens := ?_ }
          exact List.forall_mem_append.2 ⟨hState₂.tokens, List.forall_mem_singleton.2 hName⟩
      dsimp only
      split
      · refine (eat_meets _ hToken ',').bind fun found hFound => ?_
        cases found with
        | yes _ state₄ h₄ =>
          exact (ih state₁ h₁ token state₂ h₂ state₄ h₄ hFound.2).bind fun _ hRest => hRest
        | no state₄ _ => exact (state₄.expect_meets hFound '}').bind fun _ hEnd => hEnd
      · exact hState₂.failAt hName.isPlace rfl

theorem tokenList_meets (h : state.IsVerbatim) :
    state.tokenList.Meets (Ahead.Meets fun _ => True) := by
  refine (state.expectIdent_meets h _).bind fun ⟨_, state₁, _⟩ h₁ => ?_
  refine (state₁.expect_meets h₁.2 '{').bind fun ⟨_, state₂, _⟩ h₂ => ?_
  exact (state₂.tokenNames_meets h₂.2).bind fun _ hRest => hRest

theorem prelude_meets (h : state.IsVerbatim) :
    state.prelude.Meets (Ahead.Meets fun _ => True) := by
  refine (state.expectIdent_meets h _).bind fun ⟨_, state₁, _⟩ h₁ => ?_
  refine (state₁.expect_meets h₁.2 '{').bind fun ⟨_, state₂, _⟩ h₂ => ?_
  refine (state₂.fragment_meets h₂.2 ['}'] false).bind fun ⟨items, state₃, _⟩ ⟨hItems, h₃⟩ => ?_
  refine (state₃.expect_meets h₃ '}').bind fun ⟨_, state₄, _⟩ ⟨_, h₄⟩ => ?_
  refine ⟨trivial, { h₄ with prelude := ?_ }⟩
  exact List.forall_mem_append.2 ⟨h₄.prelude, List.forall_mem_singleton.2 hItems⟩

theorem option_meets (h : state.IsVerbatim) : state.option.Meets (Ahead.Meets fun _ => True) := by
  refine (state.expect_meets h '#').bind fun ⟨_, state₁, _⟩ h₁ => ?_
  refine (state₁.expect_meets h₁.2 '!').bind fun ⟨_, state₂, _⟩ h₂ => ?_
  refine (state₂.expect_meets h₂.2 '[').bind fun ⟨_, state₃, _⟩ h₃ => ?_
  refine (state₃.expectIdent_meets h₃.2 _).bind fun ⟨name, state₄, _⟩ ⟨hName, h₄⟩ => ?_
  refine (state₄.parenthesized_meets h₄).bind fun ⟨args, state₅, _⟩ ⟨hArgs, h₅⟩ => ?_
  refine (state₅.expect_meets h₅ ']').bind fun ⟨_, state₆, _⟩ ⟨_, h₆⟩ => ?_
  refine ⟨trivial, { h₆ with options := ?_ }⟩
  exact List.forall_mem_append.2 ⟨h₆.options, List.forall_mem_singleton.2 ⟨hName, hArgs⟩⟩

theorem item_meets (h : state.IsVerbatim) : state.item.Meets (Ahead.Meets fun _ => True) := by
  refine (state.nextChar_meets h).bind fun ⟨c, state₁, _⟩ ⟨_, h₁⟩ => ?_
  dsimp only
  split
  · exact (state₁.option_meets h₁).bind fun _ hItem => hItem
  · split
    · exact (state₁.tokenList_meets h₁).bind fun _ hItem => hItem
    · split
      · exact (state₁.prelude_meets h₁).bind fun _ hItem => hItem
      · split
        · exact (state₁.rule_meets h₁).bind fun _ hItem => hItem
        · exact h₁.failHere rfl

theorem header_meets (h : state.IsVerbatim) :
    state.header.Meets (Onward.Meets fun _ => True) := by
  have hIdent := state.ident_meets h
  rw [header]
  -- a word that starts no header is given back
  cases hFound : state.ident with
  | error failure =>
    rw [hFound] at hIdent
    exact ⟨hIdent.1, h⟩
  | ok found =>
    rw [hFound] at hIdent
    cases found with
    | no next le => exact ⟨trivial, h⟩
    | yes word state₁ _ =>
      dsimp only
      split
      · refine (state₁.expectIdent_meets hIdent.2 _).bind ?_
        rintro ⟨keyword, state₂, _⟩ ⟨hKeyword, h₂⟩
        dsimp only
        split
        · refine (state₂.expectIdent_meets h₂ _).bind ?_
          rintro ⟨name, state₃, _⟩ ⟨hName, h₃⟩
          have hNamed : (state₃.update fun grammar => { grammar with name }).IsVerbatim :=
            { h₃ with name := .inr hName }
          exact (expect_meets _ hNamed ';').bind fun _ hEnd => hEnd
        · exact h₂.failAt hKeyword.isPlace rfl
      · exact ⟨trivial, h⟩

/-- All items of a text stand in the text, and what is wrong with them is at positions of the
text. -/
theorem items_isVerbatim (h : state.IsVerbatim) :
    (∀ error ∈ state.items.1, error.IsLocated source) ∧ state.items.2.IsVerbatim source := by
  fun_induction items state with
  | case1 _ state error next hChar =>
    -- a comment in front of the next item is left open
    have hNext := state.nextChar_meets h
    rw [hChar] at hNext
    exact ⟨List.forall_mem_singleton.2 hNext.1, hNext.2⟩
  | case2 _ state _ state₁ _ hChar =>
    -- the end of the text
    have hNext := state.nextChar_meets h
    rw [hChar] at hNext
    exact ⟨nofun, hNext.2⟩
  | case3 _ state _ state₁ _ hChar _ _ state₂ _ hItem ih =>
    have hNext := state.nextChar_meets h
    rw [hChar] at hNext
    have hMeets := state₁.tighten.item_meets hNext.2
    rw [hItem] at hMeets
    exact ih hMeets.2
  | case4 _ state _ state₁ _ hChar _ error state₂ hItem state₃ _ hRecover errors _ hItems ih =>
    -- a faulty item, behind which reading goes on
    have hNext := state.nextChar_meets h
    rw [hChar] at hNext
    have hMeets := state₁.tighten.item_meets hNext.2
    rw [hItem] at hMeets
    have hLater := state₂.recover_isVerbatim hMeets.2 0
    rw [hRecover] at hLater
    have hRest := ih hLater
    rw [hItems] at hRest
    exact ⟨List.forall_mem_cons.2 ⟨hMeets.1, hRest.1⟩, hRest.2⟩

end ReadState

namespace SourceGrammar

theorem isVerbatim_empty (source : List Char) : SourceGrammar.IsVerbatim source {} :=
  ⟨.inl rfl, nofun, nofun, nofun, nofun, nofun, nofun⟩

/-- What is read of a text stands in the text, and what is wrong with it is at positions of the
text. -/
theorem parse_isVerbatim (source : List Char) :
    (∀ error ∈ (parse source).1, error.IsLocated source) ∧ (parse source).2.IsVerbatim source := by
  let start : ReadState source source.length := ⟨.start source, {}, Nat.le_refl _⟩
  have hStart : start.IsVerbatim := isVerbatim_empty source
  have hHeader := start.header_meets hStart
  rw [parse]
  cases hResult : start.header with
  | ok result =>
    rw [hResult] at hHeader
    exact result.state.items_isVerbatim hHeader.2
  | error failure =>
    rw [hResult] at hHeader
    have hItems := (failure.2.recover 0).1.items_isVerbatim
      (failure.2.recover_isVerbatim hHeader.2 0)
    exact ⟨List.forall_mem_cons.2 ⟨hHeader.1, hItems.1⟩, hItems.2⟩

end SourceGrammar

end TreeGrammar
