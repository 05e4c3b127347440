import TreeGrammar.Grammar.Parser

/-!
# Texts further on

A text may be a part of a longer one. What is read of it is then the same, but for the positions,
which are relative to the place where it stands, and for the numbers of elements, which are counted
on from those that have been read before.

## Main definitions

* `Shift`: where a text stands in a longer one
* `Shift.span`, `Shift.expr`, `Shift.rule`, `Shift.error`: what is read of a text, further on

## Main results

* `Shift.span_advance`: positions after some characters of the text
-/

namespace TreeGrammar

/-- Where a text stands in a longer one: its position, and the number of elements that have been
read before it. -/
structure Shift where
  place : Span := Span.start
  count : Nat := 0

namespace Shift

variable (shift : Shift)

/-- A position of the text. Columns only change in its first line. -/
def span (span : Span) : Span :=
  if span.line = 1 then
    ⟨shift.place.line, shift.place.column + span.column - 1, shift.place.offset + span.offset⟩
  else ⟨shift.place.line + span.line - 1, span.column, shift.place.offset + span.offset⟩

/-- A name in the text. -/
def ident (ident : Ident) : Ident := { ident with span := shift.span ident.span }

/-- A piece of code in the text. -/
def fragment (code : Fragment) : Fragment := { code with span := shift.span code.span }

/-- An attribute or a return value. -/
def attr (attr : Attribute) : Attribute :=
  ⟨shift.ident attr.name, shift.fragment attr.type, attr.init.map shift.fragment⟩

mutual

/-- An element. -/
def expr : Expr → Expr
  | .node id span label name children =>
    .node (shift.count + id) (shift.span span) (label.map shift.ident) (shift.ident name)
      (exprs children)
  | .token id span label name =>
    .token (shift.count + id) (shift.span span) (label.map shift.ident) (shift.ident name)
  | .wildcard id span label =>
    .wildcard (shift.count + id) (shift.span span) (label.map shift.ident)
  | .rule id span label name args =>
    .rule (shift.count + id) (shift.span span) (label.map shift.ident) (shift.ident name)
      (args.map shift.fragment)
  | .subrule id span repetition choices =>
    .subrule (shift.count + id) (shift.span span) repetition (alternatives choices)
  | .action id code => .action (shift.count + id) (shift.fragment code)
  | .predicate id code => .predicate (shift.count + id) (shift.fragment code)

/-- The elements of a sequence. -/
def exprs : List Expr → List Expr
  | [] => []
  | first :: others => expr first :: exprs others

/-- Alternatives. -/
def alternatives : List Alternative → List Alternative
  | [] => []
  | .mk guard elements span :: others =>
    .mk (guard.map shift.fragment) (exprs elements) (shift.span span) :: alternatives others

end

/-- An alternative. -/
def alternative : Alternative → Alternative
  | .mk guard elements span =>
    .mk (guard.map shift.fragment) (shift.exprs elements) (shift.span span)

@[simp] theorem exprs_nil : shift.exprs [] = [] := by rw [exprs]

@[simp] theorem exprs_cons (first : Expr) (others : List Expr) :
    shift.exprs (first :: others) = shift.expr first :: shift.exprs others := by
  rw [exprs]

@[simp] theorem alternatives_nil : shift.alternatives [] = [] := by rw [alternatives]

@[simp] theorem alternatives_cons (first : Alternative) (others : List Alternative) :
    shift.alternatives (first :: others) =
      shift.alternative first :: shift.alternatives others := by
  cases first
  rw [alternatives, alternative]

/-- A rule. -/
def rule (rule : Rule) : Rule where
  name := shift.ident rule.name
  isPublic := rule.isPublic
  attributes := rule.attributes.map shift.attr
  params := rule.params.map shift.fragment
  returns := rule.returns.map shift.attr
  alternatives := shift.alternatives rule.alternatives

/-- The cause of an error, with the positions that it mentions. -/
def cause : SyntaxError.Cause → SyntaxError.Cause
  | .mismatchedDelimiter found opened closing =>
    .mismatchedDelimiter found (shift.span opened) closing
  | .repeatedLabel label suffix => .repeatedLabel label (shift.span suffix)
  | cause => cause

/-- A syntax error. -/
def error (error : SyntaxError) : SyntaxError := ⟨shift.span error.span, shift.cause error.cause⟩

/-! ### Positions -/

variable {shift}

theorem span_next {span : Span} (hLine : 1 ≤ span.line) (hColumn : 1 ≤ span.column) (c : Char) :
    shift.span (span.next c) = (shift.span span).next c := by
  have hZero : span.line ≠ 0 := by omega
  by_cases hEnd : c = '\n'
  · -- after a line feed, columns no longer depend on where the text stands
    by_cases hFirst : span.line = 1
    · simp [Shift.span, Span.next, hEnd, hFirst, Nat.add_assoc]
    · simp [Shift.span, Span.next, hEnd, hFirst, hZero, Nat.add_assoc]
      omega
  · by_cases hFirst : span.line = 1
    · simp [Shift.span, Span.next, hEnd, hFirst, Nat.add_assoc]
      omega
    · simp [Shift.span, Span.next, hEnd, hFirst, Nat.add_assoc]

/-- A position in the text is the same further on as one in the longer text. -/
theorem span_advance (text : List Char) :
    shift.span (Span.start.advance text) = shift.place.advance text := by
  have hAll : ∀ (text : List Char) (span : Span), 1 ≤ span.line → 1 ≤ span.column →
      shift.span (span.advance text) = (shift.span span).advance text := by
    intro text
    induction text with
    | nil => exact fun _ _ _ => rfl
    | cons c text ih =>
      intro span hLine hColumn
      have hNext : 1 ≤ (span.next c).line ∧ 1 ≤ (span.next c).column := by
        rw [Span.next]
        split
        · exact ⟨Nat.le_add_left 1 _, Nat.le_refl 1⟩
        · exact ⟨hLine, Nat.le_add_left 1 _⟩
      rw [Span.advance_cons, ih _ hNext.1 hNext.2, span_next hLine hColumn, Span.advance_cons]
  exact hAll text Span.start (Nat.le_refl 1) (Nat.le_refl 1)

end Shift

end TreeGrammar
