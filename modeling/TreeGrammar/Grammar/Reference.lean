import TreeGrammar.Grammar.Basic
import TreeGrammar.Grammar.Literal

/-!
# References to attributes in Rust code

In the code of a grammar, `@x` means the attribute `x`; the name has to follow the mark directly. A
mark after a name, as in `n @ 1..=5`, belongs to a Rust pattern, and any other mark is stray.
Nothing inside literals and comments is a reference.

## Main definitions

* `Piece`, `pieces`: code cut into references, stray marks and the text between them
* `Fragment.references`, `Fragment.strayMarks`: what is found in a piece of code
* `Fragment.substituted`: the code with its references replaced
* `Rule.fragments`: the code of a rule that may refer to attributes

## Main results

* `flatMap_source_pieces`: the pieces of a text make up the text
-/

namespace TreeGrammar

/-- A part of a piece of code. -/
inductive Piece where
  | plain (text : List Char)
  /-- A mark and a name. -/
  | reference (name : List Char)
  /-- A mark that means nothing. -/
  | stray
  deriving DecidableEq, Repr

/-- The text of a part. -/
def Piece.source : Piece → List Char
  | plain text => text
  | reference name => '@' :: name
  | stray => ['@']

/-- The parts of `text`; `before` is the text before it, its last character first. What follows a
literal or comment that is left open is one part. -/
def pieces (before text : List Char) : List Piece :=
  match text with
  | [] => []
  | c :: rest =>
    match _h : literalLength before (c :: rest) with
    | .error _ => [.plain (c :: rest)]
    | .ok (some length) =>
      .plain ((c :: rest).take length) ::
        pieces (((c :: rest).take length).reverse ++ before) ((c :: rest).drop length)
    | .ok none =>
      if c = '@' then
        if rest.head?.any isIdentStart then
          .reference (rest.takeWhile isIdentChar) ::
            pieces ((rest.takeWhile isIdentChar).reverse ++ '@' :: before)
              (rest.dropWhile isIdentChar)
        else if (before.dropWhile Text.isBlank).head?.any isIdentChar then
          .plain ['@'] :: pieces ('@' :: before) rest
        else .stray :: pieces ('@' :: before) rest
      else .plain [c] :: pieces (c :: before) rest
  termination_by text.length
  decreasing_by
    · have := literalLength_pos _h
      simp only [List.length_drop, List.length_cons]
      omega
    · exact Nat.lt_succ_of_le (List.dropWhile_suffix _).length_le
    all_goals simp

/-- The parts of a text make up the text. -/
theorem flatMap_source_pieces (before text : List Char) :
    (pieces before text).flatMap Piece.source = text := by
  fun_induction pieces before text <;> simp_all [Piece.source, List.take_append_drop]

namespace Fragment

/-- The parts of a piece of code. -/
def pieces (fragment : Fragment) : List Piece := TreeGrammar.pieces [] fragment.text.toList

/-- The parts of a piece of code with their positions. -/
def locatedPieces (fragment : Fragment) : List (Piece × Span) :=
  let rec locate (span : Span) : List Piece → List (Piece × Span)
    | [] => []
    | piece :: rest => (piece, span) :: locate (span.advance piece.source) rest
  locate fragment.span fragment.pieces

/-- The names of the attributes to which a piece of code refers, with the positions of the marks. -/
def references (fragment : Fragment) : List Ident :=
  fragment.locatedPieces.filterMap fun
    | (.reference name, span) => some ⟨String.ofList name, span⟩
    | _ => none

/-- The positions of the stray marks in a piece of code. -/
def strayMarks (fragment : Fragment) : List Span :=
  fragment.locatedPieces.filterMap fun
    | (.stray, span) => some span
    | _ => none

/-- The text of a piece of code with another text in the place of every reference. -/
def substituted (fragment : Fragment) (replacement : List Char → List Char) : List Char :=
  fragment.pieces.flatMap fun
    | .reference name => replacement name
    | piece => piece.source

end Fragment

/-- The guards of alternatives. -/
def Alternative.guards (alternatives : List Alternative) : List Fragment :=
  alternatives.filterMap guard

mutual

/-- The code inside an element; the guards of a group stand before the code of its alternatives. -/
def Expr.fragments : Expr → List Fragment
  | .node _ _ _ _ children => Alternative.sequenceFragments children
  | .token .. | .wildcard .. => []
  | .rule _ _ _ _ args => args.toList
  | .subrule _ _ _ alternatives =>
    Alternative.guards alternatives ++ Alternative.alternativesFragments alternatives
  | .action _ code | .predicate _ code => [code]

/-- The code inside the elements of a sequence. -/
def Alternative.sequenceFragments : List Expr → List Fragment
  | [] => []
  | expr :: exprs => expr.fragments ++ Alternative.sequenceFragments exprs

/-- The code inside the elements of alternatives, without their guards. -/
def Alternative.alternativesFragments : List Alternative → List Fragment
  | [] => []
  | .mk _ elements _ :: alternatives =>
    Alternative.sequenceFragments elements ++ Alternative.alternativesFragments alternatives

end

/-- The code of a rule that may refer to attributes: guards, actions, predicates and arguments. -/
def Rule.fragments (rule : Rule) : List Fragment :=
  Alternative.guards rule.alternatives ++ Alternative.alternativesFragments rule.alternatives

end TreeGrammar
