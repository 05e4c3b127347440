import TreeGrammar.Lookahead.Branch
import TreeGrammar.Lookahead.Follow

/-!
# Decisions

Where a walk has to choose, it looks at the next node. This happens at the alternatives of a rule or
of a group if there are several of them or if one has a guard, and at every group that may be left
out or repeated. Branches that the same node predicts are in conflict; a guard may settle a
conflict, otherwise the first alternative is taken, and an alternative rather than the exit.

## Main definitions

* `Decision`: a place with its candidates and its exit
* `Decision.conflicts`, `Decision.resolution`: what its branches have in common
* `Rules.decisions`: the decisions of a grammar
-/

namespace TreeGrammar

/-- The place of a decision. -/
inductive DecisionSite where
  /-- The alternatives of the rule with the given number. -/
  | rule (index : Nat)
  /-- The group that is the element with the given number. -/
  | subrule (expr : Nat)
  deriving DecidableEq, Repr

/-- How many times alternatives are chosen at a decision. -/
inductive DecisionKind where
  | alternatives
  | optional
  | star
  | plus
  deriving DecidableEq, Repr

namespace DecisionKind

/-- The name of a kind. -/
def name : DecisionKind → String
  | alternatives => "Alternatives"
  | optional => "Optional"
  | star => "Star"
  | plus => "Plus"

/-- There is a way around or out of the alternatives. -/
def hasExit (kind : DecisionKind) : Bool := kind ≠ alternatives

end DecisionKind

/-- The kind of the decision of a group. -/
def Repetition.decisionKind : Repetition → DecisionKind
  | once => .alternatives
  | optional => .optional
  | star => .star
  | plus => .plus

/-- An alternative as a decision sees it. -/
structure Candidate where
  /-- What may be seen where the alternative is entered. -/
  prediction : LookaheadSet
  guarded : Bool
  nullable : Bool
  deriving DecidableEq

/-- Two branches that a common symbol predicts. -/
structure Conflict where
  first : Branch
  second : Branch
  overlap : LookaheadSet
  /-- A guard takes part in the conflict. -/
  gated : Bool
  deriving DecidableEq

/-- How the conflicts of a decision are settled. -/
inductive Resolution where
  /-- There is none. -/
  | disjoint
  /-- A guard takes part in each. -/
  | predicateGated
  /-- The first branch is taken in some. -/
  | declarationOrder
  deriving DecidableEq, Repr

/-- The name of a resolution. -/
def Resolution.name : Resolution → String
  | disjoint => "Disjoint"
  | predicateGated => "PredicateGated"
  | declarationOrder => "DeclarationOrder"

/-- A place where a walk chooses between alternatives. -/
structure Decision where
  id : Nat
  site : DecisionSite
  kind : DecisionKind
  /-- The number of the rule. -/
  rule : Nat
  span : Span
  /-- One for each alternative, in order. -/
  candidates : List Candidate
  /-- What may be seen where the alternatives are left out or not repeated. -/
  exit : Option LookaheadSet
  deriving DecidableEq

/-- The conflict of two branches, if they have something in common. -/
def Conflict.between (first second : Branch) (a b : LookaheadSet) (gated : Bool) :
    Option Conflict :=
  let overlap := a.overlap b
  if overlap.isEmpty then none else some { first, second, overlap, gated }

/-- The conflicts of the candidate with number `i` with those after it, then with the exit, and
those of the candidates after it. -/
def Candidate.conflicts (exit : Option LookaheadSet) : Nat → List Candidate → List Conflict
  | _, [] => []
  | i, candidate :: later =>
    (later.zipIdx (i + 1)).filterMap (fun (other, j) =>
      Conflict.between (.alternative i) (.alternative j) candidate.prediction other.prediction
        (candidate.guarded || other.guarded)) ++
    (exit.bind fun exit =>
      Conflict.between (.alternative i) .exit candidate.prediction exit candidate.guarded).toList ++
    conflicts exit (i + 1) later

namespace Decision

/-- The conflicts of a decision, by first branch and then by second branch. -/
def conflicts (decision : Decision) : List Conflict :=
  Candidate.conflicts decision.exit 0 decision.candidates

/-- How the conflicts of a decision are settled. -/
def resolution (decision : Decision) : Resolution :=
  let conflicts := decision.conflicts
  if conflicts.isEmpty then .disjoint
  else if conflicts.all Conflict.gated then .predicateGated
  else .declarationOrder

/-- What predicts one of the candidates. -/
def viable (decision : Decision) : LookaheadSet :=
  decision.candidates.foldl (fun set candidate => set.union candidate.prediction) ∅

/-- One of the candidates has a guard. -/
def hasGuards (decision : Decision) : Bool := decision.candidates.any Candidate.guarded

/-- The text of a decision. -/
protected def toString (decision : Decision) : String :=
  let candidates := decision.candidates.zipIdx.map fun (candidate, i) =>
    s!" {(Branch.alternative i).toString} {candidate.prediction.toString}" ++
      if candidate.guarded then " if guard" else ""
  let exit := match decision.exit with
    | some exit => s!" {Branch.exit.toString} {exit.toString}"
    | none => ""
  s!"decision {decision.id} ({decision.kind.name}, {decision.resolution.name}) at " ++
    s!"{decision.span.toString}:{String.join candidates}{exit}"

end Decision

/-- The alternatives of a rule or a plain group have to be chosen by a decision. -/
def Alternative.needDecision (alternatives : List Alternative) : Bool :=
  2 ≤ alternatives.length || alternatives.any isGuarded

/-- The alternatives as candidates where `follow` may be seen after them. -/
def Alternative.candidates (first : String → FirstSet) (follow : LookaheadSet)
    (alternatives : List Alternative) : List Candidate :=
  alternatives.map fun alternative =>
    let start := alternative.first first
    { prediction := start.predict follow, guarded := alternative.isGuarded,
      nullable := start.nullable }

/-- The decision at an element, with the number `id`, if there is one. -/
def Occurrence.decision? (first : String → FirstSet) (rule id : Nat) (occurrence : Occurrence) :
    Option Decision :=
  let follow := occurrence.follow
  match occurrence.expr with
  | .subrule expr span .once alternatives =>
    if Alternative.needDecision alternatives then
      some {
        id, site := .subrule expr, kind := .alternatives, rule, span
        candidates := Alternative.candidates first follow alternatives
        exit := none }
    else none
  | .subrule expr span repetition alternatives =>
    let inner :=
      if repetition.isRepeat then
        follow.union (Alternative.alternativesFirst first alternatives).set
      else follow
    some {
      id, site := .subrule expr, kind := repetition.decisionKind, rule, span
      candidates := Alternative.candidates first inner alternatives
      exit := some follow }
  | _ => none

/-- The decision at the alternatives of a rule, with the number `id`, if there is one. -/
def Rule.decision? (first : String → FirstSet) (follow : LookaheadSet) (index id : Nat)
    (rule : Rule) : Option Decision :=
  if Alternative.needDecision rule.alternatives then
    some {
      id, site := .rule index, kind := .alternatives, rule := index, span := rule.name.span
      candidates := Alternative.candidates first follow rule.alternatives
      exit := none }
  else none

namespace Rules

/-- The decisions of a grammar, given what follows each rule: those of a rule after each other, that
of its alternatives first and the others in the order in which their groups begin. -/
def decisions (rules : Rules) (first : String → FirstSet) (follows : List LookaheadSet) :
    List Decision :=
  let number (decisions : List Decision) (decision : Nat → Option Decision) : List Decision :=
    decisions ++ (decision decisions.length).toList
  (rules.zip follows).zipIdx.foldl
    (fun decisions ((rule, follow), index) =>
      (Alternative.alternativesOccurrences first follow rule.alternatives).foldl
        (fun decisions occurrence => number decisions (occurrence.decision? first index))
        (number decisions fun id => rule.decision? first follow index id))
    []

end Rules

end TreeGrammar
