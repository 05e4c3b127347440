import TreeGrammar.Fixpoint
import TreeGrammar.Grammar.Basic
import TreeGrammar.Lookahead.Set

/-!
# What an element may start with

A node, a token and a wildcard consume one node of the list of siblings; code consumes nothing. What
a sequence may start with is therefore found among the first nodes that its elements match, up to
and with the first element that cannot match nothing. Rules call each other, so that the sets of all
rules are computed together.

## Main definitions

* `FirstSet`: what may come first, and whether there may be nothing at all
* `Expr.first`, `Alternative.sequenceFirst`, `Alternative.alternativesFirst`: the sets of elements,
  sequences and alternatives, the sets of rules being given
* `Rules.firstSets`: the sets of the rules of a grammar
-/

namespace TreeGrammar

/-- The nodes with which a match may start, and whether it may consume no node. -/
structure FirstSet where
  set : LookaheadSet := ∅
  nullable : Bool := false
  deriving DecidableEq, Inhabited

namespace FirstSet

/-- A match that consumes no node. -/
def nothing : FirstSet := { nullable := true }

/-- A match that starts with a node of the given set. -/
def consuming (set : LookaheadSet) : FirstSet := { set }

/-- A match followed by another one. -/
def andThen (a b : FirstSet) : FirstSet :=
  if a.nullable then { set := a.set.union b.set, nullable := b.nullable } else a

/-- Either of two matches. -/
def orElse (a b : FirstSet) : FirstSet :=
  { set := a.set.union b.set, nullable := a.nullable || b.nullable }

/-- A match that may be left out. -/
def orNothing (a : FirstSet) : FirstSet := { a with nullable := true }

/-- What is seen where the match starts, if `follow` is seen where it ends. -/
def predict (a : FirstSet) (follow : LookaheadSet) : LookaheadSet :=
  if a.nullable then a.set.union follow else a.set

end FirstSet

/-- The group may be left out. -/
def Repetition.maySkip : Repetition → Bool
  | optional | star => true
  | once | plus => false

mutual

/-- What an element may start with. -/
def Expr.first (rule : String → FirstSet) : Expr → FirstSet
  | .node _ _ _ name _ | .token _ _ _ name => .consuming (.ofLabel name.name)
  | .wildcard .. => .consuming .anyNode
  | .rule _ _ _ name _ => rule name.name
  | .subrule _ _ repetition alternatives =>
    let first := Alternative.alternativesFirst rule alternatives
    if repetition.maySkip then first.orNothing else first
  | .action .. | .predicate .. => .nothing

/-- What a sequence of elements may start with. -/
def Alternative.sequenceFirst (rule : String → FirstSet) : List Expr → FirstSet
  | [] => .nothing
  | expr :: exprs => (expr.first rule).andThen (Alternative.sequenceFirst rule exprs)

/-- What one of some alternatives may start with. -/
def Alternative.alternativesFirst (rule : String → FirstSet) : List Alternative → FirstSet
  | [] => {}
  | .mk _ elements _ :: alternatives =>
    (Alternative.sequenceFirst rule elements).orElse
      (Alternative.alternativesFirst rule alternatives)

end

/-- What an alternative may start with. -/
def Alternative.first (rule : String → FirstSet) (alternative : Alternative) : FirstSet :=
  sequenceFirst rule alternative.elements

namespace Rules

/-- The set of a rule given by its name, in a list with one set for each rule. A rule that is not
declared starts with nothing that could be seen. -/
def firstOf (rules : Rules) (sets : List FirstSet) (name : String) : FirstSet :=
  ((rules.index? name).bind (sets[·]?)).getD {}

/-- The sets of the rules as they follow from the sets of the rules that they call. -/
def firstStep (rules : Rules) (sets : List FirstSet) : List FirstSet :=
  rules.map fun rule => Alternative.alternativesFirst (rules.firstOf sets) rule.alternatives

/-- The number of times that the set of some rule can grow: a set grows by a label of an element, by
any node, by the end of the list or by becoming nullable. -/
def growthBound (rules : Rules) : Nat := rules.length * (rules.exprs.length + 3) + 1

/-- What each rule may start with: the least sets that agree with each other. -/
def firstSets (rules : Rules) : List FirstSet :=
  iterate rules.firstStep rules.growthBound (rules.map fun _ => {})

end Rules

end TreeGrammar
