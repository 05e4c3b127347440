import TreeGrammar.Lookahead.First

/-!
# What may follow an element

The children of a node are a list of their own, whose end follows the last of them. The end of the
list of roots follows the rules at which a walk starts. An element is followed by what the rest of
its sequence may start with and, if the rest may match nothing, by what follows the sequence. An
alternative is followed by what follows its group, and in a repeated group also by its alternatives.

## Main definitions

* `Occurrence`: an element with what follows it
* `Expr.occurrences`: an element and all elements inside it with what follows them
* `Rules.followSets`: what follows each rule of a grammar
-/

namespace TreeGrammar

/-- An element of a rule and what may be seen after it. -/
structure Occurrence where
  expr : Expr
  follow : LookaheadSet

mutual

/-- An element that is followed by the given set, and all elements inside it, each before those
inside it. -/
def Expr.occurrences (first : String → FirstSet) (follow : LookaheadSet) :
    Expr → List Occurrence
  | .node id span label name children =>
    ⟨.node id span label name children, follow⟩ ::
      Alternative.sequenceOccurrences first .endOfList children
  | .subrule id span repetition alternatives =>
    ⟨.subrule id span repetition alternatives, follow⟩ ::
      Alternative.alternativesOccurrences first
        (if repetition.isRepeat then
          follow.union (Alternative.alternativesFirst first alternatives).set
        else follow)
        alternatives
  | .token id span label name => [⟨.token id span label name, follow⟩]
  | .wildcard id span label => [⟨.wildcard id span label, follow⟩]
  | .rule id span label name args => [⟨.rule id span label name args, follow⟩]
  | .action id code => [⟨.action id code, follow⟩]
  | .predicate id code => [⟨.predicate id code, follow⟩]

/-- The elements of a sequence that is followed by the given set, with all elements inside them. -/
def Alternative.sequenceOccurrences (first : String → FirstSet) (follow : LookaheadSet) :
    List Expr → List Occurrence
  | [] => []
  | expr :: exprs =>
    expr.occurrences first ((Alternative.sequenceFirst first exprs).predict follow) ++
      Alternative.sequenceOccurrences first follow exprs

/-- The elements of alternatives that are followed by the given set, with all elements inside
them. -/
def Alternative.alternativesOccurrences (first : String → FirstSet) (follow : LookaheadSet) :
    List Alternative → List Occurrence
  | [] => []
  | .mk _ elements _ :: alternatives =>
    Alternative.sequenceOccurrences first follow elements ++
      Alternative.alternativesOccurrences first follow alternatives

end

namespace Rules

/-- What follows the calls of the rule with the given number among some occurrences. -/
def followOfCalls (rules : Rules) (index : Nat) (occurrences : List Occurrence) : LookaheadSet :=
  occurrences.foldl
    (fun set occurrence =>
      match occurrence.expr with
      | .rule _ _ _ called _ =>
        if rules.index? called.name = some index then set.union occurrence.follow else set
      | _ => set)
    ∅

/-- The elements of all rules, given what follows each rule. -/
def occurrences (rules : Rules) (first : String → FirstSet) (follows : List LookaheadSet) :
    List Occurrence :=
  (rules.zip follows).flatMap fun (rule, follow) =>
    Alternative.alternativesOccurrences first follow rule.alternatives

/-- What follows the rules as it is seen from the calls in the rules. -/
def followStep (rules : Rules) (first : String → FirstSet) (follows : List LookaheadSet) :
    List LookaheadSet :=
  let occurrences := rules.occurrences first follows
  rules.mapIdx fun i _ =>
    (if i ∈ rules.entries then LookaheadSet.endOfList else ∅).union
      (rules.followOfCalls i occurrences)

/-- What follows each rule: the least sets that agree with each other. -/
def followSets (rules : Rules) (first : String → FirstSet) : List LookaheadSet :=
  iterate (rules.followStep first) rules.growthBound (rules.map fun _ => ∅)

end Rules

end TreeGrammar
