import TreeGrammar.Diagnostic
import TreeGrammar.Grammar.CallGraph
import TreeGrammar.Lookahead.First

/-!
# Walks that would not end

A walk has to consume a node before it calls the same rule again on the same list of siblings, and
before it repeats a group. Otherwise it would go on forever.

## Main definitions

* `Rules.leftCalls`: the rules that a rule calls before it consumes a node
* `cycles`: cycles of calls
* `Rules.recursionErrors`, `Rules.repeatErrors`: where a walk would not end
-/

namespace TreeGrammar

mutual

/-- The names of the rules that an element may call before it consumes a node. -/
def Expr.leftCalls (first : String → FirstSet) : Expr → List String
  | .rule _ _ _ name _ => [name.name]
  | .subrule _ _ _ alternatives => Alternative.alternativesLeftCalls first alternatives
  | .node .. | .token .. | .wildcard .. | .action .. | .predicate .. => []

/-- The names of the rules that a sequence may call before it consumes a node. -/
def Alternative.sequenceLeftCalls (first : String → FirstSet) : List Expr → List String
  | [] => []
  | expr :: exprs =>
    expr.leftCalls first ++
      if (expr.first first).nullable then Alternative.sequenceLeftCalls first exprs else []

/-- The names of the rules that alternatives may call before they consume a node. -/
def Alternative.alternativesLeftCalls (first : String → FirstSet) : List Alternative → List String
  | [] => []
  | .mk _ elements _ :: alternatives =>
    Alternative.sequenceLeftCalls first elements ++
      Alternative.alternativesLeftCalls first alternatives

end

/-- For each rule the numbers of the rules that it may call before it consumes a node, in increasing
order. -/
def Rules.leftCalls (rules : Rules) (first : String → FirstSet) : CallGraph where
  edges := rules.map fun rule =>
    let called := (Alternative.alternativesLeftCalls first rule.alternatives).filterMap rules.index?
    (List.range rules.length).filter (· ∈ called)

/-- The cycles that are met when calls are followed depth first. The agenda has the rules still to
be visited, each with the path of calls that leads to it, and `free` has the rules on no path so
far. A cycle starts with the rule that is met again. -/
def cycles (next : Nat → List Nat) (free : List Nat) : List (List Nat × Nat) → List (List Nat)
  | [] => []
  | (path, rule) :: agenda =>
    if rule ∈ path then path.dropWhile (· ≠ rule) :: cycles next free agenda
    else if _h : rule ∈ free then
      cycles next (free.erase rule) ((next rule).map (path ++ [rule], ·) ++ agenda)
    else cycles next free agenda
  -- a rule that is still free may put its calls on the agenda
  termination_by agenda => (free.flatMap next).length + free.length + agenda.length
  decreasing_by
    · exact Nat.lt_succ_self _
    · have hCalls := ((List.perm_cons_erase _h).flatMap_right next).length_eq
      have hFree := (List.perm_cons_erase _h).length_eq
      simp only [List.flatMap_cons, List.length_append, List.length_cons] at hCalls hFree
      simp only [List.length_append, List.length_map, List.length_cons]
      omega
    · exact Nat.lt_succ_self _

/-- Two cycles consist of the same rules. -/
def sameRules (a b : List Nat) : Bool := a.all (· ∈ b) && b.all (· ∈ a)

/-- The cycles without those that consist of the same rules as an earlier one. -/
def distinctCycles (cycles : List (List Nat)) : List (List Nat) :=
  cycles.foldl
    (fun found cycle => if found.any (sameRules cycle) then found else found ++ [cycle]) []

namespace Rules

/-- The cycles of rules that call each other before a node is consumed. -/
def leftCycles (rules : Rules) (first : String → FirstSet) : List (List Nat) :=
  let calls := rules.leftCalls first
  distinctCycles (cycles calls.callees calls.nodes (calls.nodes.map ([], ·)))

/-- The rules that call each other before a node is consumed. -/
def recursionErrors (rules : Rules) (first : String → FirstSet) : List Diagnostic :=
  (rules.leftCycles first).filterMap fun cycle =>
    (cycle.head?.bind (rules[·]?)).map fun rule =>
      ⟨rule.name.span, .leftRecursion (cycle.map rules.nameOf)⟩

end Rules

/-- What is wrong with an element if it is a repeated group: the first alternative that may match
nothing. -/
def Expr.repeatError? (first : String → FirstSet) : Expr → Option Diagnostic
  | .subrule _ span repetition alternatives =>
    if repetition.isRepeat then
      (alternatives.findIdx? fun alternative => (alternative.first first).nullable).map
        fun alternative => ⟨span, .nullableRepeat repetition alternative⟩
    else none
  | _ => none

/-- The repeated groups that may match nothing. -/
def Rules.repeatErrors (rules : Rules) (first : String → FirstSet) : List Diagnostic :=
  rules.exprs.filterMap (Expr.repeatError? first)

end TreeGrammar
