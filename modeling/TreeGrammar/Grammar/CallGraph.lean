import TreeGrammar.Grammar.Basic

/-!
# Calls between rules

A rule calls the rules that its alternatives name, inside groups and among the children of nodes
too. The calls are the edges of a graph of the rules' numbers, which is searched breadth first, so
that the first path found to a rule is a shortest one.

## Main definitions

* `CallGraph`: for each rule the rules that it calls
* `CallGraph.search`: the paths from some rules to all rules that can be reached
* `CallGraph.reachable`, `CallGraph.path?`: what can be reached, and how
-/

namespace TreeGrammar

/-- The name of the rule that an element calls. -/
def Expr.called? : Expr → Option String
  | .rule _ _ _ name _ => some name.name
  | _ => none

/-- The names of the rules that a rule calls. -/
def Rule.calls (rule : Rule) : List String := rule.exprs.filterMap Expr.called?

/-- The calls between the rules of a grammar. -/
structure CallGraph where
  /-- For each rule, the numbers of the rules that it calls, in increasing order. -/
  edges : List (List Nat)
  deriving DecidableEq

/-- The calls between the rules of a grammar. -/
def Rules.callGraph (rules : Rules) : CallGraph where
  edges := rules.map fun rule =>
    let called := rule.calls.filterMap rules.index?
    (List.range rules.length).filter (· ∈ called)

namespace CallGraph

/-- The number of rules. -/
def size (graph : CallGraph) : Nat := graph.edges.length

/-- The numbers of all rules. -/
def nodes (graph : CallGraph) : List Nat := List.range graph.size

/-- The rules that a rule calls, in increasing order. -/
def callees (graph : CallGraph) (rule : Nat) : List Nat := graph.edges[rule]?.getD []

/-- The rules that call a rule, in increasing order. -/
def callers (graph : CallGraph) (rule : Nat) : List Nat :=
  graph.nodes.filter fun caller => rule ∈ graph.callees caller

/-- A path that ends at a node: the node and those before it, the nearest one first. -/
structure Path where
  last : Nat
  earlier : List Nat := []
  deriving DecidableEq

namespace Path

/-- The nodes of a path, its start first. -/
def toList (path : Path) : List Nat := path.earlier.reverse ++ [path.last]

/-- A path with one more step. -/
def step (path : Path) (node : Nat) : Path := ⟨node, path.last :: path.earlier⟩

end Path

/-- The nodes of a list that are no next nodes of a path, and the path with each of the others as
one more step. -/
def Path.split (next : Nat → List Nat) (path : Path) (unseen : List Nat) : List Nat × List Path :=
  (unseen.filter (· ∉ next path.last), (unseen.filter (· ∈ next path.last)).map path.step)

theorem Path.length_split (next : Nat → List Nat) (path : Path) (unseen : List Nat) :
    (path.split next unseen).1.length + (path.split next unseen).2.length = unseen.length := by
  induction unseen with
  | nil => rfl
  | cons x xs ih =>
    simp only [split, List.length_map, decide_not] at ih ⊢
    by_cases h : x ∈ next path.last <;> simp [h] <;> omega

/-- Follows the paths in the queue to all nodes that they lead to among the nodes not seen so far,
breadth first; gives one shortest path to each. -/
def search (next : Nat → List Nat) (unseen : List Nat) : List Path → List Path
  | [] => []
  | path :: queue =>
    path :: search next (path.split next unseen).1 (queue ++ (path.split next unseen).2)
  termination_by queue => unseen.length + queue.length
  decreasing_by
    have h := path.length_split next unseen
    rw [List.length_append, List.length_cons]
    omega

/-- The paths from some nodes to all nodes that they lead to, where only the given nodes are
passed. -/
def paths (next : Nat → List Nat) (allowed roots : List Nat) : List Path :=
  let roots := roots.filter (· ∈ allowed)
  search next (allowed.filter (· ∉ roots)) (roots.map ({ last := · }))

/-- The rules that calls lead to from some rules, these included. -/
def reachable (graph : CallGraph) (roots : List Nat) : List Nat :=
  (paths graph.callees graph.nodes roots).map Path.last

/-- A shortest path of calls from one of some rules to a rule, where all rules before it pass a
test. -/
def path? (graph : CallGraph) (roots : List Nat) (target : Nat) (through : Nat → Bool) :
    Option (List Nat) :=
  let allowed := graph.nodes.filter fun rule => through rule || rule = target
  ((paths graph.callees allowed roots).find? (·.last = target)).map Path.toList

end CallGraph

end TreeGrammar
