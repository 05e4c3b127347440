import TreeGrammar.LabelSet

/-!
# Failures of a walk

A walk over a tree fails with a cause and the place where it stopped.

## Main definitions

* `Position`: a place in a list of siblings
* `Failure`: the causes, with `Failure.message` for their texts
-/

namespace TreeGrammar

/-- The name under which the end of a list of siblings is expected. -/
def endOfChildren : String := "<end of children>"

/-- The name under which an arbitrary node is expected. -/
def anyNode : String := "<any node>"

/-- A place in a list of siblings: the label of their parent, none for the root list, and the
number of siblings before it. -/
structure Position where
  parent : Option String
  index : Nat
  deriving DecidableEq, Repr

/-- The text of a place in messages. -/
protected def Position.toString (position : Position) : String :=
  match position.parent with
  | some parent => s!"child {position.index} of `{parent}`"
  | none => s!"root {position.index}"

/-- Why a walk fails. -/
inductive Failure where
  /-- A rule expected one of some symbols and found another one. -/
  | mismatch (rule : String) (expected : List String) (found : Option String)
      (position : Position)
  /-- No branch of a decision accepts the node at hand. -/
  | noViableAlternative (rule : String) (decision : Nat) (found : Option String)
      (position : Position)
  /-- A predicate of a rule does not hold. -/
  | failedPredicate (rule predicate : String) (position : Position)
  /-- An attribute that no frame binds. -/
  | unboundAttribute (name : String)
  /-- Rule invocations are nested deeper than allowed. -/
  | depthLimit (rule : String) (limit : Nat)
  deriving DecidableEq, Repr

namespace Failure

/-- The rule in which a walk fails. -/
def rule? : Failure → Option String
  | mismatch rule .. => some rule
  | noViableAlternative rule .. => some rule
  | failedPredicate rule .. => some rule
  | unboundAttribute _ => none
  | depthLimit rule _ => some rule

/-- The expected symbols in messages: each once, in order. -/
def expectedText (expected : List String) : String :=
  match (LabelSet.ofList expected).toList with
  | [] => "nothing"
  | labels => " or ".intercalate (labels.map fun label => s!"`{label}`")

/-- The symbol found, in messages. -/
def foundText : Option String → String
  | some label => s!"`{label}`"
  | none => endOfChildren

/-- The text of a failure. -/
def message : Failure → String
  | mismatch rule expected found position =>
    s!"{position.toString}: rule `{rule}` expected {expectedText expected} " ++
      s!"but found {foundText found}"
  | noViableAlternative rule decision found position =>
    s!"{position.toString}: no viable alternative at decision {decision} of rule `{rule}` " ++
      s!"on {foundText found}"
  | failedPredicate rule predicate position =>
    s!"{position.toString}: predicate `{predicate}` of rule `{rule}` failed"
  | unboundAttribute name => s!"attribute `{name}` is not bound in any active frame"
  | depthLimit rule limit => s!"rule `{rule}` exceeds the recursion depth limit of {limit}"

end Failure

end TreeGrammar
