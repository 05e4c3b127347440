import TreeGrammar.Walk.Cursor

/-!
# The walker

The state that the procedures of one walk share: the depth of rule invocations, its limit if there
is one, and the failures that have been reported. Every failure of an operation is reported once,
when it arises.

## Main definitions

* `Walker`: the shared state
* `Walker.enter`, `Walker.exit`: the bounds of a rule invocation
* `Walker.expect`, `Walker.wildcard`, `Walker.expectEnd`: the elements that look at a node
* `Walker.mismatch`, `Walker.noViableAlternative`, `Walker.failedPredicate`: the failures that a
  procedure raises by itself
-/

namespace TreeGrammar

/-- The state of a walk. -/
structure Walker where
  depth : Nat := 0
  depthLimit : Option Nat := none
  reported : List Failure := []

namespace Walker

/-- Reports a failure, the last one at the end. -/
def report (walker : Walker) (failure : Failure) : Walker :=
  { walker with reported := walker.reported ++ [failure] }

/-- Fails, and reports it. -/
def fail {α : Type} (walker : Walker) (failure : Failure) : Except Failure α × Walker :=
  (.error failure, walker.report failure)

/-- Enters an invocation of a rule. -/
def enter (walker : Walker) (rule : String) : Except Failure Unit × Walker :=
  match walker.depthLimit with
  | some limit =>
    if walker.depth ≥ limit then walker.fail (.depthLimit rule limit)
    else (.ok (), { walker with depth := walker.depth + 1 })
  | none => (.ok (), { walker with depth := walker.depth + 1 })

/-- Leaves an invocation of a rule. -/
def exit (walker : Walker) : Walker := { walker with depth := walker.depth - 1 }

/-- Fails because the node at the cursor is none of the expected symbols. -/
def mismatch {α : Type} (walker : Walker) (cursor : Cursor) (rule : String)
    (expected : List String) : Except Failure α × Walker :=
  walker.fail (.mismatch rule expected cursor.peekLabel? cursor.position)

/-- Fails because no branch of a decision accepts the node at the cursor. -/
def noViableAlternative {α : Type} (walker : Walker) (cursor : Cursor) (rule : String)
    (decision : Nat) : Except Failure α × Walker :=
  walker.fail (.noViableAlternative rule decision cursor.peekLabel? cursor.position)

/-- Fails because a predicate does not hold. -/
def failedPredicate {α : Type} (walker : Walker) (cursor : Cursor) (rule predicate : String) :
    Except Failure α × Walker :=
  walker.fail (.failedPredicate rule predicate cursor.position)

/-- Passes the current node if it has the given label. -/
def expect (walker : Walker) (cursor : Cursor) (rule label : String) :
    Except Failure (Tree × Cursor) × Walker :=
  match cursor.advance? with
  | some (node, next) =>
    if node.label = label then (.ok (node, next), walker)
    else walker.mismatch cursor rule [label]
  | none => walker.mismatch cursor rule [label]

/-- Passes the current node whatever its label. -/
def wildcard (walker : Walker) (cursor : Cursor) (rule : String) :
    Except Failure (Tree × Cursor) × Walker :=
  match cursor.advance? with
  | some step => (.ok step, walker)
  | none => walker.mismatch cursor rule [anyNode]

/-- Succeeds if the list of siblings is exhausted. -/
def expectEnd (walker : Walker) (cursor : Cursor) (rule : String) : Except Failure Unit × Walker :=
  if cursor.atEnd then (.ok (), walker) else walker.mismatch cursor rule [endOfChildren]

end Walker

end TreeGrammar
