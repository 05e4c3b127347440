import TreeGrammar.Lookahead.Decision
import TreeGrammar.Host.Token

/-!
# Walking programs

A grammar is compiled to a program of procedures that walk a tree. Every rule has a procedure, which
opens a frame for the attributes of the rule, and a second one for its alternatives. Their bodies
are steps, which work on a cursor over a list of siblings: the one that the procedure is given, or
one over the children of a node. Variables that no name of the grammar stands for are numbered.

## Main definitions

* `BoundFragment`, `Code`: Rust code with the attributes that it refers to
* `Step`, `Arm`: the steps of a procedure
* `Step.fragments`, `Step.listFragments`: the code in steps
* `Procedure`, `Program`: the procedures of a rule, and all of a grammar
-/

namespace TreeGrammar

/-- An attribute to which code refers, and the scopes in which it may be found. -/
structure AttributeAccess where
  name : String
  /-- The names of the variants of scopes that hold the attribute. -/
  variants : List String
  deriving DecidableEq, Repr

/-- A piece of code whose references to attributes are bound. -/
structure BoundFragment where
  /-- The code as it is written. -/
  source : Fragment
  /-- The attributes to which the code refers, by first reference. -/
  accesses : List AttributeAccess

/-- Rust code in which references to attributes are replaced by variables. -/
structure Code extends BoundFragment where
  tokens : List Host.Token

/-- The arguments of a call. -/
structure Arguments where
  /-- The code of the arguments as it is written, if there are any. -/
  source : Option Fragment := none
  /-- The attributes to which the arguments refer, by first reference. -/
  accesses : List AttributeAccess := []
  values : List (List Host.Token) := []
  /-- The numbers of the variables that hold the values while no attribute is borrowed. There are
  none if the arguments refer to no attribute. -/
  temporaries : List Nat := []

/-- The code of arguments with the attributes that are bound for it. -/
def Arguments.fragment (arguments : Arguments) : Option BoundFragment :=
  arguments.source.map fun source => { source, accesses := arguments.accesses }

/-- The cursor of a step. -/
inductive CursorVariable where
  /-- The cursor that the procedure is given. -/
  | given
  /-- The cursor over the children of a node, with its number. -/
  | children (number : Nat)
  deriving DecidableEq, Repr

/-- How often the arms of a choice are tried, and what happens if none of them fits. -/
inductive ChoiceKind where
  /-- One arm has to fit. -/
  | once
  /-- No arm has to fit. -/
  | optional
  /-- Arms are taken as long as one fits. -/
  | star
  /-- Arms are taken as long as one fits; one has to fit at first, which the variable with the given
  number counts. -/
  | plus (counter : Nat)
  deriving DecidableEq, Repr

mutual

/-- A step of a procedure. A label is the variable that is bound to the result of the step. -/
inductive Step where
  /-- Takes a node with the given label. -/
  | token (cursor : CursorVariable) (label : Option String) (name : String)
  /-- Takes any node. -/
  | wildcard (cursor : CursorVariable) (label : Option String)
  /-- Takes a node with the given label, takes steps on its children, whose cursor has the given
  number, and requires that no child is left. -/
  | node (cursor : CursorVariable) (label : Option String) (name : String) (node children : Nat)
      (steps : List Step)
  /-- Calls the procedure of a rule. -/
  | call (cursor : CursorVariable) (label : Option String) (rule : String) (arguments : Arguments)
  /-- Runs code that may change the attributes to which it refers. -/
  | action (code : Code)
  /-- Requires that code yields true; `text` is the code as it is written. -/
  | predicate (cursor : CursorVariable) (code : Code) (text : String)
  /-- Takes steps in a block of their own. -/
  | block (steps : List Step)
  /-- Takes the first arm that fits at a decision. -/
  | choice (cursor : CursorVariable) (kind : ChoiceKind) (decision : Decision) (arms : List Arm)

/-- An arm of a choice: it fits if the next label is predicted and the guard, if any, holds. -/
inductive Arm where
  | mk (prediction : LookaheadSet) (guard : Option Code) (steps : List Step)

end

mutual

/-- The pieces of code that are bound where a step is emitted, in this order: the steps of a
sequence are emitted from the last one to the first, the arms of a choice from the first one to the
last, and a guard before the steps of its arm. -/
def Step.fragments : Step → List BoundFragment
  | .token .. | .wildcard .. => []
  | .node _ _ _ _ _ steps => Step.listFragments steps
  | .call _ _ _ arguments => arguments.fragment.toList
  | .action code => [code.toBoundFragment]
  | .predicate _ code _ => [code.toBoundFragment]
  | .block steps => Step.listFragments steps
  | .choice _ _ _ arms => Arm.listFragments arms

/-- The pieces of code that are bound where a sequence of steps is emitted. -/
def Step.listFragments : List Step → List BoundFragment
  | [] => []
  | step :: steps => Step.listFragments steps ++ step.fragments

/-- The pieces of code that are bound where arms are emitted. -/
def Arm.listFragments : List Arm → List BoundFragment
  | [] => []
  | .mk _ guard steps :: arms =>
    guard.toList.map Code.toBoundFragment ++ Step.listFragments steps ++ Arm.listFragments arms

end

/-- The procedures of a rule. -/
structure Procedure where
  rule : Rule
  /-- Walks may start here. -/
  isEntry : Bool
  /-- The variant of scopes that holds the attributes of the rule, if it declares any. -/
  variant : Option String
  steps : List Step

namespace Procedure

/-- The name of the procedure that enters the rule. -/
def name (procedure : Procedure) : String := procedure.rule.name.name

/-- The name of the procedure for the alternatives of the rule. -/
def alternativesName (procedure : Procedure) : String := procedure.name ++ "_alternatives"

/-- The name of the procedure that walks a whole tree. -/
def walkName (procedure : Procedure) : String := "walk_" ++ procedure.name

end Procedure

/-- The procedures of a grammar and what stands around them. -/
structure Program where
  name : String
  prelude : List Fragment
  stateType : Option String
  procedures : List Procedure

end TreeGrammar
