import TreeGrammar.Program.Build
import TreeGrammar.Program.Render

/-!
# Code that is emitted from right to left

The code of a rule is emitted with the code that follows it in hand: an element puts its own code in
front of the code that runs once it has matched. The elements of a sequence are therefore visited
from the last one to the first. The cursor is part of the state and is replaced while the children
of a node are visited; the code behind the node has been emitted by then, with the cursor around
it.

## Main definitions

* `Emitted`: code with marks where steps begin and attributes are borrowed
* `Emission`: the cursor and the number of the last variable
* `Expr.emit`, `Alternative.emit`: the code of an element and of a sequence in front of other code
* `Rule.emit`: the code of the alternatives of a rule
-/

namespace TreeGrammar

open Host (Token)

/-! ### Emitted code -/

/-- Code of a procedure, with marks that are not written. -/
inductive Emitted where
  | tokens (tokens : List Token)
  /-- The code of a step begins here, or goes on behind the steps inside of it. -/
  | step
  /-- Attributes are borrowed up to the end of the group in which this stands. -/
  | guards (mode : Access) (accesses : List AttributeAccess)
  | group (delimiter : Host.Delimiter) (body : List Emitted)

mutual

/-- Code as it is written. -/
def Emitted.written : Emitted → List Token
  | .tokens list => list
  | .step => []
  | .guards mode accesses => borrowTokens mode accesses
  | .group delimiter body => [.group delimiter (Emitted.listWritten body)]

/-- Code as it is written. -/
def Emitted.listWritten : List Emitted → List Token
  | [] => []
  | code :: rest => code.written ++ Emitted.listWritten rest

end

namespace Emitted

/-- Lists of code with a word between each of them and the next. -/
def separated (separator : String) : List (List Emitted) → List Emitted
  | [] => []
  | [code] => code
  | code :: next :: rest => code ++ .tokens (phrase separator) :: separated separator (next :: rest)

/-- The end of the children of a node is required. -/
def endCheck (rule : String) (children : Nat) : List Emitted :=
  [.step, .tokens (callTokens (phrase "walker . expect_end")
    [(CursorVariable.children children).tokens, stringTokens rule] ++ phrase "? ;")]

/-- A node is taken from a cursor and bound to its variable. -/
def expectNode (rule : String) (cursor : CursorVariable) (name : String) (node : Nat) :
    List Emitted :=
  [.step, .tokens (phrase "let" ++ variableTokens (nodeVariable node) ++ phrase "=" ++
    callTokens (phrase "walker . expect")
      [cursor.tokens, stringTokens rule, stringTokens name] ++ phrase "? ;")]

/-- A node is bound to its label, if it has one. -/
def bindNode (label : Option String) (node : Nat) : List Emitted :=
  label.toList.map fun label =>
    .tokens (bindTokens (some label) (variableTokens (nodeVariable node)))

/-- A cursor over the children of a node is made. -/
def childCursor (node children : Nat) : List Emitted :=
  let cursor := (CursorVariable.children children).tokens
  [.tokens (phrase "let mut" ++ cursor ++ phrase "=" ++
    callTokens (phrase "Cursor :: children") [variableTokens (nodeVariable node)] ++
    phrase "; let" ++ cursor ++ phrase "= & mut" ++ cursor ++ phrase ";")]

end Emitted

/-- Code as a condition: a block with a truth value. -/
def Code.emitCondition (code : Code) : Emitted :=
  .group .brace [.guards .shared code.accesses, .tokens (phrase "let __pass : bool ="),
    .group .brace [.tokens code.tokens], .tokens (phrase "; __pass")]

/-- Code as a statement that drops its value. -/
def Code.emitStatement (code : Code) : Emitted :=
  .group .brace [.guards .exclusive code.accesses, .tokens (phrase "let _ ="),
    .group .brace [.tokens code.tokens], .tokens (phrase ";")]

/-- The test whether an arm fits. -/
def LookaheadSet.emitCondition (prediction : LookaheadSet) : Option Code → List Emitted
  | some guard =>
    [.tokens (prediction.test ++ phrase "&&"), .group .parenthesis [guard.emitCondition]]
  | none => [.tokens prediction.test]

/-- A conditional statement. -/
def LookaheadSet.emitArm (prediction : LookaheadSet) (guard : Option Code)
    (body : List Emitted) : List Emitted :=
  .tokens (phrase "if") :: prediction.emitCondition guard ++ [.group .brace body]

/-- A choice, given the code that chooses once. -/
def ChoiceKind.emitWrap (kind : ChoiceKind) (dispatch : List Emitted) : List Emitted :=
  match kind with
  | once | optional => [.group .brace dispatch]
  | star => [.tokens (phrase "loop"), .group .brace dispatch]
  | plus counter =>
    let count := variableTokens (counterVariable counter)
    [.group .brace [.tokens (phrase "let mut" ++ count ++ phrase "= 0usize ;"),
      .tokens (phrase "loop"),
      .group .brace (dispatch ++ [.tokens (count ++ phrase "+= 1 ;")])]]

/-- A choice among conditional statements at a decision. -/
def Decision.emitChoice (rule : String) (cursor : CursorVariable) (kind : ChoiceKind)
    (decision : Decision) (arms : List (List Emitted)) : List Emitted :=
  .step :: kind.emitWrap
    (.tokens (phrase "let la =" ++ cursor.tokens ++ callTokens (phrase ". peek_label") [] ++
        phrase ";") ::
      Emitted.separated "else" arms ++
      [.tokens (kind.otherwise (decision.failure rule cursor))])

/-! ### The state of an emission -/

/-- What is known where the code of a rule is emitted. -/
structure Emission where
  /-- The cursor over the siblings that are matched. -/
  cursor : CursorVariable := .given
  /-- The number of the last variable. -/
  last : Nat := 0
  deriving DecidableEq, Repr

namespace Emission

/-- The cursor over the siblings that are matched. -/
def current : StateM Emission CursorVariable := do
  return (← get).cursor

/-- A number that no other variable of the rule has. -/
def fresh : StateM Emission Nat :=
  modifyGet fun emission => (emission.last + 1, { emission with last := emission.last + 1 })

/-- Emits code with another cursor. -/
def withCursor {α : Type} (cursor : CursorVariable) (inner : StateM Emission α) :
    StateM Emission α := do
  let outer ← current
  modify fun emission => { emission with cursor }
  let result ← inner
  modify fun emission => { emission with cursor := outer }
  return result

end Emission

open Emission (current fresh withCursor)

/-- The kind of the choice at a repetition. -/
def Repetition.emitKind : Repetition → StateM Emission ChoiceKind
  | once => return .once
  | optional => return .optional
  | star => return .star
  | plus => return .plus (← fresh)

namespace BuildContext

/-- The statement that evaluates the arguments of a call, if they refer to attributes, and the
arguments that are passed on. There are none of both if the code does not consist of expressions,
which is reported elsewhere. -/
def emitArguments (context : BuildContext) :
    Option Fragment → StateM Emission (List Emitted × List (List Token))
  | none => return ([], [])
  | some fragment =>
    match Host.readArguments fragment.boundText with
    | .error _ => return ([], [])
    | .ok values =>
      let accesses := context.accesses fragment
      if accesses.isEmpty then return ([], values)
      else do
        let numbers ← values.mapM fun _ => fresh
        let names := numbers.map fun number => variableTokens (argumentVariable number)
        return ([.tokens (callTokens (phrase "let") names ++ phrase "="),
          .group .brace [.guards .shared accesses, .tokens (callTokens [] values)],
          .tokens (phrase ";")], names)

end BuildContext

/-! ### Elements -/

mutual

/-- The code of an element in front of the code that runs once it has matched. -/
def Expr.emit (context : BuildContext) (rule : String) :
    Expr → List Emitted → StateM Emission (List Emitted)
  | .node _ _ label name children, success => do
    let cursor ← current
    let node ← fresh
    let number ← fresh
    let exhausted := Emitted.endCheck rule number ++ success
    let inner ← withCursor (.children number) (Alternative.emit context rule children exhausted)
    return Emitted.expectNode rule cursor name.name node ++
      Emitted.bindNode (label.map Ident.name) node ++ Emitted.childCursor node number ++ inner
  | .token _ _ label name, success => do
    let cursor ← current
    let expect := callTokens (phrase "walker . expect")
      [cursor.tokens, stringTokens rule, stringTokens name.name] ++ phrase "?"
    return [.step, .tokens (bindTokens (label.map Ident.name) expect)] ++ success
  | .wildcard _ _ label, success => do
    let cursor ← current
    let any := callTokens (phrase "walker . wildcard") [cursor.tokens, stringTokens rule] ++
      phrase "?"
    return [.step, .tokens (bindTokens (label.map Ident.name) any)] ++ success
  | .rule _ _ label name args, success => do
    let cursor ← current
    let (evaluation, passed) ← context.emitArguments args
    let call := callTokens [.word name.name]
      ([phrase "walker", phrase "state", cursor.tokens, phrase "frame"] ++ passed) ++ phrase "?"
    return .step :: evaluation ++ [.tokens (bindTokens (label.map Ident.name) call)] ++ success
  | .subrule id _ repetition alternatives, success =>
    match context.decisionAt? (.subrule id) with
    | some decision => do
      let cursor ← current
      let kind ← repetition.emitKind
      let arms ← Alternative.emitArms context rule (decision.candidates.map (·.prediction))
        alternatives
      return decision.emitChoice rule cursor kind arms ++ success
    | none => do
      let body ← Alternative.emitAll context rule alternatives
      return [.step, .group .brace body] ++ success
  | .action _ code, success => return [.step, (context.code code).emitStatement] ++ success
  | .predicate _ code, success => do
    let cursor ← current
    let failure := callTokens (phrase "return Err")
      [callTokens (phrase "walker . failed_predicate")
        [cursor.tokens, stringTokens rule, stringTokens code.trimmed]] ++ phrase ";"
    return [.step, .tokens (phrase "if !"),
      .group .parenthesis [(context.code code).emitCondition],
      .group .brace [.tokens failure]] ++ success

/-- The code of a sequence in front of other code. -/
def Alternative.emit (context : BuildContext) (rule : String) :
    List Expr → List Emitted → StateM Emission (List Emitted)
  | [], success => return success
  | expr :: exprs, success => do
    let later ← Alternative.emit context rule exprs success
    expr.emit context rule later

/-- The code of alternatives one after the other. -/
def Alternative.emitAll (context : BuildContext) (rule : String) :
    List Alternative → StateM Emission (List Emitted)
  | [] => return []
  | .mk _ elements _ :: alternatives => do
    let code ← Alternative.emit context rule elements []
    let later ← Alternative.emitAll context rule alternatives
    return code ++ later

/-- Alternatives with their predictions as conditional statements. -/
def Alternative.emitArms (context : BuildContext) (rule : String) :
    List LookaheadSet → List Alternative → StateM Emission (List (List Emitted))
  | prediction :: predictions, .mk guard elements _ :: alternatives => do
    let body ← Alternative.emit context rule elements []
    let later ← Alternative.emitArms context rule predictions alternatives
    return prediction.emitArm (guard.map context.code) body :: later
  | _, _ => return []

end

/-- The code of the alternatives of a rule. -/
def Rule.emit (context : BuildContext) (rule : Rule) : StateM Emission (List Emitted) :=
  match context.decisionAt? (.rule context.rule) with
  | some decision => do
    let cursor ← current
    let arms ← Alternative.emitArms context rule.name.name
      (decision.candidates.map (·.prediction)) rule.alternatives
    return decision.emitChoice rule.name.name cursor .once arms
  | none => Alternative.emitAll context rule.name.name rule.alternatives

end TreeGrammar
