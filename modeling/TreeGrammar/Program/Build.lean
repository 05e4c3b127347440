import TreeGrammar.Analysis.Verdict
import TreeGrammar.Program.Basic
import TreeGrammar.Program.Binding
import TreeGrammar.Program.ScopeName

/-!
# The program of a grammar

The elements of a sequence become steps in the same order. Numbers for variables are given to the
steps of a sequence from the last one to the first, and to the arms of a choice from the first one
to the last; a step takes its own numbers before those of the steps inside it.

## Main definitions

* `Expr.step`, `Alternative.steps`, `Alternative.arms`: elements and alternatives as steps
* `Grammar.program`: the program of a grammar
-/

namespace TreeGrammar

/-- What is known where the steps of a rule are built. -/
structure BuildContext where
  scopes : ScopePlan
  /-- For each rule that declares attributes, the variant that holds them. -/
  variants : List (Option String)
  decisions : List Decision
  /-- The number of the rule. -/
  rule : Nat

namespace BuildContext

/-- The decision at a place. -/
def decisionAt? (context : BuildContext) (site : DecisionSite) : Option Decision :=
  context.decisions.find? (·.site = site)

/-- An attribute to which code refers, with the variants that may hold it. -/
def access (context : BuildContext) (name : String) : AttributeAccess :=
  let declaring := ((context.scopes.resolution? context.rule name).map (·.declaring)).getD []
  { name, variants := declaring.filterMap fun rule => context.variants[rule]?.join }

/-- The attributes to which a piece of code refers. -/
def accesses (context : BuildContext) (fragment : Fragment) : List AttributeAccess :=
  fragment.attributeNames.map context.access

/-- A piece of code whose references are bound. -/
def bind (context : BuildContext) (fragment : Fragment) : BoundFragment :=
  { source := fragment, accesses := context.accesses fragment }

/-- A piece of code. -/
def code (context : BuildContext) (fragment : Fragment) : Code :=
  { context.bind fragment with tokens := (Host.lex fragment.boundText).getD [] }

end BuildContext

/-- A number that no other variable of the procedure has. -/
def freshNumber : StateM Nat Nat := modifyGet fun last => (last + 1, last + 1)

/-- The arguments of a call. -/
def BuildContext.arguments (context : BuildContext) : Option Fragment → StateM Nat Arguments
  | none => return {}
  | some fragment => do
    let accesses := context.accesses fragment
    let values := (Host.readArguments fragment.boundText).toOption.getD []
    let temporaries ← if accesses.isEmpty then pure [] else values.mapM fun _ => freshNumber
    return { source := fragment, accesses, values, temporaries }

/-- The kind of the choice at a repetition. -/
def Repetition.choiceKind : Repetition → StateM Nat ChoiceKind
  | once => return .once
  | optional => return .optional
  | star => return .star
  | plus => return .plus (← freshNumber)

mutual

/-- An element as a step on a cursor. -/
def Expr.step (context : BuildContext) (cursor : CursorVariable) : Expr → StateM Nat Step
  | .node _ _ label name children => do
    let node ← freshNumber
    let number ← freshNumber
    let steps ← Alternative.steps context (.children number) children
    return .node cursor (label.map Ident.name) name.name node number steps
  | .token _ _ label name => return .token cursor (label.map Ident.name) name.name
  | .wildcard _ _ label => return .wildcard cursor (label.map Ident.name)
  | .rule _ _ label name args => do
    let arguments ← context.arguments args
    return .call cursor (label.map Ident.name) name.name arguments
  | .subrule id _ repetition alternatives =>
    match context.decisionAt? (.subrule id) with
    | some decision => do
      let kind ← repetition.choiceKind
      let arms ← Alternative.arms context cursor (decision.candidates.map (·.prediction))
        alternatives
      return .choice cursor kind decision arms
    | none => do
      let steps ← Alternative.sequences context cursor alternatives
      return .block steps
  | .action _ code => return .action (context.code code)
  | .predicate _ code => return .predicate cursor (context.code code) code.trimmed

/-- The elements of a sequence as steps on a cursor. -/
def Alternative.steps (context : BuildContext) (cursor : CursorVariable) :
    List Expr → StateM Nat (List Step)
  | [] => return []
  | expr :: exprs => do
    let later ← Alternative.steps context cursor exprs
    let step ← expr.step context cursor
    return step :: later

/-- The elements of alternatives as steps on a cursor that are taken one after the other. -/
def Alternative.sequences (context : BuildContext) (cursor : CursorVariable) :
    List Alternative → StateM Nat (List Step)
  | [] => return []
  | .mk _ elements _ :: alternatives => do
    let steps ← Alternative.steps context cursor elements
    let later ← Alternative.sequences context cursor alternatives
    return steps ++ later

/-- Alternatives with their predictions as the arms of a choice. -/
def Alternative.arms (context : BuildContext) (cursor : CursorVariable) :
    List LookaheadSet → List Alternative → StateM Nat (List Arm)
  | prediction :: predictions, .mk guard elements _ :: alternatives => do
    let steps ← Alternative.steps context cursor elements
    let later ← Alternative.arms context cursor predictions alternatives
    return .mk prediction (guard.map context.code) steps :: later
  | _, _ => return []

end

/-- The steps of a rule. -/
def Rule.steps (context : BuildContext) (rule : Rule) : List Step :=
  let steps : StateM Nat (List Step) :=
    match context.decisionAt? (.rule context.rule) with
    | some decision => do
      let arms ← Alternative.arms context .given (decision.candidates.map (·.prediction))
        rule.alternatives
      return [.choice .given .once decision arms]
    | none => Alternative.sequences context .given rule.alternatives
  (steps.run 0).1

namespace Grammar

/-- The program of a grammar. -/
def program (grammar : Grammar) : Program where
  name := grammar.name.name
  prelude := grammar.prelude
  stateType := grammar.options.stateType
  procedures :=
    let variants := grammar.rules.scopeNames
    grammar.rules.zipIdx.map fun (rule, index) =>
      { rule
        isEntry := index ∈ grammar.rules.entries
        variant := variants[index]?.join
        steps := rule.steps
          { scopes := grammar.scopes, variants, decisions := grammar.decisions, rule := index } }

end Grammar

end TreeGrammar
