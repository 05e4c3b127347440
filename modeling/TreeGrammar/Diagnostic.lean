import TreeGrammar.Grammar.Basic
import TreeGrammar.Grammar.SyntaxError
import TreeGrammar.Lookahead.Branch
import TreeGrammar.Lookahead.Set

/-!
# Diagnostics

What a compilation has to say about a grammar. A diagnostic is a problem at a position; the problem
decides its kind, its text and its notes, and the kind decides whether it is fatal. A grammar with a
fatal diagnostic is rejected.

## Main definitions

* `Problem`, `Problem.kind`, `Problem.message`, `Problem.notes`: the problems
* `Diagnostic`: a problem and its position
* `Diagnostic.sort`: diagnostics in the order of their positions
-/

namespace TreeGrammar

/-- The kinds of diagnostics. -/
inductive DiagnosticKind where
  | grammarSyntax
  | undefinedRule
  | duplicateRule
  | undeclaredToken
  | duplicateAttribute
  | unreachableAttribute
  | attributeTypeConflict
  | leftRecursion
  | nullableRepeat
  | invalidCodeFragment
  | ambiguity
  | unusedRule
  | unknownOption
  deriving DecidableEq, Repr

namespace DiagnosticKind

/-- A diagnostic of this kind rejects the grammar. -/
def isFatal : DiagnosticKind → Bool
  | ambiguity | unusedRule | unknownOption => false
  | _ => true

/-- The name of a kind. -/
def name : DiagnosticKind → String
  | grammarSyntax => "GrammarSyntaxError"
  | undefinedRule => "UndefinedRuleError"
  | duplicateRule => "DuplicateRuleError"
  | undeclaredToken => "UndeclaredTokenError"
  | duplicateAttribute => "DuplicateAttributeError"
  | unreachableAttribute => "UnreachableAttributeError"
  | attributeTypeConflict => "AttributeTypeConflict"
  | leftRecursion => "LeftRecursionError"
  | nullableRepeat => "NullableRepeatError"
  | invalidCodeFragment => "InvalidCodeFragment"
  | ambiguity => "AmbiguityWarning"
  | unusedRule => "UnusedRuleWarning"
  | unknownOption => "UnknownOptionWarning"

end DiagnosticKind

/-- What a name is given to. -/
inductive NameRole where
  | grammar
  | rule
  | attr
  | returnValue
  | parameter
  | label
  deriving DecidableEq, Repr

/-- The text of a role, with its article. -/
def NameRole.description : NameRole → String
  | grammar => "a grammar"
  | rule => "a rule"
  | attr => "an attribute"
  | returnValue => "a return value"
  | parameter => "a parameter"
  | label => "a label"

/-- The typed names that a rule declares. -/
inductive DeclarationKind where
  | attr
  | returnValue
  deriving DecidableEq, Repr

/-- The text of a kind of declaration. -/
def DeclarationKind.description : DeclarationKind → String
  | attr => "attribute"
  | returnValue => "return value"

/-- The role of the names of a kind of declaration. -/
def DeclarationKind.role : DeclarationKind → NameRole
  | attr => .attr
  | returnValue => .returnValue

/-- A declaration of an attribute in a rule, with its type. -/
structure TypedDeclaration where
  span : Span
  type : String
  rule : String
  deriving DecidableEq, Repr

/-- What a diagnostic is about. -/
inductive Problem where
  | syntaxError (cause : SyntaxError.Cause)
  | noRule
  | duplicateRule (name : String) (previous : Span)
  | duplicateAttribute (name : String) (previous : Span)
  /-- A return value with the name of an attribute of its rule. -/
  | clashingReturnValue (name rule : String) (declaration : Span)
  | undeclaredToken (name : String)
  | undefinedRule (name : String)
  | stateWithoutType
  | unknownOption (name : String)
  | uselessArguments (option : String)
  /-- A name that is no identifier of Rust. -/
  | keywordName (name : String) (role : NameRole)
  /-- A name that the generated code uses itself. -/
  | reservedName (name : String) (role : NameRole)
  /-- A mark in a piece of code that no attribute name follows. -/
  | strayMark (code : String)
  | invalidStateType (type : String)
  | invalidPrelude
  | invalidType (kind : DeclarationKind) (name : String)
  | invalidInit (kind : DeclarationKind) (name : String)
  | referenceInInit (kind : DeclarationKind) (name reference : String)
  | invalidParams (rule : String)
  | complexParams (rule : String)
  | selfParam (rule : String)
  /-- Rules that call each other before anything is matched. -/
  | leftRecursion (cycle : List String)
  /-- A repetition of which an alternative may match nothing. -/
  | nullableRepeat (repetition : Repetition) (alternative : Nat)
  | unusedRule (name : String)
  | ambiguity (rule : String) (first second : Branch) (overlap : LookaheadSet)
  /-- An attribute that the rules of an invocation path do not declare. -/
  | undeclaredOnPath (name rule : String) (path : List String)
  | undeclaredByCallers (name rule : String)
  | typeConflict (name rule : String) (declarations : List TypedDeclaration)
  /-- An attribute for which the scopes name no rule. -/
  | noDeclaringRule (name rule : String)
  | notTokens (code : String)
  | invalidArguments (rule : String)
  deriving DecidableEq

namespace Problem

/-- The kind of a problem. -/
def kind : Problem → DiagnosticKind
  | syntaxError _ | noRule => .grammarSyntax
  | duplicateRule .. => .duplicateRule
  | duplicateAttribute .. | clashingReturnValue .. => .duplicateAttribute
  | undeclaredToken _ => .undeclaredToken
  | undefinedRule _ => .undefinedRule
  | stateWithoutType | unknownOption _ | uselessArguments _ => .unknownOption
  | keywordName .. | reservedName .. | strayMark _ => .invalidCodeFragment
  | invalidStateType _ | invalidPrelude | invalidType .. | invalidInit .. => .invalidCodeFragment
  | referenceInInit .. => .invalidCodeFragment
  | invalidParams _ | complexParams _ | selfParam _ => .invalidCodeFragment
  | notTokens _ | invalidArguments _ => .invalidCodeFragment
  | leftRecursion _ => .leftRecursion
  | nullableRepeat .. => .nullableRepeat
  | unusedRule _ => .unusedRule
  | ambiguity .. => .ambiguity
  | undeclaredOnPath .. | undeclaredByCallers .. | noDeclaringRule .. => .unreachableAttribute
  | typeConflict .. => .attributeTypeConflict

/-- A cycle of rules, the first one written again at its end. -/
def cycleText (cycle : List String) : String :=
  String.join (cycle.map (· ++ " -> ")) ++ cycle.headD ""

/-- The text of a problem. -/
def message : Problem → String
  | syntaxError cause => cause.message
  | noRule => "at least one rule must be declared"
  | duplicateRule name _ => s!"duplicate definition of rule with name `{name}`"
  | duplicateAttribute name _ => s!"duplicate definition of attribute with name `{name}`"
  | clashingReturnValue name rule _ =>
    s!"return value `{name}` of rule `{rule}` has the same name as one of its attributes"
  | undeclaredToken name =>
    s!"undeclared token `{name}`: node labels must be listed in the `tokens` block"
  | undefinedRule name => s!"undefined rule `{name}`"
  | stateWithoutType =>
    "option `state` expects the type of the walk state, e.g. `#![state(Vec<String>)]`: " ++
      "it will be ignored."
  | unknownOption name => s!"unknown option `{name}`: it will be ignored."
  | uselessArguments option => s!"option `{option}` takes no argument: they will be ignored."
  | keywordName name role =>
    s!"`{name}` is a Rust keyword and cannot be used as {role.description} name"
  | reservedName name role =>
    s!"`{name}` is reserved by the generated code and cannot be used as {role.description} name"
  | strayMark code => s!"`@` must be directly followed by an attribute name in `{code}`"
  | invalidStateType type => s!"invalid state type `{type}`"
  | invalidPrelude => "invalid prelude"
  | invalidType kind name => s!"invalid type of {kind.description} `{name}`"
  | invalidInit kind name => s!"invalid initializer of {kind.description} `{name}`"
  | referenceInInit kind name reference =>
    s!"the initializer of {kind.description} `{name}` cannot reference the attribute `{reference}`"
  | invalidParams rule => s!"invalid parameters of rule `{rule}`"
  | complexParams rule =>
    s!"parameters of rule `{rule}` must be simple names such as `depth: usize`"
  | selfParam rule => s!"rule `{rule}` cannot take `self` as parameter"
  | leftRecursion cycle =>
    "left recursion is not supported: the following rule cycle does not consume any node and " ++
      s!"would loop forever\nDetected cycle: {cycleText cycle}\nSolution: rewrite one of the " ++
      "incriminated rules such that it matches at least one node before invoking the next one. " ++
      "Usually, left recursion is rewritten with a repetition (`e*` or `e+`)."
  | nullableRepeat repetition alternative =>
    s!"infinite loop detected: the repetition `{repetition.suffix}` never stops because its " ++
      s!"{(Branch.alternative alternative).toString} can match without consuming a node\n" ++
      "Solution: rewrite the subrule such that every alternative matches at least one node or " ++
      "get rid of the repetition."
  | unusedRule name => s!"rule `{name}` is never used: no entry rule can invoke it"
  | ambiguity rule first .exit overlap =>
    s!"in rule `{rule}`, {first.toString} of the repeated or optional subrule and its exit are " ++
      s!"both predicted by {overlap.toString}, the subrule continues (greedy)"
  | ambiguity rule first (.alternative second) overlap =>
    s!"in rule `{rule}`, {first.toString} and {(Branch.alternative second).toString} are both " ++
      s!"predicted by {overlap.toString}, {first.toString} is always selected on these labels"
  | undeclaredOnPath name rule path =>
    s!"attribute `{name}` referenced in rule `{rule}` is not always in scope: the invocation " ++
      "path `" ++ " -> ".intercalate path ++ s!"` does not go through a rule declaring `{name}`"
  | undeclaredByCallers name rule =>
    s!"attribute `{name}` referenced in rule `{rule}` is not declared by `{rule}` nor by any " ++
      "rule invoking it"
  | typeConflict name rule _ =>
    s!"attribute `{name}` referenced in rule `{rule}` can be declared with different types by " ++
      "its enclosing rules"
  | noDeclaringRule name rule =>
    s!"attribute `{name}` referenced in rule `{rule}` has no declaring rule"
  | notTokens code => s!"code fragment `{code}` is not made of Rust tokens"
  | invalidArguments rule => s!"invalid arguments of rule `{rule}`"

/-- Other positions that a problem concerns, each with a text. -/
def notes : Problem → List (Span × String)
  | duplicateRule name previous => [(previous, s!"previous definition of `{name}` here")]
  | duplicateAttribute name previous => [(previous, s!"previous definition of `{name}` here")]
  | clashingReturnValue name _ declaration =>
    [(declaration, s!"attribute `{name}` declared here")]
  | typeConflict _ _ declarations =>
    declarations.map fun declaration =>
      (declaration.span,
        s!"declared with type `{declaration.type}` in rule `{declaration.rule}`")
  | _ => []

end Problem

/-- A problem and its position. -/
structure Diagnostic where
  span : Span
  problem : Problem
  deriving DecidableEq

namespace Diagnostic

/-- The diagnostic rejects the grammar. -/
def isFatal (diagnostic : Diagnostic) : Bool := diagnostic.problem.kind.isFatal

/-- The name of the severity of a diagnostic. -/
def severity (diagnostic : Diagnostic) : String :=
  if diagnostic.isFatal then "error" else "warning"

/-- The text of a diagnostic with its position, its kind and its notes. -/
def render (diagnostic : Diagnostic) : String :=
  let problem := diagnostic.problem
  s!"{diagnostic.span.toString}: {diagnostic.severity}[{problem.kind.name}]: {problem.message}" ++
    String.join (problem.notes.map fun (span, note) => s!"\n  {span.toString}: note: {note}")

/-- Diagnostics in the order of their positions; those of one position keep their order. -/
def sort (diagnostics : List Diagnostic) : List Diagnostic :=
  diagnostics.mergeSort fun a b => a.span.le b.span

end Diagnostic

/-- None of the diagnostics is fatal. -/
def Acceptable (diagnostics : List Diagnostic) : Bool := !diagnostics.any Diagnostic.isFatal

end TreeGrammar
