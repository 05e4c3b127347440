import TreeGrammar.Program.Basic
import TreeGrammar.Program.Binding
import TreeGrammar.Program.ScopeName
import TreeGrammar.Host.Lexer

/-!
# Programs as Rust modules

A program is written as a module of Rust. A procedure becomes a function over a walker, the state of
the host, a cursor and a frame; a scope becomes a variant that holds a cell for each attribute.

## Main definitions

* `Step.tokens`: a step as statements
* `Procedure.items`: the functions of a rule
* `Program.moduleTokens`: the module of a program
-/

namespace TreeGrammar

open Host (Token)

/-- One word, number or operator of a phrase. -/
def phrasePart (part : List Char) : List Token :=
  match part with
  | '\'' :: name => [.punct '\'' true, .word (String.ofList name)]
  | c :: _ =>
    if c.isDigit then [.literal (String.ofList part)]
    else if Host.isWordStart c then [.word (String.ofList part)]
    else Token.operatorChars part
  | [] => []

/-- The tokens of a phrase that holds no groups, in which spaces separate the tokens. -/
def phrase (text : String) : List Token :=
  (Text.words text.toList).flatMap phrasePart

/-- Lists of tokens with a phrase between each of them and the next. -/
def separated (separator : String) : List (List Token) → List Token
  | [] => []
  | [tokens] => tokens
  | tokens :: next :: rest => tokens ++ phrase separator ++ separated separator (next :: rest)

/-- A call with arguments. -/
def callTokens (function : List Token) (arguments : List (List Token)) : List Token :=
  function ++ [.parens (separated "," arguments)]

/-- A string as an argument. -/
def stringTokens (text : String) : List Token := [.string text]

/-- A block with an opening phrase. -/
def blockTokens (opening : String) (body : List Token) : List Token :=
  phrase opening ++ [.braces body]

/-! ### Variables -/

/-- A numbered variable. -/
def numbered (kind : String) (number : Nat) : String := s!"__{kind}_{number}"

/-- The variable of a node. -/
def nodeVariable (number : Nat) : String := numbered "node" number

/-- The variable of a counter. -/
def counterVariable (number : Nat) : String := numbered "matched" number

/-- The variable of an argument. -/
def argumentVariable (number : Nat) : String := numbered "arg" number

/-- The name of a cursor. -/
def CursorVariable.name : CursorVariable → String
  | given => "cursor"
  | children number => numbered "cursor" number

/-- A variable as an argument. -/
def variableTokens (name : String) : List Token := [.word name]

/-- The variable of a cursor as an argument. -/
def CursorVariable.tokens (cursor : CursorVariable) : List Token := variableTokens cursor.name

/-! ### Code -/

/-- How code uses the attributes to which it refers. -/
inductive Access where
  /-- Attributes may be changed. -/
  | exclusive
  | shared
  deriving DecidableEq, Repr

/-- The innermost cell of an attribute. -/
def AttributeAccess.cell (access : AttributeAccess) : List Token :=
  let arms := access.variants.flatMap fun variant =>
    phrase "Scope ::" ++ callTokens [.word variant] [phrase "s"] ++ phrase "=>" ++
      callTokens (phrase "Some") [phrase "& s ." ++ [.word access.name]] ++ phrase ","
  callTokens (phrase "frame . attribute")
      [stringTokens access.name,
        phrase "| scope |" ++ blockTokens "match scope" (arms ++ phrase "_ => None")] ++
    phrase "?"

/-- The statements that borrow an attribute. -/
def AttributeAccess.statements (mode : Access) (access : AttributeAccess) : List Token :=
  let guard := "__guard_" ++ access.name
  let borrowed := attributeVariable access.name
  match mode with
  | .exclusive =>
    phrase "let mut" ++ [.word guard] ++ phrase "=" ++ access.cell ++
      callTokens (phrase ". borrow_mut") [] ++ phrase "; let" ++ [.word borrowed] ++
      phrase "= & mut *" ++ [.word guard] ++ phrase ";"
  | .shared =>
    phrase "let" ++ [.word guard] ++ phrase "=" ++ access.cell ++
      callTokens (phrase ". borrow") [] ++ phrase "; let" ++ [.word borrowed] ++
      phrase "= & *" ++ [.word guard] ++ phrase ";"

/-- The statements that borrow some attributes. -/
def borrowTokens (mode : Access) (accesses : List AttributeAccess) : List Token :=
  accesses.flatMap (AttributeAccess.statements mode)

/-- Code as a condition: a block with a truth value. -/
def Code.condition (code : Code) : Token :=
  .braces (borrowTokens .shared code.accesses ++ phrase "let __pass : bool =" ++
    [.braces code.tokens] ++ phrase "; __pass")

/-- Code as a statement that drops its value. -/
def Code.statement (code : Code) : Token :=
  .braces (borrowTokens .exclusive code.accesses ++ phrase "let _ =" ++ [.braces code.tokens] ++
    phrase ";")

/-! ### Decisions -/

/-- The test of the next label against a set. -/
def LookaheadSet.test (set : LookaheadSet) : List Token :=
  let some? (inner : List Token) := callTokens (phrase "Some") [inner]
  let patterns :=
    (if set.any then [some? (phrase "_")]
      else if set.labels.toList.isEmpty then []
      else [some? (separated "|" (set.labels.toList.map stringTokens))]) ++
    if set.atEnd then [phrase "None"] else []
  if patterns.isEmpty then phrase "false"
  else callTokens (phrase ":: std :: matches !") [phrase "la", separated "|" patterns]

/-- The end of a walk in a rule at which no arm of a decision fits: either nothing predicts the next
label, or the guards fail. -/
def Decision.failure (rule : String) (cursor : CursorVariable) (decision : Decision) :
    List Token :=
  let viable := decision.viable
  let mismatch :=
    callTokens (phrase "walker . mismatch")
      [cursor.tokens, stringTokens rule,
        phrase "&" ++ [.brackets (separated "," (viable.expected.map stringTokens))]]
  let error :=
    if decision.hasGuards then
      phrase "if" ++ viable.test ++
        [.braces (callTokens (phrase "walker . no_viable_alternative")
          [cursor.tokens, stringTokens rule, [.literal s!"{decision.id}usize"]])] ++
        blockTokens "else" mismatch
    else mismatch
  callTokens (phrase "return Err") [error] ++ phrase ";"

/-! ### Steps -/

/-- A value that is bound to a label, or dropped without one. -/
def bindTokens (label : Option String) (value : List Token) : List Token :=
  match label with
  | some label => phrase "let" ++ [.word label] ++ phrase "=" ++ value ++ phrase ";"
  | none => value ++ phrase ";"

/-- The statement that evaluates the arguments of a call before the call, if they refer to
attributes. -/
def Arguments.evaluation (arguments : Arguments) : List Token :=
  if arguments.accesses.isEmpty then []
  else
    callTokens (phrase "let")
        (arguments.temporaries.map fun number => variableTokens (argumentVariable number)) ++
      phrase "=" ++
      [.braces (borrowTokens .shared arguments.accesses ++ callTokens [] arguments.values)] ++
      phrase ";"

/-- The arguments as they are passed on. -/
def Arguments.passed (arguments : Arguments) : List (List Token) :=
  if arguments.accesses.isEmpty then arguments.values
  else arguments.temporaries.map fun number => variableTokens (argumentVariable number)

/-- What a choice does if none of its arms fits. -/
def ChoiceKind.otherwise (kind : ChoiceKind) (failure : List Token) : List Token :=
  match kind with
  | once => blockTokens "else" failure
  | optional => []
  | star => blockTokens "else" (phrase "break ;")
  | plus counter =>
    blockTokens "else"
      (phrase "if" ++ variableTokens (counterVariable counter) ++
        blockTokens "> 0" (phrase "break ;") ++ failure)

/-- A choice as statements, given the statements that choose once. -/
def ChoiceKind.wrap (kind : ChoiceKind) (dispatch : List Token) : List Token :=
  match kind with
  | once | optional => [.braces dispatch]
  | star => blockTokens "loop" dispatch
  | plus counter =>
    let count := variableTokens (counterVariable counter)
    [.braces (phrase "let mut" ++ count ++ phrase "= 0usize ;" ++
      blockTokens "loop" (dispatch ++ count ++ phrase "+= 1 ;"))]

mutual

/-- A step of a rule as statements. -/
def Step.tokens (rule : String) : Step → List Token
  | .token cursor label name =>
    bindTokens label
      (callTokens (phrase "walker . expect")
        [cursor.tokens, stringTokens rule, stringTokens name] ++ phrase "?")
  | .wildcard cursor label =>
    bindTokens label
      (callTokens (phrase "walker . wildcard") [cursor.tokens, stringTokens rule] ++ phrase "?")
  | .node cursor label name node children steps =>
    let node := variableTokens (nodeVariable node)
    let children := (CursorVariable.children children).tokens
    phrase "let" ++ node ++ phrase "=" ++
      callTokens (phrase "walker . expect")
        [cursor.tokens, stringTokens rule, stringTokens name] ++ phrase "? ;" ++
      (match label with
        | some label => bindTokens (some label) node
        | none => []) ++
      phrase "let mut" ++ children ++ phrase "=" ++
      callTokens (phrase "Cursor :: children") [node] ++ phrase "; let" ++ children ++
      phrase "= & mut" ++ children ++ phrase ";" ++ Step.listTokens rule steps ++
      callTokens (phrase "walker . expect_end") [children, stringTokens rule] ++ phrase "? ;"
  | .call cursor label called arguments =>
    arguments.evaluation ++
      bindTokens label
        (callTokens [.word called]
          ([phrase "walker", phrase "state", cursor.tokens, phrase "frame"] ++
            arguments.passed) ++ phrase "?")
  | .action code => [code.statement]
  | .predicate cursor code text =>
    phrase "if !" ++ [.parens [code.condition]] ++
      [.braces (callTokens (phrase "return Err")
        [callTokens (phrase "walker . failed_predicate")
          [cursor.tokens, stringTokens rule, stringTokens text]] ++ phrase ";")]
  | .block steps => [.braces (Step.listTokens rule steps)]
  | .choice cursor kind decision arms =>
    kind.wrap
      (phrase "let la =" ++ cursor.tokens ++ callTokens (phrase ". peek_label") [] ++
        phrase ";" ++ separated "else" (Arm.listTokens rule arms) ++
        kind.otherwise (decision.failure rule cursor))

/-- Steps as statements. -/
def Step.listTokens (rule : String) : List Step → List Token
  | [] => []
  | step :: steps => step.tokens rule ++ Step.listTokens rule steps

/-- Arms as conditional statements. -/
def Arm.listTokens (rule : String) : List Arm → List (List Token)
  | [] => []
  | .mk prediction guard steps :: arms =>
    let condition := match guard with
      | some code => prediction.test ++ phrase "&&" ++ [.parens [code.condition]]
      | none => prediction.test
    (phrase "if" ++ condition ++ [.braces (Step.listTokens rule steps)]) ::
      Arm.listTokens rule arms

end

/-! ### Procedures -/

/-- The tokens of code without references. -/
def Fragment.tokens (fragment : Fragment) : List Token :=
  (Host.lex fragment.text.toList).getD []

/-- The initial value of an attribute or a return value. -/
def Attribute.initTokens (attr : Attribute) : List Token :=
  match attr.init with
  | some init => init.tokens
  | none => callTokens (phrase ":: std :: default :: Default :: default") []

/-- The name of the struct that holds the attributes of a variant. -/
def structName (variant : String) : String := variant ++ "Scope"

namespace Procedure

/-- The type of the value of a rule. -/
def valueType (procedure : Procedure) : List Token :=
  match procedure.rule.returns with
  | some returns => returns.type.tokens
  | none => [.parens []]

/-- The result type of the functions of a rule. -/
def resultType (procedure : Procedure) : List Token :=
  phrase "-> Result <" ++ procedure.valueType ++ phrase ", MatchError >"

/-- The parameters of a function of a rule after the given ones. -/
def params (procedure : Procedure) (given : String) : Token :=
  .parens (phrase given ++
    match procedure.rule.params with
    | some params => phrase "," ++ params.tokens
    | none => [])

/-- The arguments of a call of a function of the same rule after the given ones. -/
def args (procedure : Procedure) (given : List (List Token)) : List (List Token) :=
  given ++ procedure.rule.paramNames.map variableTokens

/-- The generic parameters and the parameters of the functions that match the alternatives. -/
def matchHead (procedure : Procedure) : List Token :=
  phrase "< 't , N : TreeNode >" ++
    [procedure.params
      ("walker : & mut Walker , state : & mut State , cursor : & mut Cursor < 't , N > , " ++
        "frame : & Frame < '_ , Scope >")] ++
    procedure.resultType

/-- The statement that opens a frame with the attributes of a rule. -/
def frameTokens (procedure : Procedure) : List Token :=
  match procedure.variant with
  | none => []
  | some variant =>
    let fields := procedure.rule.attributes.map fun attr =>
      [.word attr.name.name] ++ phrase ":" ++
        callTokens (phrase "RefCell :: new") [attr.initTokens]
    phrase "let frame =" ++
      callTokens (phrase "frame . push")
        [phrase "Scope ::" ++
          callTokens [.word variant]
            [[.word (structName variant), .braces (separated "," fields)]]] ++
      phrase ";"

/-- The function that enters the rule. -/
def entering (procedure : Procedure) : List Token :=
  let frame := if procedure.variant.isSome then phrase "& frame" else phrase "frame"
  (if procedure.isEntry then phrase "pub" else []) ++ phrase "fn" ++ [.word procedure.name] ++
    procedure.matchHead ++
    [.braces
      (callTokens (phrase "walker . enter") [stringTokens procedure.name] ++ phrase "? ;" ++
        procedure.frameTokens ++ phrase "let result =" ++
        callTokens [.word procedure.alternativesName]
          (procedure.args [phrase "walker", phrase "state", phrase "cursor", frame]) ++
        phrase ";" ++ callTokens (phrase "walker . exit") [] ++ phrase "; result")]

/-- The statement that declares the value of a rule. -/
def declaration (procedure : Procedure) : List Token :=
  match procedure.rule.returns with
  | some returns =>
    phrase "let mut" ++ [.word returns.name.name] ++ phrase ":" ++ returns.type.tokens ++
      phrase "=" ++ returns.initTokens ++ phrase ";"
  | none => []

/-- The value of a rule. -/
def value (procedure : Procedure) : List Token :=
  match procedure.rule.returns with
  | some returns => [.word returns.name.name]
  | none => [.parens []]

/-- The function for the alternatives of the rule. -/
def alternatives (procedure : Procedure) : List Token :=
  phrase "fn" ++ [.word procedure.alternativesName] ++ procedure.matchHead ++
    [.braces
      (procedure.declaration ++ Step.listTokens procedure.name procedure.steps ++
        callTokens (phrase "Ok") [procedure.value])]

/-- The function that walks a whole tree. -/
def walk (procedure : Procedure) : List Token :=
  phrase "pub fn" ++ [.word procedure.walkName] ++ phrase "< N : TreeNode >" ++
    [procedure.params "walker : & mut Walker , state : & mut State , root : & N"] ++
    procedure.resultType ++
    [.braces
      (phrase "let frame =" ++ callTokens (phrase "Frame :: root") [phrase "Scope :: Root"] ++
        phrase "; let mut cursor =" ++ callTokens (phrase "Cursor :: root") [phrase "root"] ++
        phrase "; let result =" ++
        callTokens [.word procedure.name]
          (procedure.args
            [phrase "walker", phrase "state", phrase "& mut cursor", phrase "& frame"]) ++
        phrase "? ;" ++
        callTokens (phrase "walker . expect_end")
          [phrase "& cursor", stringTokens procedure.name] ++
        phrase "? ;" ++ callTokens (phrase "Ok") [phrase "result"])]

/-- The functions of a rule. -/
def items (procedure : Procedure) : List Token :=
  procedure.entering ++ procedure.alternatives ++
    if procedure.isEntry then procedure.walk else []

/-- The struct that holds the attributes of a rule, if it declares any. -/
def scopeStruct (procedure : Procedure) : List Token :=
  match procedure.variant with
  | none => []
  | some variant =>
    let fields := procedure.rule.attributes.map fun attr =>
      phrase "pub" ++ [.word attr.name.name] ++ phrase ": RefCell <" ++ attr.type.tokens ++
        phrase ">"
    phrase "pub struct" ++ [.word (structName variant), .braces (separated "," fields)]

end Procedure

/-! ### Modules -/

namespace Program

/-- The lints that are of no use for generated code. -/
def allowedLints : String :=
  "unused_mut , unused_variables , unused_imports , unused_braces , unused_parens , dead_code , " ++
    "unreachable_code , non_snake_case , redundant_semicolons , clippy :: all"

/-- The type of the scopes in frames: one variant for each rule that declares attributes. -/
def scopeType (program : Program) : List Token :=
  let variants := (program.procedures.filterMap Procedure.variant).map fun variant =>
    callTokens [.word variant] [[.word (structName variant)]]
  blockTokens "pub enum Scope" ([.word rootVariant] ++ phrase "," ++ separated "," variants) ++
    program.procedures.flatMap Procedure.scopeStruct

/-- The type of the state of the host. -/
def stateTokens (program : Program) : List Token :=
  match program.stateType with
  | some type => (Host.lex type.toList).getD []
  | none => [.parens []]

/-- The contents of the module of a program. -/
def itemTokens (program : Program) : List Token :=
  phrase "# !" ++ [.brackets (callTokens (phrase "allow") [phrase allowedLints])] ++
    blockTokens "use :: arbor_runtime ::"
      (phrase "Cursor , Frame , MatchError , TreeNode , Walker") ++
    phrase "; use :: std :: cell :: RefCell ;" ++
    program.prelude.flatMap Fragment.tokens ++
    phrase "pub type State =" ++ program.stateTokens ++ phrase ";" ++
    program.scopeType ++ program.procedures.flatMap Procedure.items

/-- The module of a program. -/
def moduleTokens (program : Program) : List Token :=
  phrase "pub mod" ++ [.word program.name, .braces program.itemTokens]

end Program

end TreeGrammar
