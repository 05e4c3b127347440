import TreeGrammar.Diagnostic
import TreeGrammar.Grammar.Reference
import TreeGrammar.Options
import TreeGrammar.Host.Check

/-!
# Names and code that the generated module takes over

The names of a grammar become identifiers of Rust, next to the names that the generated code uses
itself. Types, initial values, parameters and preludes have to be what they stand for. Actions,
predicates and arguments are not checked here, apart from stray marks. A check may also stop at code
that cannot be read at all.

## Main definitions

* `Ident.roleError?`: what is wrong with a name
* `Rule.paramNames`: the names that the parameters of a rule bind
* `SourceGrammar.codeErrors`: what is wrong with the names and the code of a grammar
* `SourceGrammar.isReadable`: no check of the code of a grammar stops
-/

namespace TreeGrammar

/-- The names that the generated code binds itself. -/
def reservedNames : List String :=
  ["walker", "state", "cursor", "frame", "la", "result", "root"]

/-- The generated code may use a name itself: it binds the name, or the name starts like those of
its variables. -/
def isReserved (name : String) : Bool :=
  name ∈ reservedNames || ['_', '_'].isPrefixOf name.toList

/-- What is wrong with a name that is given to something. -/
def NameRole.error? (role : NameRole) (name : String) : Option Problem :=
  if !Host.isIdentifier name then some (.keywordName name role)
  else if isReserved name then some (.reservedName name role)
  else none

/-- What is wrong with a name at its place. -/
def Ident.roleError? (role : NameRole) (ident : Ident) : Option Diagnostic :=
  (role.error? ident.name).map (⟨ident.span, ·⟩)

/-- What is wrong with an initial value: it refers to an attribute, or it is no expression. -/
def Attribute.initError? (kind : DeclarationKind) (attr : Attribute) : Option Diagnostic :=
  attr.init.bind fun init =>
    match init.references with
    | reference :: _ =>
      some ⟨reference.span, .referenceInInit kind attr.name.name reference.name⟩
    | [] =>
      if (Host.readExpression init.text).isOk then none
      else some ⟨init.span, .invalidInit kind attr.name.name⟩

/-- What is wrong with the declaration of an attribute or a return value. -/
def Attribute.codeErrors (kind : DeclarationKind) (attr : Attribute) : List Diagnostic :=
  (attr.name.roleError? kind.role).toList ++
    (if (Host.readType attr.type.text).isOk then []
      else [⟨attr.type.span, .invalidType kind attr.name.name⟩]) ++
    (attr.initError? kind).toList

/-- The checks of the type and the initial value of a declaration. An initial value that refers to
attributes is not checked. -/
def Attribute.readings (attr : Attribute) : List (Except Host.Refusal Unit) :=
  Host.readType attr.type.text ::
    (attr.init.toList.filter (·.references.isEmpty)).map (Host.readExpression ·.text)

namespace Rule

/-- The check of the parameters of a rule. -/
def readParameters (rule : Rule) : Except Host.Refusal (List Host.Parameter) :=
  match rule.params with
  | some params => Host.readParameters params.text
  | none => .ok []

/-- The names that the parameters of a rule bind. -/
def paramNames (rule : Rule) : List String :=
  (rule.readParameters.toOption.getD []).filterMap fun
    | .named name => some name
    | _ => none

/-- What is wrong with the parameters of a rule. -/
def paramErrors (rule : Rule) : List Problem :=
  match rule.readParameters with
  | .error _ => [.invalidParams rule.name.name]
  | .ok parameters => parameters.filterMap fun
    | .named name => NameRole.parameter.error? name
    | .receiver => some (.selfParam rule.name.name)
    | .complex => some (.complexParams rule.name.name)

/-- What is wrong with the name and the declarations of a rule. -/
def codeErrors (rule : Rule) : List Diagnostic :=
  (rule.name.roleError? .rule).toList ++
    rule.attributes.flatMap (Attribute.codeErrors .attr) ++
    rule.returns.toList.flatMap (Attribute.codeErrors .returnValue) ++
    rule.params.toList.flatMap fun params => rule.paramErrors.map (⟨params.span, ·⟩)

/-- The checks of the declarations of a rule. -/
def readings (rule : Rule) : List (Except Host.Refusal Unit) :=
  (rule.attributes ++ rule.returns.toList).flatMap Attribute.readings ++
    [rule.readParameters.map fun _ => ()]

/-- The stray marks in the code of a rule. -/
def strayMarkErrors (rule : Rule) : List Diagnostic :=
  rule.fragments.flatMap fun code => code.strayMarks.map (⟨·, .strayMark code.trimmed⟩)

end Rule

namespace SourceGrammar

/-- What is wrong with the state type. -/
def stateTypeError? (grammar : SourceGrammar) (options : Options) : Option Diagnostic :=
  options.stateType.bind fun type =>
    if (Host.readType type).isOk then none else some ⟨grammar.name.span, .invalidStateType type⟩

/-- What is wrong with the names and the code of a grammar, whose rules are given without those that
are declared again. -/
def codeErrors (grammar : SourceGrammar) (options : Options) (rules : Rules) : List Diagnostic :=
  (grammar.name.roleError? .grammar).toList ++
    (grammar.stateTypeError? options).toList ++
    grammar.prelude.filterMap (fun prelude =>
      if (Host.readFile prelude.text).isOk then none else some ⟨prelude.span, .invalidPrelude⟩) ++
    rules.flatMap Rule.codeErrors ++
    rules.flatMap Rule.strayMarkErrors ++
    grammar.labels.filterMap (Ident.roleError? .label)

/-- No check of the code of a grammar stops. -/
def isReadable (grammar : SourceGrammar) (options : Options) (rules : Rules) : Bool :=
  let readings :=
    options.stateType.toList.map Host.readType ++
      grammar.prelude.map (Host.readFile ·.text) ++ rules.flatMap Rule.readings
  readings.all (!Host.isUnreadable ·)

end SourceGrammar

end TreeGrammar
