import TreeGrammar.Compilation

/-!
# The passes of a compilation

A compilation is made of passes, one after the other. Every pass adds to the diagnostics that all of
them share, and it has a flag of its own by which it decides whether its result is good for
generating code, or only for finding more errors. What is handed out at the end depends on both, the
results of the passes and the diagnostics.

`analyse` and `compile` say what the passes yield as a whole; here the passes are taken one by one.

## Main definitions

* `Partial`, `Run`: what passes have made, and what they have reported
* `Checker`: the state of a pass, with its flag
* `Draft`, `passes`: a grammar that is being analysed, and the passes of its analysis
* `Grammar.codeReports`, `Grammar.generate`: the generation of code and what it reports
* `runAnalysis`, `runCompilation`: the analysis of a text, and the generation of code after it
-/

namespace TreeGrammar

/-! ### Results -/

/-- What a pass makes. -/
inductive Partial (α : Type) where
  /-- A result without errors. -/
  | value (result : α)
  /-- A result that is only good for finding more errors. -/
  | fake (result : α)
  /-- No result at all. -/
  | nothing

namespace Partial

variable {α β : Type}

/-- There is a result without errors. -/
def isValue : Partial α → Bool
  | value _ => true
  | fake _ | nothing => false

/-- The result, of either kind. -/
def result? : Partial α → Option α
  | value result | fake result => some result
  | nothing => none

/-- What is left of a result where an earlier one was only good for finding more errors. -/
def demote : Partial α → Partial α
  | value result | fake result => fake result
  | nothing => nothing

/-- A result of the same kind. -/
def map (f : α → β) : Partial α → Partial β
  | value result => value (f result)
  | fake result => fake (f result)
  | nothing => nothing

end Partial

/-- What some passes have made, and all that has been reported, in this order. -/
structure Run (α : Type) where
  outcome : Partial α
  diagnostics : List Diagnostic

/-- A pass makes something of the result of earlier passes, and adds to what they have reported. -/
abbrev Pass (α β : Type) := α → List Diagnostic → Run β

namespace Run

variable {α β : Type}

/-- The next pass is run on any result. It makes no value of one that is only good for finding more
errors. -/
def andThen (run : Run α) (pass : Pass α β) : Run β :=
  match run.outcome with
  | .value result => pass result run.diagnostics
  | .fake result =>
    let next := pass result run.diagnostics
    { next with outcome := next.outcome.demote }
  | .nothing => ⟨.nothing, run.diagnostics⟩

/-- The next pass is run on a value only. -/
def andNext (run : Run α) (pass : Pass α β) : Run β :=
  match run.outcome with
  | .value result => pass result run.diagnostics
  | .fake _ | .nothing => ⟨.nothing, run.diagnostics⟩

/-- What is handed out: a value, if nothing fatal has been reported. -/
def accepted? (run : Run α) : Option α :=
  match run.outcome with
  | .value result => if Acceptable run.diagnostics then some result else none
  | .fake _ | .nothing => none

end Run

/-! ### Flags -/

/-- The state of a pass: what has been reported, and whether the pass has noted an error. -/
structure Checker where
  diagnostics : List Diagnostic
  failed : Bool := false

namespace Checker

/-- Reports a diagnostic. -/
def report (checker : Checker) (diagnostic : Diagnostic) : Checker :=
  { checker with diagnostics := checker.diagnostics ++ [diagnostic] }

/-- Notes an error. -/
def fail (checker : Checker) : Checker := { checker with failed := true }

/-- Reports an error and notes it. -/
def error (checker : Checker) (diagnostic : Diagnostic) : Checker :=
  (checker.report diagnostic).fail

/-- The end of a pass. -/
def finish {α : Type} (checker : Checker) (result : α) : Run α :=
  ⟨if checker.failed then .fake result else .value result, checker.diagnostics⟩

end Checker

/-- A pass that reports its errors and notes each of them. -/
def checkAll {α : Type} (errors : List Diagnostic) : Pass α α := fun result diagnostics =>
  (errors.foldl Checker.error ⟨diagnostics, false⟩).finish result

/-! ### Repetitions -/

section Distinct

variable {α : Type} (ident : α → Ident) (problem : α → α → Diagnostic)

/-- One more item is kept, unless its name is that of an item that has been kept. -/
def keepItem : List α × Checker → α → List α × Checker
  | (kept, checker), item =>
    match kept.find? fun other => (ident other).name = (ident item).name with
    | some previous => (kept, checker.error (problem item previous))
    | none => (kept ++ [item], checker)

/-- Keeps the first item of each name. -/
def keepFirst : Pass (List α) (List α) := fun items diagnostics =>
  let (kept, checker) := items.foldl (keepItem ident problem) ([], ⟨diagnostics, false⟩)
  checker.finish kept

end Distinct

/-- A rule is declared again. -/
def Rule.repetition (rule previous : Rule) : Diagnostic :=
  ⟨rule.name.span, .duplicateRule rule.name.name previous.name.span⟩

/-- An attribute is declared again. -/
def Attribute.repetition (attr previous : Attribute) : Diagnostic :=
  ⟨attr.name.span, .duplicateAttribute attr.name.name previous.name.span⟩

/-- The return value of a rule has the name of an attribute. -/
def Rule.clash? (rule : Rule) : Option Diagnostic :=
  rule.returns.bind fun returns => (rule.attribute? returns.name.name).map fun attr =>
    ⟨returns.name.span, .clashingReturnValue returns.name.name rule.name.name attr.name.span⟩

/-- Keeps the first attribute of each name in a rule, and then looks at its return value. -/
def Rule.keepAttributes (rule : Rule) (checker : Checker) : Rule × Checker :=
  let run := keepFirst Attribute.name Attribute.repetition rule.attributes checker.diagnostics
  let (attributes, failed) : List Attribute × Bool :=
    match run.outcome with
    | .value attributes => (attributes, checker.failed)
    | .fake attributes => (attributes, true)
    | .nothing => ([], checker.failed)
  let rule := { rule with attributes }
  let checker : Checker := ⟨run.diagnostics, failed⟩
  (rule, rule.clash?.elim checker checker.error)

/-- One more rule is kept, with the first attribute of each name. -/
def keepRule : Rules × Checker → Rule → Rules × Checker
  | (kept, checker), rule =>
    let (rule, checker) := rule.keepAttributes checker
    (kept ++ [rule], checker)

/-- The cycles of calls that are met before a node is consumed, some of them maybe several times. -/
def Rules.metCycles (rules : Rules) (first : String → FirstSet) : List (List Nat) :=
  let calls := rules.leftCalls first
  cycles calls.callees calls.nodes (calls.nodes.map ([], ·))

/-! ### The passes -/

/-- A grammar that is being analysed. Its source loses what is declared again, while its options,
its decisions and its scopes are still to be determined. -/
structure Draft where
  source : SourceGrammar
  options : Options
  decisions : List Decision := []
  scopes : ScopePlan := []

/-- The grammar that is handed out at the end. -/
def Draft.grammar (draft : Draft) : Grammar where
  name := draft.source.name
  options := draft.options
  tokens := draft.source.tokens
  prelude := draft.source.prelude
  rules := draft.source.rules
  decisions := draft.decisions
  scopes := draft.scopes

namespace Draft

/-- Some rules have been left out because they are not well written. -/
def isMalformed (draft : Draft) : Bool := !draft.source.malformed.isEmpty

/-- The draft with other rules. -/
def withRules (draft : Draft) (rules : Rules) : Draft :=
  { draft with source := { draft.source with rules } }

/-- There is a rule. If all rules have been left out, this is not reported on its own. -/
def requireRule : Pass Draft Draft := fun draft diagnostics =>
  if draft.source.rules.isEmpty && draft.isMalformed then ⟨.nothing, diagnostics⟩
  else if draft.source.rules.isEmpty then
    ⟨.nothing, diagnostics ++ [⟨draft.source.name.span, .noRule⟩]⟩
  else ⟨.value draft, diagnostics⟩

/-- No rule is declared again. -/
def distinctRules : Pass Draft Draft := fun draft diagnostics =>
  let run := keepFirst Rule.name Rule.repetition draft.source.rules diagnostics
  ⟨run.outcome.map draft.withRules, run.diagnostics⟩

/-- No attribute is declared again. -/
def distinctAttributes : Pass Draft Draft := fun draft diagnostics =>
  let (rules, checker) := draft.source.rules.foldl keepRule ([], ⟨diagnostics, false⟩)
  checker.finish (draft.withRules rules)

/-- The names that elements mention are declared. -/
def declaredNames : Pass Draft Draft := fun draft =>
  checkAll (draft.source.rules.exprs.filterMap fun expr =>
    (draft.source.nameError? expr).map (⟨expr.span, ·⟩)) draft

/-- The options of the grammar are added to those of the caller. -/
def mergeOptions : Pass Draft Draft := fun draft diagnostics =>
  ⟨.value { draft with options := draft.source.mergedOptions draft.options },
    diagnostics ++ draft.source.optionWarnings⟩

/-- The names and the code of the grammar may be taken over. -/
def validCode : Pass Draft Draft := fun draft =>
  checkAll (draft.source.codeErrors draft.options draft.source.rules) draft

/-- What there is to say about a cycle of calls. -/
def cycleError? (rules : Rules) (cycle : List Nat) : Option Diagnostic :=
  (cycle.head?.bind (rules[·]?)).map fun rule =>
    ⟨rule.name.span, .leftRecursion (cycle.map rules.nameOf)⟩

/-- A cycle of calls is met. It is noted each time, but reported only once. -/
def meetCycle (rules : Rules) : List (List Nat) × Checker → List Nat → List (List Nat) × Checker
  | (met, checker), cycle =>
    let checker := checker.fail
    if met.any (sameRules cycle) then (met, checker)
    else
      (met ++ [cycle], match cycleError? rules cycle with
        | some error => checker.report error
        | none => checker)

/-- An element is met. If it is repeated and may match nothing, this is noted each time, but
reported only once. -/
def meetExpr (first : String → FirstSet) : List Nat × Checker → Expr → List Nat × Checker
  | (met, checker), expr =>
    match expr.repeatError? first with
    | some error =>
      let checker := checker.fail
      if expr.id ∈ met then (met, checker) else (met ++ [expr.id], checker.report error)
    | none => (met, checker)

/-- Walks end. -/
def endingWalks : Pass Draft Draft := fun draft diagnostics =>
  let rules := draft.source.rules
  let first := rules.firstOf rules.firstSets
  let (_, checker) := (rules.metCycles first).foldl (meetCycle rules) ([], ⟨diagnostics, false⟩)
  let (_, checker) := rules.exprs.foldl (meetExpr first) ([], checker)
  checker.finish draft

/-- Every rule is used. Nothing is said about it if the calls are not all known. -/
def usedRules : Pass Draft Draft := fun draft diagnostics =>
  ⟨.value draft,
    if draft.isMalformed then diagnostics else diagnostics ++ draft.source.rules.usageWarnings⟩

/-- The decisions are made. -/
def predict : Pass Draft Draft := fun draft diagnostics =>
  let rules := draft.source.rules
  let first := rules.firstOf rules.firstSets
  let decisions := rules.decisions first (rules.followSets first)
  ⟨.value { draft with decisions }, diagnostics ++ rules.ambiguityWarnings decisions⟩

/-- A reference is resolved. If it has no meaning, then the reason is reported, and the lack of a
meaning is noted. -/
def resolveReference : ScopePlan × Checker → Except Diagnostic ScopeEntry → ScopePlan × Checker
  | (plan, checker), .ok entry => (plan ++ [entry], checker)
  | (plan, checker), .error error => (plan, (checker.report error).fail)

/-- The references are resolved, unless the calls are not all known. -/
def resolveScopes : Pass Draft Draft := fun draft diagnostics =>
  if draft.isMalformed then ⟨.fake draft, diagnostics⟩
  else
    let (scopes, checker) := draft.source.rules.resolutions.foldl resolveReference
      ([], ⟨diagnostics, false⟩)
    checker.finish { draft with scopes }

end Draft

namespace Draft

/-- The checks of a grammar as it is written. -/
def check : Pass Draft Draft := fun draft diagnostics =>
  (draft.distinctRules diagnostics).andThen distinctAttributes |>.andThen declaredNames
    |>.andThen mergeOptions |>.andThen validCode |>.andThen endingWalks |>.andThen usedRules

/-- The analysis of a grammar that has been read. -/
def analyse : Pass Draft Draft := fun draft diagnostics =>
  (draft.requireRule diagnostics).andThen check |>.andThen predict |>.andThen resolveScopes

end Draft

/-- The text is read. Every syntax error is reported and noted. -/
def readSource (source : List Char) (options : Options) : Run Draft :=
  let (errors, grammar) := SourceGrammar.parse source
  checkAll (errors.map fun error => ⟨error.span, .syntaxError error.cause⟩)
    { source := grammar, options } []

/-- The analysis of a text. -/
def runAnalysis (source : List Char) (options : Options) : Run Draft :=
  (readSource source options).andThen Draft.analyse

/-- The passes of an analysis after the text is read. -/
def passes : List (Pass Draft Draft) :=
  [Draft.requireRule, Draft.distinctRules, Draft.distinctAttributes, Draft.declaredNames,
    Draft.mergeOptions, Draft.validCode, Draft.endingWalks, Draft.usedRules, Draft.predict,
    Draft.resolveScopes]

/-- Some passes are run, one after the other. -/
def Run.through (run : Run Draft) (passes : List (Pass Draft Draft)) : Run Draft :=
  passes.foldl Run.andThen run

/-! ### Code -/

/-- The number of errors that have been reported. -/
def errorCount (diagnostics : List Diagnostic) : Nat := diagnostics.countP Diagnostic.isFatal

/-- A piece of code does not consist of tokens as it is written. -/
def Fragment.textError? (fragment : Fragment) : Option Diagnostic :=
  fragment.lexicalError? fragment.text.toList

/-- What is wrong with the type of an attribute or a return value. -/
def Attribute.typeReport? (attr : Attribute) : Option Diagnostic := attr.type.textError?

/-- What is wrong with the initial value of an attribute or a return value. -/
def Attribute.initReport? (attr : Attribute) : Option Diagnostic :=
  attr.init.bind Fragment.textError?

/-- What is wrong with the parameters and the return type of a rule, which every function of the
rule repeats. -/
def Rule.headReports (rule : Rule) : List Diagnostic :=
  rule.params.toList.filterMap Fragment.textError? ++
    rule.returns.toList.filterMap Attribute.typeReport?

/-- The references in a piece of code that have nowhere to look for their attributes. -/
def BoundFragment.lookupReports (code : BoundFragment) (rule : Rule) : List Diagnostic :=
  code.accesses.filterMap fun access =>
    if access.variants.isEmpty then
      some ⟨code.source.span, .noDeclaringRule access.name rule.name.name⟩
    else none

/-- What is reported where the references in the code of a rule are bound. -/
def Rule.lookupReports (context : BuildContext) (rule : Rule) : List Diagnostic :=
  (Step.listFragments (rule.steps context)).flatMap (BoundFragment.lookupReports · rule)

/-- What is wrong with the functions of a rule. -/
def Rule.functionReports (context : BuildContext) (isEntry : Bool) (rule : Rule) :
    List Diagnostic :=
  rule.headReports ++ rule.attributes.filterMap Attribute.initReport? ++ rule.headReports ++
    rule.returns.toList.filterMap Attribute.typeReport? ++
    rule.returns.toList.filterMap Attribute.initReport? ++
    rule.lookupReports context ++ rule.lexicalErrors ++
    if isEntry then rule.headReports else []

namespace Grammar

/-- What is reported while code is generated: whatever does not consist of tokens, and references
that have nowhere to look for their attributes. -/
def codeReports (grammar : Grammar) : List Diagnostic :=
  let stateType := grammar.options.stateType.map fun type =>
    ({ text := type, span := grammar.name.span } : Fragment)
  let attributes := grammar.rules.flatMap Rule.attributes
  grammar.prelude.filterMap Fragment.textError? ++ stateType.toList.filterMap Fragment.textError? ++
    attributes.filterMap Attribute.typeReport? ++
    grammar.rules.zipIdx.flatMap fun (rule, index) =>
      rule.functionReports
        { scopes := grammar.scopes, variants := grammar.rules.scopeNames
          decisions := grammar.decisions, rule := index }
        (index ∈ grammar.rules.entries)

/-- Code is generated. The pass has no flag, but it compares the numbers of errors before and after
it. -/
def generate : Pass Grammar String := fun grammar diagnostics =>
  let next := diagnostics ++ grammar.codeReports
  ⟨if errorCount next > errorCount diagnostics then .nothing
    else .value (Host.Token.print grammar.program.moduleTokens), next⟩

end Grammar

/-- The analysis of a text, and the generation of code for a grammar without errors. -/
def runCompilation (source : List Char) (options : Options) : Run String :=
  (runAnalysis source options).andNext fun draft => draft.grammar.generate

end TreeGrammar
