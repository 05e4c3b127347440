import TreeGrammar.Analysis.Code
import TreeGrammar.Analysis.Declarations
import TreeGrammar.Analysis.Options
import TreeGrammar.Analysis.Scope
import TreeGrammar.Analysis.Termination
import TreeGrammar.Analysis.Usage
import TreeGrammar.Grammar.Parser
import TreeGrammar.Lookahead.Decision

/-!
# Analysis of a grammar

A grammar is checked as a whole even if some part of it is wrong, so that one run reports as many
problems as possible. It is accepted if no diagnostic is fatal.

## Main definitions

* `Grammar`: a grammar with its decisions and the scopes of its attributes
* `Analysis`: a grammar with what there is to say about it
* `analyse`: the analysis of a text
* `Analysis.accepted?`: the grammar, if it is accepted
-/

namespace TreeGrammar

/-- A grammar with what the analysis adds to it. -/
structure Grammar where
  name : Ident
  /-- The options of the caller together with those of the grammar. -/
  options : Options
  tokens : List Ident
  prelude : List Fragment
  rules : Rules
  decisions : List Decision
  scopes : ScopePlan

namespace Grammar

/-- The decision at a place. -/
def decisionAt? (grammar : Grammar) (site : DecisionSite) : Option Decision :=
  grammar.decisions.find? (·.site = site)

end Grammar

/-- What the analysis of a text gives. -/
structure Analysis where
  /-- The grammar, if it has a rule. -/
  grammar : Option Grammar
  /-- What there is to say, in the order in which it is found. -/
  diagnostics : List Diagnostic
  /-- What the options ask to print. -/
  logs : List String := []
  /-- No check of the code stops, so that there is something to say at all. -/
  isReadable : Bool := true

/-- The grammar of an analysis, if it is accepted. -/
def Analysis.accepted? (analysis : Analysis) : Option Grammar :=
  if Acceptable analysis.diagnostics then analysis.grammar else none

/-- The warnings about conflicts that no guard settles. -/
def Rules.ambiguityWarnings (rules : Rules) (decisions : List Decision) : List Diagnostic :=
  decisions.flatMap fun decision =>
    (decision.conflicts.filter (!·.gated)).map fun conflict =>
      ⟨decision.span,
        .ambiguity (rules.nameOf decision.rule) conflict.first conflict.second conflict.overlap⟩

/-- What is printed about the rules: what they may start with and what may follow them. -/
def Rules.describe (rules : Rules) (firsts : List FirstSet) (follows : List LookaheadSet) :
    List String :=
  (rules.zip (firsts.zip follows)).map fun (rule, first, follow) =>
    s!"rule `{rule.name.name}`: FIRST {first.set.toString}" ++
      (if first.nullable then " (nullable)" else "") ++ s!" FOLLOW {follow.toString}"

/-- What is printed about the decisions. -/
def Rules.describeDecisions (rules : Rules) (decisions : List Decision) : List String :=
  decisions.map fun decision =>
    s!"{decision.toString} in rule `{rules.nameOf decision.rule}`"

/-- The analysis of a grammar with at least one rule. If rules are left out because they are not
well written, nothing is said about unused rules and scopes, since the calls are not all known. -/
def SourceGrammar.analyse (grammar : SourceGrammar) (options : Options)
    (syntaxErrors : List Diagnostic) : Analysis :=
  let isComplete := grammar.malformed.isEmpty
  let options := grammar.mergedOptions options
  let rules := grammar.rules.distinct
  let firsts := rules.firstSets
  let first := rules.firstOf firsts
  let follows := rules.followSets first
  let decisions := rules.decisions first follows
  { grammar := some {
      name := grammar.name, options, tokens := grammar.tokens, prelude := grammar.prelude, rules
      decisions, scopes := rules.scopes }
    diagnostics :=
      syntaxErrors ++ grammar.declarationErrors ++ grammar.optionWarnings ++
        grammar.codeErrors options rules ++ rules.recursionErrors first ++
        rules.repeatErrors first ++ (if isComplete then rules.usageWarnings else []) ++
        rules.ambiguityWarnings decisions ++ (if isComplete then rules.scopeErrors else [])
    logs :=
      match options.printDecisions with
      | .nothing => []
      | .shown => rules.describeDecisions decisions
      | .debug => rules.describe firsts follows ++ rules.describeDecisions decisions
    isReadable := grammar.isReadable options rules }

/-- The analysis of a text with the options of a caller. -/
def analyse (source : List Char) (options : Options) : Analysis :=
  let (errors, grammar) := SourceGrammar.parse source
  let syntaxErrors := errors.map fun error => ⟨error.span, .syntaxError error.cause⟩
  if grammar.rules.isEmpty then
    { grammar := none
      diagnostics :=
        syntaxErrors ++
          if grammar.malformed.isEmpty then [⟨grammar.name.span, .noRule⟩] else [] }
  else grammar.analyse options syntaxErrors

end TreeGrammar
