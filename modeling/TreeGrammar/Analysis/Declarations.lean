import TreeGrammar.Diagnostic

/-!
# Declarations

Every rule is declared once, and a rule declares each of its attributes once; its return value has a
name of its own. Where something is declared again, the first declaration counts. Nodes and tokens
are labelled with declared tokens, and the rules that are called are declared.

## Main definitions

* `firstOfNames`, `repetitions`: items that have the names of earlier ones, and the others
* `Rules.distinct`: the rules with first declarations only
* `SourceGrammar.declarationErrors`: what is declared again or not at all
-/

namespace TreeGrammar

/-- The items that have no name of an earlier item. -/
def firstOfNames {α : Type} (ident : α → Ident) (items : List α) : List α :=
  items.zipIdx.filterMap fun (item, i) =>
    if (items.take i).any fun other => (ident other).name = (ident item).name then none
    else some item

/-- The items that have the name of an earlier item, each with the first item of this name. -/
def repetitions {α : Type} (ident : α → Ident) (items : List α) : List (α × α) :=
  items.zipIdx.filterMap fun (item, i) =>
    ((items.take i).find? fun other => (ident other).name = (ident item).name).map (item, ·)

namespace Rule

/-- The rule without attributes that are declared again. -/
def distinct (rule : Rule) : Rule :=
  { rule with attributes := firstOfNames Attribute.name rule.attributes }

/-- The attributes that a rule declares again, and a return value with the name of an attribute. -/
def declarationErrors (rule : Rule) : List Diagnostic :=
  (repetitions Attribute.name rule.attributes).map (fun (attr, previous) =>
    ⟨attr.name.span, .duplicateAttribute attr.name.name previous.name.span⟩) ++
  (rule.returns.bind fun returns => (rule.attribute? returns.name.name).map fun attr =>
    ⟨returns.name.span,
      .clashingReturnValue returns.name.name rule.name.name attr.name.span⟩).toList

end Rule

namespace Rules

/-- The rules without rules and attributes that are declared again. -/
def distinct (rules : Rules) : Rules := (firstOfNames Rule.name rules).map Rule.distinct

/-- The rules that are declared again, and what the others declare again. -/
def repetitionErrors (rules : Rules) : List Diagnostic :=
  (repetitions Rule.name rules).map (fun (rule, previous) =>
    ⟨rule.name.span, .duplicateRule rule.name.name previous.name.span⟩) ++
  (firstOfNames Rule.name rules).flatMap Rule.declarationErrors

end Rules

namespace SourceGrammar

/-- A rule is declared, maybe by a declaration that is not well written. -/
def declaresRule (grammar : SourceGrammar) (name : String) : Bool :=
  grammar.rules.any (·.name.name = name) || grammar.malformed.any (·.name = name)

/-- A token is declared. -/
def declaresToken (grammar : SourceGrammar) (name : String) : Bool :=
  grammar.tokens.any (·.name = name)

/-- What is wrong with the name that an element mentions. -/
def nameError? (grammar : SourceGrammar) : Expr → Option Problem
  | .node _ _ _ name _ | .token _ _ _ name =>
    if grammar.declaresToken name.name then none else some (.undeclaredToken name.name)
  | .rule _ _ _ name _ =>
    if grammar.declaresRule name.name then none else some (.undefinedRule name.name)
  | _ => none

/-- The names that elements mention and that are not declared. -/
def nameErrors (grammar : SourceGrammar) : List Diagnostic :=
  grammar.rules.distinct.exprs.filterMap fun expr =>
    (grammar.nameError? expr).map (⟨expr.span, ·⟩)

/-- What is declared again or not at all. -/
def declarationErrors (grammar : SourceGrammar) : List Diagnostic :=
  grammar.rules.repetitionErrors ++ grammar.nameErrors

end SourceGrammar

end TreeGrammar
