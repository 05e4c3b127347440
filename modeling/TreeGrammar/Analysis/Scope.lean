import TreeGrammar.Diagnostic
import TreeGrammar.Grammar.CallGraph
import TreeGrammar.Grammar.Reference

/-!
# Scopes of attributes

A reference to an attribute means the attribute of this name of the innermost active call whose rule
declares it, starting with the call of the rule that has the reference. The reference is in scope if
every path of calls from the start of a walk to its rule goes through a rule that declares the
attribute. The rules that may hold the innermost declaration have to agree on its type.

## Main definitions

* `Resolution`: the rules that a reference may mean, and their common type
* `Rules.resolve`: the resolution of a reference
* `Rules.scopes`: the resolutions of all references of a grammar
-/

namespace TreeGrammar

/-- The meaning of a reference to an attribute. -/
structure ScopeResolution where
  /-- The rules whose declaration may be the innermost one, in increasing order. -/
  declaring : List Nat
  /-- The normalized type of the attribute. -/
  type : String
  deriving DecidableEq, Repr

/-- The meaning of the references to an attribute in a rule. -/
structure ScopeEntry where
  /-- The number of the rule with the references. -/
  rule : Nat
  name : String
  resolution : ScopeResolution
  deriving DecidableEq, Repr

/-- The meaning of the references of a grammar, by rule and then by name. -/
abbrev ScopePlan := List ScopeEntry

/-- The meaning of the references to an attribute in a rule, if they have one. -/
def ScopePlan.resolution? (plan : ScopePlan) (rule : Nat) (name : String) :
    Option ScopeResolution :=
  (plan.find? fun entry => entry.rule = rule && entry.name = name).map ScopeEntry.resolution

/-- The attributes to which a rule refers, by name, each with its first reference. -/
def Rule.references (rule : Rule) : List Ident :=
  let references := rule.fragments.flatMap Fragment.references
  (LabelSet.ofList (references.map Ident.name)).toList.filterMap fun name =>
    references.find? (·.name = name)

namespace Rules

/-- The rules that declare an attribute and that are met first on the way from a rule to its
callers. -/
def nearestDeclaring (rules : Rules) (graph : CallGraph) (rule : Nat) (name : String) :
    List Nat :=
  let undeclaring := graph.nodes.filter fun other => !rules.declares other name
  let inside := (CallGraph.paths graph.callers undeclaring [rule]).map CallGraph.Path.last
  graph.nodes.filter fun caller =>
    rules.declares caller name && inside.any fun callee => caller ∈ graph.callers callee

/-- The declarations of an attribute in some rules. -/
def declarations (rules : Rules) (declaring : List Nat) (name : String) :
    List TypedDeclaration :=
  declaring.filterMap fun index =>
    rules[index]?.bind fun rule => (rule.attribute? name).map fun attr =>
      { span := attr.name.span, type := attr.typeText, rule := rule.name.name }

/-- The meaning of a reference to an attribute in a rule, or why it has none. -/
def resolve (rules : Rules) (graph : CallGraph) (rule : Nat) (name : String) :
    Except Problem ScopeResolution :=
  let ruleName := rules.nameOf rule
  match rules[rule]?.bind (·.attribute? name) with
  | some attr => .ok { declaring := [rule], type := attr.typeText }
  | none =>
    match graph.path? rules.entries rule (!rules.declares · name) with
    | some path => .error (.undeclaredOnPath name ruleName (path.map rules.nameOf))
    | none =>
      let declaring := rules.nearestDeclaring graph rule name
      match rules.declarations declaring name with
      | [] => .error (.undeclaredByCallers name ruleName)
      | first :: others =>
        if others.all (·.type = first.type) then .ok { declaring, type := first.type }
        else .error (.typeConflict name ruleName (first :: others))

/-- The meaning of each reference of a grammar, or why it has none. -/
def resolutions (rules : Rules) : List (Except Diagnostic ScopeEntry) :=
  let graph := rules.callGraph
  rules.zipIdx.flatMap fun (rule, index) => rule.references.map fun reference =>
    match rules.resolve graph index reference.name with
    | .ok resolution => .ok { rule := index, name := reference.name, resolution }
    | .error problem => .error ⟨reference.span, problem⟩

/-- The meaning of the references of a grammar. -/
def scopes (rules : Rules) : ScopePlan :=
  rules.resolutions.filterMap Except.toOption

/-- The references that have no meaning. -/
def scopeErrors (rules : Rules) : List Diagnostic :=
  rules.resolutions.filterMap fun
    | .ok _ => none
    | .error diagnostic => some diagnostic

end Rules

end TreeGrammar
