import TreeGrammar.Diagnostic
import TreeGrammar.Grammar.CallGraph

/-!
# Unused rules

## Main definitions

* `Rules.usageWarnings`: the rules that no walk comes to
-/

namespace TreeGrammar

/-- The rules that no walk comes to. -/
def Rules.usageWarnings (rules : Rules) : List Diagnostic :=
  let used := rules.callGraph.reachable rules.entries
  rules.zipIdx.filterMap fun (rule, i) =>
    if i ∈ used then none else some ⟨rule.name.span, .unusedRule rule.name.name⟩

end TreeGrammar
