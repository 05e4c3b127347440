import Mathlib.Logic.Relation
import TreeGrammar.Proofs.Grammar.Forest
import TreeGrammar.Proofs.Grammar.Membership
import TreeGrammar.Proofs.Grammar.ShortestPaths

/-!
# Calls and chains of calls

A rule calls another one wherever a reference to it stands: in an alternative, among the children of
a node, in a group, and so on to any depth. The search along the graph of calls finds exactly the
rules to which chains of such references lead.

## Main definitions

* `Rule.Holds`: an element stands in a rule, at any depth
* `Rules.Refers`: a rule holds a reference to another one

## Main results

* `Rule.mem_exprs_iff`: the elements of a rule are those that it holds
* `Rules.mem_reachable_iff`: the rules that are found are those to which references lead
-/

namespace TreeGrammar

/-! ### Elements at any depth -/

/-- An element stands in an alternative of the rule, or inside an element that does, at any
depth. -/
def Rule.Holds (rule : Rule) (expr : Expr) : Prop :=
  ∃ root ∈ rule.roots, Relation.ReflTransGen (fun outer inner => inner ∈ outer.held) root expr

namespace Expr

/-- The elements that are listed for an element are those to which one comes from it. -/
theorem mem_postorder_iff {tree expr : Expr} : expr ∈ tree.postorder ↔
    Relation.ReflTransGen (fun outer inner => inner ∈ outer.held) tree expr := by
  constructor
  · intro h
    induction tree using induction_held with
    | h tree ih =>
      rw [postorder_eq, List.mem_append, postorderList_eq_flatMap] at h
      rcases h with hInside | hSelf
      · obtain ⟨other, hOther, hMem⟩ := List.mem_flatMap.1 hInside
        exact .head hOther (ih other hOther hMem)
      · rw [List.mem_singleton.1 hSelf]
  · intro h
    induction h using Relation.ReflTransGen.head_induction_on with
    | refl => exact expr.mem_postorder_self
    | head hHeld _ ih =>
      rw [postorder_eq, List.mem_append, postorderList_eq_flatMap]
      exact .inl (List.mem_flatMap.2 ⟨_, hHeld, ih⟩)

end Expr

/-- The elements of a rule are those that it holds. -/
theorem Rule.mem_exprs_iff {rule : Rule} {expr : Expr} : expr ∈ rule.exprs ↔ rule.Holds expr := by
  rw [Rule.exprs, Expr.postorderAlternatives_eq, Expr.postorderList_eq_flatMap, List.mem_flatMap]
  simp only [Expr.mem_postorder_iff, Rule.Holds, Rule.roots]

/-! ### Chains of calls -/

namespace CallGraph

variable {graph : CallGraph} {roots : List Nat} {node : Nat}

/-- The search finds what chains of calls lead to, if it starts in the graph and calls stay in
it. -/
theorem mem_reachable_iff (hRoots : roots ⊆ graph.nodes)
    (hCallees : ∀ caller, graph.callees caller ⊆ graph.nodes) :
    node ∈ graph.reachable roots ↔
      ∃ root ∈ roots, Relation.ReflTransGen (fun a b => b ∈ graph.callees a) root node := by
  show node ∈ ends _ ↔ _
  rw [mem_ends_paths_iff]
  constructor
  · rintro ⟨chain, hChain⟩
    induction hChain with
    | @root node hRoot _ => exact ⟨node, hRoot, .refl⟩
    | step _ hNext _ ih =>
      obtain ⟨root, hRoot, hSteps⟩ := ih
      exact ⟨root, hRoot, hSteps.tail hNext⟩
  · rintro ⟨root, hRoot, hSteps⟩
    induction hSteps with
    | refl => exact ⟨[root], .root hRoot (hRoots hRoot)⟩
    | tail _ hNext ih =>
      obtain ⟨chain, hChain⟩ := ih
      exact ⟨chain ++ [_], .step hChain hNext (hCallees _ hNext)⟩

end CallGraph

namespace Rules

variable {rules : Rules} {caller callee i : Nat} {name : String}

/-- The rule with the number `caller` holds a reference to the rule with the number `callee`. -/
def Refers (rules : Rules) (caller callee : Nat) : Prop :=
  ∃ rule called : Rule, rules[caller]? = some rule ∧ rules[callee]? = some called ∧
    ∃ expr, rule.Holds expr ∧ expr.called? = some called.name.name

/-- If the names of rules differ, then the number of a name is that of the rule with this name. -/
theorem index?_eq_some_iff (hNames : (rules.map fun rule => rule.name.name).Nodup) :
    rules.index? name = some i ↔ ∃ rule : Rule, rules[i]? = some rule ∧ rule.name.name = name := by
  refine ⟨getElem?_of_index?, ?_⟩
  rintro ⟨rule, hRule, rfl⟩
  obtain ⟨hi, rfl⟩ := List.getElem?_eq_some_iff.1 hRule
  refine List.findIdx?_eq_some_iff_getElem.2 ⟨hi, decide_eq_true rfl, fun j hj hSame => ?_⟩
  have hEq := (List.nodup_iff_injective_get.1 hNames).eq_iff
    (a := ⟨j, by simpa using hj.trans hi⟩) (b := ⟨i, by simpa using hi⟩)
  simp only [List.get_eq_getElem, List.getElem_map, Fin.mk.injEq] at hEq
  exact absurd (hEq.1 (of_decide_eq_true hSame)) (Nat.ne_of_lt hj)

/-- If the names of rules differ, then the edges of the graph of calls are the references. -/
theorem mem_callees_iff_refers (hNames : (rules.map fun rule => rule.name.name).Nodup) :
    callee ∈ rules.callGraph.callees caller ↔ rules.Refers caller callee := by
  refine (mem_callees_iff Rule.calls rfl).trans ⟨?_, ?_⟩
  · rintro ⟨rule, name, hRule, hCall, hCallee⟩
    obtain ⟨called, hCalled, rfl⟩ := (index?_eq_some_iff hNames).1 hCallee
    obtain ⟨expr, hExpr, hName⟩ := List.mem_filterMap.1 hCall
    exact ⟨rule, called, hRule, hCalled, expr, Rule.mem_exprs_iff.1 hExpr, hName⟩
  · rintro ⟨rule, called, hRule, hCalled, expr, hExpr, hName⟩
    exact ⟨rule, called.name.name, hRule,
      List.mem_filterMap.2 ⟨expr, Rule.mem_exprs_iff.2 hExpr, hName⟩,
      (index?_eq_some_iff hNames).2 ⟨called, hCalled, rfl⟩⟩

theorem mem_nodes_callGraph : i ∈ rules.callGraph.nodes ↔ i < rules.length := by
  rw [CallGraph.mem_nodes, CallGraph.size, callGraph, List.length_map]

/-- The rules that are found from the entry rules are those to which references lead from there. -/
theorem mem_reachable_iff (hNames : (rules.map fun rule => rule.name.name).Nodup) :
    i ∈ rules.callGraph.reachable rules.entries ↔
      ∃ entry ∈ rules.entries, Relation.ReflTransGen rules.Refers entry i := by
  have hEdges : (fun a b => b ∈ rules.callGraph.callees a) = rules.Refers := by
    funext caller callee
    exact propext (mem_callees_iff_refers hNames)
  have hCallees : ∀ caller, rules.callGraph.callees caller ⊆ rules.callGraph.nodes := by
    intro caller callee hCallee
    obtain ⟨-, called, -, hCalled, -⟩ := (mem_callees_iff_refers hNames).1 hCallee
    exact mem_nodes_callGraph.2 (List.getElem?_eq_some_iff.1 hCalled).1
  have hEntries : rules.entries ⊆ rules.callGraph.nodes := fun entry hEntry =>
    mem_nodes_callGraph.2 (lt_length_of_mem_entries hEntry)
  rw [CallGraph.mem_reachable_iff hEntries hCallees, hEdges]

end Rules

end TreeGrammar
