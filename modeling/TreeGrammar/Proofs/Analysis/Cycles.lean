import Mathlib.Data.List.Chain
import TreeGrammar.Analysis.Termination
import TreeGrammar.Proofs.Grammar.Reachability

/-!
# The search for cycles

The search for cycles follows calls depth first and visits each rule once. A cycle that it meets is
one of calls, since it is the end of the path that leads back to its first rule. Conversely, the
search meets a cycle within all rules that a cycle goes through: if it does not meet any there, then
all chains of calls within these rules have come to an end when the search comes back from a rule.

## Main definitions

* `Ends`, `EndsWithin`: no chain of calls from a rule goes on forever
* `HoldsCycles`: some rules hold all cycles through each of them

## Main results

* `isCycle_of_mem_cycles`: the cycles that the search meets are cycles of calls
* `exists_free_of_cycles`: what the search has left behind ends
* `CallGraph.endsWithin_of_cycles`: a cycle is met wherever chains go on forever
* `Rules.ends_leftCalls`: without errors, calls before a node is consumed end
-/

namespace TreeGrammar

/-- No chain of calls from a rule goes on forever. -/
def Ends (next : Nat → List Nat) (rule : Nat) : Prop :=
  Acc (fun callee caller => callee ∈ next caller) rule

/-- No chain of calls from a rule that stays inside goes on forever. -/
def EndsWithin (next : Nat → List Nat) (inside : Nat → Prop) (rule : Nat) : Prop :=
  Acc (fun callee caller => callee ∈ next caller ∧ inside caller ∧ inside callee) rule

/-- Each member of a list calls the next one. -/
def IsCallChain (next : Nat → List Nat) (rules : List Nat) : Prop :=
  rules.IsChain fun caller callee => callee ∈ next caller

/-- A cycle through a rule inside does not leave it. -/
def HoldsCycles (next : Nat → List Nat) (inside : Nat → Prop) : Prop :=
  ∀ rule others, inside rule → IsCallChain next (rule :: others ++ [rule]) →
    ∀ other ∈ others, inside other

section Search

variable {next : Nat → List Nat} {free path cycle : List Nat} {rule : Nat}
  {agenda : List (List Nat × Nat)} {inside : Nat → Prop}

/-! ### Steps of the search -/

/-- A rule that is met on its own path closes a cycle. -/
theorem cycles_of_mem (hPath : rule ∈ path) : cycles next free ((path, rule) :: agenda) =
    path.dropWhile (· ≠ rule) :: cycles next free agenda := by
  rw [cycles, if_pos hPath]

/-- The calls of a rule that has not been visited are followed. -/
theorem cycles_of_free (hPath : rule ∉ path) (hFree : rule ∈ free) :
    cycles next free ((path, rule) :: agenda) =
      cycles next (free.erase rule) ((next rule).map (path ++ [rule], ·) ++ agenda) := by
  rw [cycles, if_neg hPath, dif_pos hFree]

/-- A rule that has been visited is passed over. -/
theorem cycles_of_not_free (hPath : rule ∉ path) (hFree : rule ∉ free) :
    cycles next free ((path, rule) :: agenda) = cycles next free agenda := by
  rw [cycles, if_neg hPath, dif_neg hFree]

/-! ### What is met is a cycle -/

/-- The part of a path that starts with one of its rules. -/
theorem exists_dropWhile_ne (h : rule ∈ path) :
    ∃ others, path.dropWhile (· ≠ rule) = rule :: others := by
  induction path with
  | nil => exact absurd h List.not_mem_nil
  | cons first path ih =>
    by_cases hFirst : first = rule
    · exact ⟨path, by simp [hFirst]⟩
    · obtain ⟨others, hOthers⟩ := ih ((List.mem_cons.1 h).resolve_left (Ne.symm hFirst))
      refine ⟨others, ?_⟩
      rw [← hOthers]
      simp [hFirst]

/-- A path that leads back to one of its rules ends with a cycle. -/
theorem exists_cycle_of_mem (hChain : IsCallChain next (path ++ [rule])) (h : rule ∈ path) :
    ∃ others, path.dropWhile (· ≠ rule) = rule :: others ∧
      IsCallChain next (rule :: others ++ [rule]) := by
  obtain ⟨others, hOthers⟩ := exists_dropWhile_ne h
  refine ⟨others, hOthers, ?_⟩
  have hSuffix : path.dropWhile (· ≠ rule) ++ [rule] <:+ path ++ [rule] := by
    obtain ⟨before, hBefore⟩ := List.dropWhile_suffix (l := path) (· ≠ rule)
    exact ⟨before, by rw [← List.append_assoc, hBefore]⟩
  rw [hOthers] at hSuffix
  exact List.IsChain.suffix hChain hSuffix

/-- A chain that is continued by a call. -/
theorem IsCallChain.concat {callee : Nat} (hChain : IsCallChain next (path ++ [rule]))
    (hCall : callee ∈ next rule) : IsCallChain next (path ++ [rule] ++ [callee]) := by
  refine List.IsChain.append hChain (List.isChain_singleton _) fun last hLast first hFirst => ?_
  rw [List.getLast?_concat, Option.mem_some_iff] at hLast
  rw [List.head?_cons, Option.mem_some_iff] at hFirst
  exact hFirst ▸ hLast ▸ hCall

/-- A cycle that is met is one of calls, written without its end. -/
theorem isCycle_of_mem_cycles (hAgenda : ∀ item ∈ agenda, IsCallChain next (item.1 ++ [item.2]))
    (h : cycle ∈ cycles next free agenda) :
    ∃ rule others, cycle = rule :: others ∧ IsCallChain next (rule :: others ++ [rule]) := by
  fun_induction cycles next free agenda with
  | case1 => exact absurd h List.not_mem_nil
  | case2 free path rule agenda hPath ih =>
    obtain ⟨hRule, hOthers⟩ := List.forall_mem_cons.1 hAgenda
    rcases List.mem_cons.1 h with rfl | hLater
    · exact ⟨rule, exists_cycle_of_mem hRule hPath⟩
    · exact ih hOthers hLater
  | case3 free path rule agenda hPath hFree ih =>
    obtain ⟨hRule, hOthers⟩ := List.forall_mem_cons.1 hAgenda
    refine ih (List.forall_mem_append.2 ⟨fun item hItem => ?_, hOthers⟩) h
    obtain ⟨callee, hCallee, rfl⟩ := List.mem_map.1 hItem
    exact IsCallChain.concat hRule hCallee
  | case4 free path rule agenda hPath hFree ih =>
    exact ih (List.forall_mem_cons.1 hAgenda).2 h

/-! ### Where no cycle is met -/

theorem EndsWithin.of_next
    (h : ∀ callee ∈ next rule, EndsWithin next inside callee) : EndsWithin next inside rule :=
  Acc.intro rule fun callee hCallee => h callee hCallee.1

/-- Chains that stay inside do not start outside. -/
theorem EndsWithin.of_outside (h : ¬ inside rule) : EndsWithin next inside rule :=
  Acc.intro rule fun _ hCallee => absurd hCallee.2.1 h

/-- Suppose that the search meets no cycle inside. When it has finished with some rules that are
called at the end of a path, chains from these rules end, and so do those from all others that have
been visited, apart from those on the path. -/
theorem exists_free_of_cycles (hHolds : HoldsCycles next inside) (rules : List Nat)
    (hPath : ∀ rule ∈ rules, IsCallChain next (path ++ [rule]))
    (hNone : ∀ cycle ∈ cycles next free (rules.map (path, ·) ++ agenda),
      ¬ ∀ rule ∈ cycle, inside rule)
    (hDone : ∀ rule, rule ∉ free → rule ∉ path → EndsWithin next inside rule) :
    ∃ free' : List Nat, free'.length ≤ free.length ∧
      (∀ cycle ∈ cycles next free' agenda, ¬ ∀ rule ∈ cycle, inside rule) ∧
      (∀ rule, rule ∉ free' → rule ∉ path → EndsWithin next inside rule) ∧
      ∀ rule ∈ rules, EndsWithin next inside rule := by
  -- the search removes rules from the list of free ones, so that its length is the measure
  induction hLength : free.length using Nat.strongRecOn generalizing free path rules agenda with
  | ind length ih =>
    subst hLength
    induction rules with
    | nil => exact ⟨free, Nat.le_refl _, hNone, hDone, nofun⟩
    | cons rule rules ihRules =>
      obtain ⟨hChain, hChains⟩ := List.forall_mem_cons.1 hPath
      rw [List.map_cons, List.cons_append] at hNone
      -- it remains to look at the rules next to this one if the search passes over it
      have hOver : EndsWithin next inside rule →
          (∀ cycle ∈ cycles next free (rules.map (path, ·) ++ agenda),
            ¬ ∀ rule ∈ cycle, inside rule) →
          ∃ free' : List Nat, free'.length ≤ free.length ∧
            (∀ cycle ∈ cycles next free' agenda, ¬ ∀ rule ∈ cycle, inside rule) ∧
            (∀ rule, rule ∉ free' → rule ∉ path → EndsWithin next inside rule) ∧
            ∀ other ∈ rule :: rules, EndsWithin next inside other := by
        intro hRule hLater
        obtain ⟨last, hLe, hLastNone, hLastDone, hRules⟩ := ihRules hChains hLater
        exact ⟨last, hLe, hLastNone, hLastDone, List.forall_mem_cons.2 ⟨hRule, hRules⟩⟩
      by_cases hMem : rule ∈ path
      · rw [cycles_of_mem hMem] at hNone
        obtain ⟨hCycle, hLater⟩ := List.forall_mem_cons.1 hNone
        refine hOver (EndsWithin.of_outside fun hInside => hCycle ?_) hLater
        obtain ⟨others, hOthers, hClosed⟩ := exists_cycle_of_mem hChain hMem
        rw [hOthers]
        exact List.forall_mem_cons.2 ⟨hInside, hHolds rule others hInside hClosed⟩
      by_cases hFree : rule ∈ free
      · rw [cycles_of_free hMem hFree] at hNone
        have hErase : (free.erase rule).length < free.length := by
          have hPos := List.length_pos_of_mem hFree
          rw [List.length_erase_of_mem hFree]
          omega
        have hDoneInner : ∀ other, other ∉ free.erase rule → other ∉ path ++ [rule] →
            EndsWithin next inside other := by
          intro other hOther hOtherPath
          rw [List.mem_append, List.mem_singleton, not_or] at hOtherPath
          refine hDone other (fun hMem => hOther ?_) hOtherPath.1
          exact (List.mem_erase_of_ne hOtherPath.2).2 hMem
        -- first the calls of the rule are followed, and then the rules next to it
        obtain ⟨middle, hMiddle, hMiddleNone, hMiddleDone, hCallees⟩ :=
          ih _ hErase (next rule) (fun _ => hChain.concat) hNone hDoneInner rfl
        have hRule : EndsWithin next inside rule := EndsWithin.of_next hCallees
        have hDoneMiddle : ∀ other, other ∉ middle → other ∉ path →
            EndsWithin next inside other := by
          intro other hOther hOtherPath
          by_cases hEq : other = rule
          · exact hEq ▸ hRule
          · refine hMiddleDone other hOther ?_
            simp [hOtherPath, hEq]
        have hMiddleLt := Nat.lt_of_le_of_lt hMiddle hErase
        obtain ⟨last, hLast, hLastNone, hLastDone, hRules⟩ :=
          ih _ hMiddleLt rules hChains hMiddleNone hDoneMiddle rfl
        have hLe : last.length ≤ free.length := Nat.le_of_lt (Nat.lt_of_le_of_lt hLast hMiddleLt)
        exact ⟨last, hLe, hLastNone, hLastDone, List.forall_mem_cons.2 ⟨hRule, hRules⟩⟩
      · -- a rule that is not free and not on the path has been left behind
        rw [cycles_of_not_free hMem hFree] at hNone
        exact hOver (hDone rule hFree hMem) hNone

end Search

namespace CallGraph

variable {graph : CallGraph} {inside : Nat → Prop} {rule : Nat}

/-- If the search along all calls of a graph meets no cycle inside, then chains that stay inside
end. -/
theorem endsWithin_of_cycles (hHolds : HoldsCycles graph.callees inside)
    (hNone : ∀ cycle ∈ cycles graph.callees graph.nodes (graph.nodes.map ([], ·)),
      ¬ ∀ rule ∈ cycle, inside rule) (rule : Nat) : EndsWithin graph.callees inside rule := by
  -- a number that belongs to no rule calls nothing
  have hOutside : ∀ other, other ∉ graph.nodes → other ∉ [] →
      EndsWithin graph.callees inside other := by
    intro other hOther _
    refine EndsWithin.of_next fun callee hCallee => ?_
    exact absurd (mem_nodes.2 (lt_size_of_mem_callees hCallee)) hOther
  rw [← List.append_nil (List.map _ _)] at hNone
  have hStart : ∀ node ∈ graph.nodes, IsCallChain graph.callees ([] ++ [node]) :=
    fun node _ => List.isChain_singleton node
  obtain ⟨free, -, -, -, hNodes⟩ := exists_free_of_cycles hHolds graph.nodes hStart hNone hOutside
  by_cases hRule : rule ∈ graph.nodes
  · exact hNodes rule hRule
  · exact hOutside rule hRule List.not_mem_nil

/-- If the search along all calls of a graph meets no cycle, then calls end. -/
theorem ends_of_cycles_eq_nil
    (h : cycles graph.callees graph.nodes (graph.nodes.map ([], ·)) = []) (rule : Nat) :
    Ends graph.callees rule := by
  have hEnds : EndsWithin graph.callees (fun _ => True) rule :=
    endsWithin_of_cycles (fun _ _ _ _ _ _ => trivial) (by simp [h]) rule
  exact Subrelation.accessible (fun hCall => ⟨hCall, trivial, trivial⟩) hEnds

/-- The cycles that the search along all calls meets are cycles of calls. -/
theorem isCycle_of_mem {cycle : List Nat}
    (h : cycle ∈ cycles graph.callees graph.nodes (graph.nodes.map ([], ·))) :
    ∃ rule others, cycle = rule :: others ∧
      IsCallChain graph.callees (rule :: others ++ [rule]) := by
  refine isCycle_of_mem_cycles (fun item hItem => ?_) h
  obtain ⟨node, -, rfl⟩ := List.mem_map.1 hItem
  exact List.isChain_singleton _

/-- A rule that starts a cycle is one of the graph. -/
theorem lt_size_of_isCallChain {others : List Nat}
    (h : IsCallChain graph.callees (rule :: others ++ [rule])) : rule < graph.size := by
  cases others with
  | nil => exact lt_size_of_mem_callees (List.isChain_cons_cons.1 h).1
  | cons other others => exact lt_size_of_mem_callees (List.isChain_cons_cons.1 h).1

end CallGraph

/-! ### The cycles that are reported -/

theorem sameRules_iff {a b : List Nat} : sameRules a b = true ↔ ∀ rule, rule ∈ a ↔ rule ∈ b := by
  simp only [sameRules, Bool.and_eq_true, List.all_eq_true, decide_eq_true_eq]
  rw [← forall_and]
  exact forall_congr' fun _ => iff_def.symm

/-- The cycles that differ are some of all cycles, and each cycle has the rules of one of them. -/
theorem distinctCycles_spec (cycles : List (List Nat)) : distinctCycles cycles ⊆ cycles ∧
    ∀ cycle ∈ cycles, ∃ kept ∈ distinctCycles cycles, ∀ rule, rule ∈ kept ↔ rule ∈ cycle := by
  induction cycles using List.reverseRecOn with
  | nil => exact ⟨List.Subset.refl [], nofun⟩
  | append_singleton cycles last ih =>
    obtain ⟨hSubset, hKept⟩ := ih
    have hLast : distinctCycles (cycles ++ [last]) =
        if (distinctCycles cycles).any (sameRules last) then distinctCycles cycles
        else distinctCycles cycles ++ [last] := by
      simp [distinctCycles]
    rw [hLast]
    split
    · next hMet =>
      obtain ⟨met, hMem, hSame⟩ := List.any_eq_true.1 hMet
      refine ⟨List.subset_append_of_subset_left _ hSubset, List.forall_mem_append.2 ⟨hKept, ?_⟩⟩
      exact List.forall_mem_singleton.2 ⟨met, hMem, fun rule => (sameRules_iff.1 hSame rule).symm⟩
    · refine ⟨List.append_subset.2 ⟨List.subset_append_of_subset_left _ hSubset,
        List.subset_append_right _ _⟩, List.forall_mem_append.2 ⟨fun cycle hCycle => ?_, ?_⟩⟩
      · obtain ⟨kept, hMem, hSame⟩ := hKept cycle hCycle
        exact ⟨kept, List.mem_append_left _ hMem, hSame⟩
      · exact List.forall_mem_singleton.2
          ⟨last, List.mem_append_right _ (List.mem_singleton_self _), fun _ => Iff.rfl⟩

namespace Rules

variable {rules : Rules} {first : String → FirstSet}

/-- A cycle that is met starts with a rule of the grammar. -/
theorem exists_head_of_mem_cycles {cycle : List Nat}
    (h : cycle ∈ cycles (rules.leftCalls first).callees (rules.leftCalls first).nodes
      ((rules.leftCalls first).nodes.map ([], ·))) :
    ∃ head rule, cycle.head? = some head ∧ rules[head]? = some rule := by
  obtain ⟨head, others, rfl, hChain⟩ := CallGraph.isCycle_of_mem h
  have hLength : head < rules.length := by
    simpa [CallGraph.size, leftCalls] using CallGraph.lt_size_of_isCallChain hChain
  exact ⟨head, _, rfl, List.getElem?_eq_getElem hLength⟩

/-- A cycle that the search for cycles finds is reported, maybe as another one of the same rules. -/
theorem cycles_eq_nil (h : rules.recursionErrors first = []) :
    cycles (rules.leftCalls first).callees (rules.leftCalls first).nodes
      ((rules.leftCalls first).nodes.map ([], ·)) = [] := by
  refine List.eq_nil_iff_forall_not_mem.2 fun cycle hCycle => ?_
  obtain ⟨hSubset, hKept⟩ := distinctCycles_spec (cycles (rules.leftCalls first).callees
    (rules.leftCalls first).nodes ((rules.leftCalls first).nodes.map ([], ·)))
  obtain ⟨kept, hMem, -⟩ := hKept cycle hCycle
  obtain ⟨head, rule, hHead, hRule⟩ := exists_head_of_mem_cycles (hSubset hMem)
  -- a cycle with a first rule is an error
  have hError := List.filterMap_eq_nil_iff.1 h kept hMem
  simp [hHead, hRule] at hError

/-- If no cycle of calls before a node is consumed is reported, then such calls end. -/
theorem ends_leftCalls (h : rules.recursionErrors first = []) (rule : Nat) :
    Ends (rules.leftCalls first).callees rule :=
  CallGraph.ends_of_cycles_eq_nil (cycles_eq_nil h) rule

end Rules

end TreeGrammar
