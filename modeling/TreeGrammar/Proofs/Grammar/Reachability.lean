import TreeGrammar.Grammar.CallGraph

/-!
# The search along calls is complete

The search along the edges of a graph yields a path to every node that can be reached. It is enough
that what it yields is closed under the edges between the nodes that may be passed.

## Main results

* `CallGraph.search_closed`: a node next to one that is found is found, unless it was seen before
* `CallGraph.paths_closed`, `CallGraph.root_mem_paths`: the nodes that paths lead to
-/

namespace TreeGrammar

namespace CallGraph

/-- The nodes to which some paths lead. -/
def ends (paths : List Path) : List Nat := paths.map Path.last

theorem ends_append (xs ys : List Path) : ends (xs ++ ys) = ends xs ++ ends ys :=
  List.map_append

section Search

variable {next : Nat → List Nat} {unseen : List Nat} {queue : List Path} {node other : Nat}

/-- One step from a path leads to all next nodes that have not been seen. -/
theorem mem_ends_split {path : Path} (hUnseen : other ∈ unseen) (hNext : other ∈ next path.last) :
    other ∈ ends (path.split next unseen).2 := by
  refine List.mem_map.2 ⟨path.step other, List.mem_map_of_mem (List.mem_filter.2 ⟨hUnseen, ?_⟩), rfl⟩
  exact decide_eq_true hNext

/-- The paths in the queue are found. -/
theorem subset_search (next : Nat → List Nat) (unseen : List Nat) (queue : List Path) :
    queue ⊆ search next unseen queue := by
  fun_induction search next unseen queue with
  | case1 => exact List.Subset.refl _
  | case2 unseen path queue ih =>
    exact List.cons_subset_cons path ((List.append_subset.1 ih).1)

theorem ends_subset_search (next : Nat → List Nat) (unseen : List Nat) (queue : List Path) :
    ends queue ⊆ ends (search next unseen queue) :=
  List.map_subset Path.last (subset_search next unseen queue)

/-- A node next to one that is found is found as well, if it has not been seen before. -/
theorem search_closed (hNode : node ∈ ends (search next unseen queue)) (hNext : other ∈ next node)
    (hUnseen : other ∈ unseen) : other ∈ ends (search next unseen queue) := by
  fun_induction search next unseen queue with
  | case1 => exact absurd hNode List.not_mem_nil
  | case2 unseen path queue ih =>
    by_cases hHere : other ∈ next path.last
    · -- the step from the first path of the queue leads there
      have hQueue : other ∈ ends (queue ++ (path.split next unseen).2) := by
        rw [ends_append]
        exact List.mem_append_right _ (mem_ends_split hUnseen hHere)
      exact List.mem_cons_of_mem _ (ends_subset_search _ _ _ hQueue)
    · have hLater : other ∈ (path.split next unseen).1 :=
        List.mem_filter.2 ⟨hUnseen, by simpa using hHere⟩
      rcases List.mem_cons.1 hNode with rfl | hNode
      · exact absurd hNext hHere
      · exact List.mem_cons_of_mem _ (ih hNode hLater)

end Search

section Paths

variable {next : Nat → List Nat} {allowed roots : List Nat} {node other : Nat}

/-- Paths lead to their roots. -/
theorem root_mem_paths (hRoot : node ∈ roots) (hAllowed : node ∈ allowed) :
    node ∈ ends (paths next allowed roots) := by
  refine ends_subset_search _ _ _ (List.mem_map.2 ⟨{ last := node }, ?_, rfl⟩)
  exact List.mem_map_of_mem (List.mem_filter.2 ⟨hRoot, decide_eq_true hAllowed⟩)

/-- Paths lead to the nodes next to those to which they lead, if these may be passed. -/
theorem paths_closed (hNode : node ∈ ends (paths next allowed roots)) (hNext : other ∈ next node)
    (hAllowed : other ∈ allowed) : other ∈ ends (paths next allowed roots) := by
  by_cases hRoot : other ∈ roots
  · exact root_mem_paths hRoot hAllowed
  · refine search_closed hNode hNext (List.mem_filter.2 ⟨hAllowed, ?_⟩)
    have hNot : other ∉ roots.filter (· ∈ allowed) := fun h => hRoot (List.mem_filter.1 h).1
    exact decide_eq_true hNot

end Paths

variable {graph : CallGraph} {caller callee : Nat}

theorem lt_size_of_mem_callees (h : callee ∈ graph.callees caller) : caller < graph.size := by
  refine Nat.lt_of_not_le fun hLe => ?_
  rw [callees, List.getElem?_eq_none hLe] at h
  exact absurd h List.not_mem_nil

theorem mem_nodes : caller ∈ graph.nodes ↔ caller < graph.size := List.mem_range

theorem mem_callers : caller ∈ graph.callers callee ↔ callee ∈ graph.callees caller := by
  rw [callers, List.mem_filter, decide_eq_true_iff, mem_nodes]
  exact ⟨And.right, fun h => ⟨lt_size_of_mem_callees h, h⟩⟩

/-- If no path to a rule is found, then the rule is not among those to which paths lead. -/
theorem not_mem_paths_of_path? {roots : List Nat} {target : Nat} {through : Nat → Bool}
    (h : graph.path? roots target through = none) :
    target ∉ ends (paths graph.callees
      (graph.nodes.filter fun rule => through rule || rule = target) roots) := by
  intro hMem
  obtain ⟨path, hPath, hLast⟩ := List.mem_map.1 hMem
  have hNone := List.find?_eq_none.1 (Option.map_eq_none_iff.1 h) path hPath
  exact hNone (decide_eq_true hLast)

end CallGraph

end TreeGrammar
