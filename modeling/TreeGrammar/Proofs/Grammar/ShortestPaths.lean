import Mathlib.Data.List.Chain
import TreeGrammar.Proofs.Grammar.Reachability

/-!
# The search along calls finds shortest paths

The paths in the queue of a breadth-first search are ordered by length, and the last one is at most
one step longer than the first one. So the paths are found in the order of their lengths, and the
first step that is made to a node is the end of a shortest path. Together with what is found this
says exactly which nodes can be reached, and that no path that is yielded could be shorter.

## Main definitions

* `CallGraph.Leads`: a chain of nodes that leads to a node
* `CallGraph.IsLevelled`: the order of the paths in a queue

## Main results

* `CallGraph.leads_of_mem_paths`, `CallGraph.exists_mem_paths`: the paths that are found
* `CallGraph.path?_eq_some`, `CallGraph.path?_eq_none_iff`: a shortest path to a node
-/

namespace TreeGrammar

namespace CallGraph

/-- A chain of nodes that leads from one of some roots to a node. Only nodes that are allowed are
passed, and each is next to the one before it. -/
inductive Leads (next : Nat → List Nat) (allowed roots : List Nat) : Nat → List Nat → Prop where
  | root {node : Nat} (hRoot : node ∈ roots) (hAllowed : node ∈ allowed) :
      Leads next allowed roots node [node]
  | step {node other : Nat} {chain : List Nat} (hChain : Leads next allowed roots node chain)
      (hNext : other ∈ next node) (hAllowed : other ∈ allowed) :
      Leads next allowed roots other (chain ++ [other])

/-- The paths of a queue are ordered by length, and no two of them differ by more than one step. -/
def IsLevelled (queue : List Path) : Prop :=
  queue.Pairwise fun a b =>
    a.toList.length ≤ b.toList.length ∧ b.toList.length ≤ a.toList.length + 1

section Chains

variable {next : Nat → List Nat} {allowed roots : List Nat} {node : Nat} {chain : List Nat}

/-- A chain that leads to a node, as a list of nodes. -/
theorem leads_iff : Leads next allowed roots node chain ↔
    chain.IsChain (fun a b => b ∈ next a) ∧ (∃ root ∈ roots, chain.head? = some root) ∧
      chain.getLast? = some node ∧ ∀ other ∈ chain, other ∈ allowed := by
  constructor
  · intro h
    induction h with
    | root hRoot hAllowed =>
      exact ⟨List.isChain_singleton _, ⟨_, hRoot, rfl⟩, rfl, List.forall_mem_singleton.2 hAllowed⟩
    | @step node other chain _ hNext hAllowed ih =>
      obtain ⟨hChain, ⟨root, hRoot, hHead⟩, hLast, hAll⟩ := ih
      refine ⟨List.isChain_append.2 ⟨hChain, List.isChain_singleton _, ?_⟩, ⟨root, hRoot, ?_⟩,
        List.getLast?_concat, List.forall_mem_append.2 ⟨hAll, List.forall_mem_singleton.2 hAllowed⟩⟩
      · simpa [hLast] using hNext
      · simp [List.head?_append, hHead]
  · rintro ⟨hChain, ⟨root, hRoot, hHead⟩, hLast, hAll⟩
    -- the chain is taken apart from its end
    induction chain using List.reverseRecOn generalizing node with
    | nil => cases hHead
    | append_singleton before last ih =>
      obtain rfl : last = node := by simpa using hLast
      obtain ⟨hBefore, -, hStep⟩ := List.isChain_append.1 hChain
      obtain ⟨hAllBefore, hAllLast⟩ := List.forall_mem_append.1 hAll
      have hAllowed : last ∈ allowed := hAllLast last (List.mem_singleton_self last)
      cases hEnd : before.getLast? with
      | none =>
        obtain rfl := List.getLast?_eq_none_iff.1 hEnd
        obtain rfl : last = root := by simpa using hHead
        exact .root hRoot hAllowed
      | some previous =>
        have hStart : before.head? = some root := by
          cases before with
          | nil => cases hEnd
          | cons first before => exact hHead
        exact .step (ih hBefore hStart hEnd hAllBefore) (hStep previous hEnd last rfl) hAllowed

end Chains

section Search

variable {next : Nat → List Nat} {allowed roots unseen : List Nat} {queue : List Path}
  {path : Path} {other : Nat}

@[simp] theorem Path.toList_step : (path.step other).toList = path.toList ++ [other] := by
  simp [Path.toList, Path.step]

theorem Path.mem_split {new : Path} (h : new ∈ (path.split next unseen).2) :
    ∃ node ∈ unseen, node ∈ next path.last ∧ new = path.step node := by
  obtain ⟨node, hNode, rfl⟩ := List.mem_map.1 h
  obtain ⟨hUnseen, hNext⟩ := List.mem_filter.1 hNode
  exact ⟨node, hUnseen, of_decide_eq_true hNext, rfl⟩

/-- What holds of the paths of the queue and is kept by steps holds of all paths that are found. -/
theorem forall_mem_search {p : Path → Prop} (hQueue : ∀ path ∈ queue, p path)
    (hStep : ∀ path, p path → ∀ node ∈ unseen, node ∈ next path.last → p (path.step node)) :
    ∀ path ∈ search next unseen queue, p path := by
  fun_induction search next unseen queue with
  | case1 => exact List.forall_mem_nil _
  | case2 unseen first queue ih =>
    obtain ⟨hFirst, hOthers⟩ := List.forall_mem_cons.1 hQueue
    refine List.forall_mem_cons.2 ⟨hFirst, ih (List.forall_mem_append.2 ⟨hOthers, ?new⟩) ?later⟩
    case new =>
      intro path hPath
      obtain ⟨node, hNode, hNext, rfl⟩ := Path.mem_split hPath
      exact hStep first hFirst node hNode hNext
    case later =>
      exact fun path hPath node hNode => hStep path hPath node (List.mem_filter.1 hNode).1

/-- What is found are chains, if the queue consists of chains. -/
theorem leads_of_mem_search (hUnseen : unseen ⊆ allowed)
    (hQueue : ∀ path ∈ queue, Leads next allowed roots path.last path.toList)
    (h : path ∈ search next unseen queue) : Leads next allowed roots path.last path.toList := by
  refine forall_mem_search hQueue (fun path hPath node hNode hNext => ?_) path h
  rw [Path.toList_step]
  exact .step hPath hNext (hUnseen hNode)

/-- The steps that are added to a queue keep its order. -/
theorem IsLevelled.step (h : IsLevelled (path :: queue)) :
    IsLevelled (queue ++ (path.split next unseen).2) := by
  obtain ⟨hFirst, hQueue⟩ := List.pairwise_cons.1 h
  refine List.pairwise_append.2 ⟨hQueue, ?_, fun old hOld new hNew => ?_⟩
  · -- all steps have the same length
    refine List.pairwise_map.2 (List.pairwise_of_forall fun a b => ?_)
    simp
  · obtain ⟨node, -, -, rfl⟩ := Path.mem_split hNew
    obtain ⟨hLe, hSucc⟩ := hFirst old hOld
    rw [Path.toList_step, List.length_append, List.length_singleton]
    omega

/-- What is found is not shorter than the paths of the queue. -/
theorem le_length_of_mem_search {n : Nat} (hQueue : ∀ path ∈ queue, n ≤ path.toList.length)
    (h : path ∈ search next unseen queue) : n ≤ path.toList.length := by
  refine forall_mem_search hQueue (fun path hPath node _ _ => ?_) path h
  rw [Path.toList_step, List.length_append]
  omega

/-- The first path of a queue is not longer than those that are found later. -/
theorem IsLevelled.le_of_mem_search (h : IsLevelled (path :: queue)) {later : Path}
    (hLater : later ∈ search next (path.split next unseen).1
      (queue ++ (path.split next unseen).2)) : path.toList.length ≤ later.toList.length := by
  refine le_length_of_mem_search (List.forall_mem_append.2 ⟨fun old hOld => ?_,
    fun new hNew => ?_⟩) hLater
  · exact ((List.pairwise_cons.1 h).1 old hOld).1
  · obtain ⟨node, -, -, rfl⟩ := Path.mem_split hNew
    simp

/-- Paths are found in the order of their lengths. -/
theorem pairwise_search (h : IsLevelled queue) : (search next unseen queue).Pairwise fun a b =>
    a.toList.length ≤ b.toList.length := by
  fun_induction search next unseen queue with
  | case1 => exact .nil
  | case2 unseen path queue ih =>
    exact List.pairwise_cons.2 ⟨fun later hLater => h.le_of_mem_search hLater, ih h.step⟩

/-- A node next to one that is found is found by a path that is at most one step longer. -/
theorem exists_next_of_mem_search (h : IsLevelled queue) (hPath : path ∈ search next unseen queue)
    (hNext : other ∈ next path.last) (hUnseen : other ∈ unseen) :
    ∃ found ∈ search next unseen queue, found.last = other ∧
      found.toList.length ≤ path.toList.length + 1 := by
  fun_induction search next unseen queue with
  | case1 => exact absurd hPath List.not_mem_nil
  | case2 unseen first queue ih =>
    by_cases hHere : other ∈ next first.last
    · -- the step is made from the first path of the queue, which is the shortest one
      have hStep : first.step other ∈ queue ++ (first.split next unseen).2 :=
        List.mem_append_right _ (List.mem_map_of_mem
          (List.mem_filter.2 ⟨hUnseen, decide_eq_true hHere⟩))
      refine ⟨first.step other, List.mem_cons_of_mem _ (subset_search _ _ _ hStep), rfl, ?_⟩
      have hLe : first.toList.length ≤ path.toList.length := by
        rcases List.mem_cons.1 hPath with rfl | hLater
        · exact Nat.le_refl _
        · exact h.le_of_mem_search hLater
      simpa using hLe
    · have hLater : other ∈ (first.split next unseen).1 :=
        List.mem_filter.2 ⟨hUnseen, by simpa using hHere⟩
      rcases List.mem_cons.1 hPath with rfl | hPath
      · exact absurd hNext hHere
      · obtain ⟨found, hFound, hLast⟩ := ih h.step hPath hLater
        exact ⟨found, List.mem_cons_of_mem _ hFound, hLast⟩

end Search

section Paths

variable {next : Nat → List Nat} {allowed roots : List Nat} {path : Path} {node : Nat}
  {chain : List Nat}

theorem isLevelled_roots (roots : List Nat) :
    IsLevelled (roots.map ({ last := · })) :=
  List.pairwise_map.2 (List.pairwise_of_forall fun _ _ => ⟨Nat.le_refl 1, Nat.le_succ 1⟩)

theorem pairwise_paths (next : Nat → List Nat) (allowed roots : List Nat) :
    (paths next allowed roots).Pairwise fun a b => a.toList.length ≤ b.toList.length :=
  pairwise_search (isLevelled_roots _)

/-- The paths that are found are chains. -/
theorem leads_of_mem_paths (h : path ∈ paths next allowed roots) :
    Leads next allowed roots path.last path.toList := by
  refine leads_of_mem_search (fun node hNode => (List.mem_filter.1 hNode).1)
    (fun start hStart => ?_) h
  obtain ⟨root, hRoot, rfl⟩ := List.mem_map.1 hStart
  obtain ⟨hRoot, hAllowed⟩ := List.mem_filter.1 hRoot
  exact .root hRoot (of_decide_eq_true hAllowed)

/-- A path that is not longer than a chain is found. -/
theorem exists_mem_paths (h : Leads next allowed roots node chain) :
    ∃ path ∈ paths next allowed roots, path.last = node ∧ path.toList.length ≤ chain.length := by
  have hStart : ∀ root ∈ roots, root ∈ allowed → { last := root } ∈ paths next allowed roots := by
    intro root hRoot hAllowed
    exact subset_search _ _ _ (List.mem_map.2
      ⟨root, List.mem_filter.2 ⟨hRoot, decide_eq_true hAllowed⟩, rfl⟩)
  induction h with
  | root hRoot hAllowed => exact ⟨_, hStart _ hRoot hAllowed, rfl, Nat.le_refl 1⟩
  | @step node other chain _ hNext hAllowed ih =>
    obtain ⟨path, hPath, rfl, hLength⟩ := ih
    by_cases hRoot : other ∈ roots
    · exact ⟨_, hStart other hRoot hAllowed, rfl, by simp [Path.toList]⟩
    · have hUnseen : other ∈ allowed.filter (· ∉ roots.filter (· ∈ allowed)) := by
        simp [hAllowed, hRoot]
      obtain ⟨found, hFound, hLast, hLe⟩ :=
        exists_next_of_mem_search (isLevelled_roots _) hPath hNext hUnseen
      refine ⟨found, hFound, hLast, ?_⟩
      rw [List.length_append, List.length_singleton]
      omega

/-- The nodes to which paths lead are those to which chains lead. -/
theorem mem_ends_paths_iff :
    node ∈ ends (paths next allowed roots) ↔ ∃ chain, Leads next allowed roots node chain := by
  constructor
  · intro h
    obtain ⟨path, hPath, rfl⟩ := List.mem_map.1 h
    exact ⟨path.toList, leads_of_mem_paths hPath⟩
  · rintro ⟨chain, hChain⟩
    obtain ⟨path, hPath, rfl, -⟩ := exists_mem_paths hChain
    exact List.mem_map_of_mem hPath

end Paths

section Graph

variable {graph : CallGraph} {roots chain : List Nat} {target : Nat} {through : Nat → Bool}

/-- A path to a rule that is yielded is a shortest one. -/
theorem path?_eq_some (h : graph.path? roots target through = some chain) :
    Leads graph.callees (graph.nodes.filter fun rule => through rule || rule = target) roots target
      chain ∧
    ∀ other, Leads graph.callees (graph.nodes.filter fun rule => through rule || rule = target) roots
      target other → chain.length ≤ other.length := by
  obtain ⟨path, hFound, rfl⟩ := Option.map_eq_some_iff.1 h
  obtain ⟨hLast, before, after, hSplit, hBefore⟩ := List.find?_eq_some_iff_append.1 hFound
  obtain rfl : path.last = target := of_decide_eq_true hLast
  refine ⟨leads_of_mem_paths (List.mem_of_find?_eq_some hFound), fun other hOther => ?_⟩
  obtain ⟨shorter, hMem, hSame, hLe⟩ := exists_mem_paths hOther
  refine Nat.le_trans ?_ hLe
  -- the path is the first one of those to the rule, which are found in the order of their lengths
  have hSorted := pairwise_paths graph.callees
    (graph.nodes.filter fun rule => through rule || rule = path.last) roots
  rw [hSplit] at hSorted hMem
  rcases List.mem_append.1 hMem with hEarlier | hHere
  · simpa [hSame] using hBefore shorter hEarlier
  · rcases List.mem_cons.1 hHere with rfl | hLater
    · exact Nat.le_refl _
    · exact (List.pairwise_cons.1 (List.pairwise_append.1 hSorted).2.1).1 shorter hLater

/-- No path to a rule is yielded if and only if there is none. -/
theorem path?_eq_none_iff : graph.path? roots target through = none ↔
    ∀ chain, ¬ Leads graph.callees
      (graph.nodes.filter fun rule => through rule || rule = target) roots target chain := by
  constructor
  · exact fun h chain hChain => not_mem_paths_of_path? h (mem_ends_paths_iff.2 ⟨chain, hChain⟩)
  · intro hNone
    cases h : graph.path? roots target through with
    | none => rfl
    | some chain => exact absurd (path?_eq_some h).1 (hNone chain)

end Graph

end CallGraph

end TreeGrammar
