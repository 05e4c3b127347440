import Mathlib.Logic.Relation
import TreeGrammar.Proofs.Analysis.LeftCalls
import TreeGrammar.Proofs.Analysis.Passes
import TreeGrammar.Proofs.Lookahead.FirstInPlace

/-!
# Cycles and groups that are reported

Not every cycle of early calls is reported: the search visits each rule once, and cycles that
consist of the same rules are reported only once. But every error is about a cycle, and around each
rule on a cycle there is one that is reported. Groups with a round that consumes nothing are
reported one by one.

## Main definitions

* `Mutual`: two rules lead to each other
* `Rules.ReportsCycle`, `Rules.ReportsGroup`: errors about a cycle and about a group

## Main results

* `CallGraph.exists_cycle_around`: a cycle is met around each rule on a cycle
* `Draft.exists_foldl_meetExpr`: each group is reported once
* `Draft.endingWalks_exact`: what is reported about walks that would not end
-/

namespace TreeGrammar

/-! ### Rules that lead to each other -/

section Mutual

variable {α : Type} {r : α → α → Prop} {x y : α} {xs : List α}

/-- Two elements lead to each other by at least one step. -/
def Mutual (r : α → α → Prop) (x y : α) : Prop := Relation.TransGen r x y ∧ Relation.TransGen r y x

/-- The members of a cycle lead to each other. -/
theorem mutual_of_mem_cycle (h : (x :: xs ++ [x]).IsChain r) (hy : y ∈ x :: xs) : Mutual r x y := by
  have hSteps : (x :: xs ++ [x]).IsChain (Relation.TransGen r) := h.imp fun _ _ => .single
  have hPairs := List.isChain_iff_pairwise.1 hSteps
  rw [List.cons_append, List.pairwise_cons] at hPairs
  obtain ⟨hFirst, hOthers⟩ := hPairs
  have hLast : ∀ z ∈ xs, Relation.TransGen r z x :=
    fun z hz => (List.pairwise_append.1 hOthers).2.2 z hz x (List.mem_singleton_self x)
  rcases List.mem_cons.1 hy with rfl | hMem
  · have hSelf := hFirst y (List.mem_append_right _ (List.mem_singleton_self y))
    exact ⟨hSelf, hSelf⟩
  · exact ⟨hFirst y (List.mem_append_left _ hMem), hLast y hMem⟩

/-- A cycle through an element only passes those that lead back to it. -/
theorem transGen_mutual (h : Relation.TransGen r x x) :
    Relation.TransGen (fun a b => r a b ∧ Mutual r x a ∧ Mutual r x b) x x := by
  have hAll : ∀ y, Relation.TransGen r x y → Relation.TransGen r y x →
      Relation.TransGen (fun a b => r a b ∧ Mutual r x a ∧ Mutual r x b) x y := by
    intro y hTo
    induction hTo with
    | single hStep => exact fun hBack => .single ⟨hStep, ⟨h, h⟩, .single hStep, hBack⟩
    | tail hTo hStep ih =>
      intro hBack
      have hBefore := Relation.TransGen.head hStep hBack
      exact (ih hBefore).tail ⟨hStep, ⟨hTo, hBefore⟩, hTo.tail hStep, hBack⟩
  exact hAll x h h

/-- An element from which all chains end is on no cycle. -/
theorem not_transGen_of_acc (h : Acc (fun b a => r a b) x) : ¬ Relation.TransGen r x x := by
  induction h with
  | intro x _ ih =>
    intro hCycle
    obtain ⟨y, hStep, hBack⟩ := Relation.TransGen.head'_iff.1 hCycle
    exact ih y hStep (Relation.TransGen.tail' hBack hStep)

end Mutual

/-- If a rule is on a cycle of calls, then the search meets a cycle of rules that this rule leads to
and that lead to it. -/
theorem CallGraph.exists_cycle_around {graph : CallGraph} {rule : Nat}
    (h : Relation.TransGen (fun caller callee => callee ∈ graph.callees caller) rule rule) :
    ∃ cycle ∈ cycles graph.callees graph.nodes (graph.nodes.map ([], ·)), ∀ other ∈ cycle,
      Mutual (fun caller callee => callee ∈ graph.callees caller) rule other := by
  by_contra hNone
  have hHolds : HoldsCycles graph.callees
      (Mutual (fun caller callee => callee ∈ graph.callees caller) rule) := by
    intro start others hStart hChain other hOther
    have hAround := mutual_of_mem_cycle hChain (List.mem_cons_of_mem _ hOther)
    exact ⟨hStart.1.trans hAround.1, hAround.2.trans hStart.2⟩
  have hEnds := endsWithin_of_cycles hHolds
    (fun cycle hCycle hInside => hNone ⟨cycle, hCycle, hInside⟩) rule
  exact not_transGen_of_acc hEnds (transGen_mutual h)

/-! ### Errors -/

namespace Rules

/-- The error is about a cycle of rules that call each other before they consume a node, at the
first one of them. -/
def ReportsCycle (rules : Rules) (cycle : List Nat) (error : Diagnostic) : Prop :=
  ∃ start others rule, cycle = start :: others ∧ rules[start]? = some rule ∧
    (start :: others ++ [start]).IsChain rules.InvokesFirst ∧
    error = ⟨rule.name.span, .leftRecursion (cycle.map rules.nameOf)⟩

/-- The error is about a repeated group and the first alternative at which it stalls. -/
def ReportsGroup (rules : Rules) (expr : Expr) (error : Diagnostic) : Prop :=
  ∃ span repetition index, rules.StallsAt expr span repetition index ∧
    error = ⟨span, .nullableRepeat repetition index⟩

variable {rules : Rules}

/-- The cycles of early calls that are reported are cycles, and around each rule on a cycle there is
one of them. -/
theorem leftCycles_spec (rules : Rules) :
    List.Forall₂ rules.ReportsCycle (rules.leftCycles rules.first)
      (rules.recursionErrors rules.first) ∧
    ∀ rule, Relation.TransGen rules.InvokesFirst rule rule →
      ∃ cycle ∈ rules.leftCycles rules.first, ∀ other ∈ cycle,
        Mutual rules.InvokesFirst rule other := by
  have hCalls : (fun caller callee => callee ∈ (rules.leftCalls rules.first).callees caller) =
      rules.InvokesFirst := by
    funext caller callee
    exact propext mem_leftCalls_iff
  obtain ⟨hSubset, hKept⟩ := distinctCycles_spec (cycles (rules.leftCalls rules.first).callees
    (rules.leftCalls rules.first).nodes ((rules.leftCalls rules.first).nodes.map ([], ·)))
  constructor
  · refine forall₂_filterMap fun cycle hCycle => ?_
    obtain ⟨start, others, rfl, hChain⟩ := CallGraph.isCycle_of_mem (hSubset hCycle)
    obtain ⟨head, rule, hHead, hRule⟩ := exists_head_of_mem_cycles (hSubset hCycle)
    obtain rfl : start = head := Option.some.inj hHead
    refine ⟨_, by rw [hHead, Option.bind_some, hRule, Option.map_some], start, others, rule, rfl,
      hRule, ?_, rfl⟩
    rwa [IsCallChain, hCalls] at hChain
  · intro rule hRule
    rw [← hCalls] at hRule ⊢
    obtain ⟨cycle, hCycle, hAround⟩ := CallGraph.exists_cycle_around hRule
    obtain ⟨kept, hMem, hSame⟩ := hKept cycle hCycle
    exact ⟨kept, hMem, fun other hOther => hAround other ((hSame other).1 hOther)⟩

/-- No cycle is reported if and only if there is none. -/
theorem recursionErrors_eq_nil_iff : rules.recursionErrors rules.first = [] ↔
    ∀ rule, ¬ Relation.TransGen rules.InvokesFirst rule rule := by
  obtain ⟨hReports, hAround⟩ := rules.leftCycles_spec
  constructor
  · intro hNil rule hRule
    obtain ⟨cycle, hCycle, -⟩ := hAround rule hRule
    rw [hNil, List.forall₂_nil_right_iff] at hReports
    simp [hReports] at hCycle
  · intro hNone
    generalize rules.recursionErrors rules.first = errors at hReports ⊢
    generalize rules.leftCycles rules.first = cycles at hReports
    cases hReports with
    | nil => rfl
    | cons hReport _ =>
      obtain ⟨start, others, rule, -, -, hChain, -⟩ := hReport
      exact absurd (mutual_of_mem_cycle hChain List.mem_cons_self).1 (hNone start)

end Rules

namespace Draft

/-- Each element that stalls is noted, and each number is reported once. -/
theorem exists_foldl_meetExpr (first : String → FirstSet) (exprs : List Expr) (met : List Nat)
    (checker : Checker) (hMet : met ≠ [] → checker.failed = true) :
    ∃ groups : List Expr, groups ⊆ exprs ∧ (groups.map Expr.id).Nodup ∧
      (∀ group ∈ groups, group.id ∉ met ∧ (group.repeatError? first).isSome) ∧
      (∀ expr ∈ exprs, (expr.repeatError? first).isSome →
        expr.id ∈ met ∨ expr.id ∈ groups.map Expr.id) ∧
      (exprs.foldl (meetExpr first) (met, checker)).2 =
        checker.errors (groups.filterMap (Expr.repeatError? first)) := by
  -- a number that has been met has been reported, so the flag of the pass is set already
  induction exprs generalizing met checker with
  | nil => exact ⟨[], List.Subset.refl [], List.nodup_nil, nofun, nofun, by simp⟩
  | cons expr exprs ih =>
    rw [List.foldl_cons, meetExpr]
    cases hError : expr.repeatError? first with
    | none =>
      obtain ⟨groups, hSubset, hNodup, hGroups, hAll, hFold⟩ := ih met checker hMet
      refine ⟨groups, List.subset_cons_of_subset _ hSubset, hNodup, hGroups,
        List.forall_mem_cons.2 ⟨?_, hAll⟩, hFold⟩
      simp [hError]
    | some error =>
      by_cases hMem : expr.id ∈ met
      · have hFailed : checker.fail = checker := by
          have hTrue := hMet (List.ne_nil_of_mem hMem)
          rw [Checker.fail, ← hTrue]
        obtain ⟨groups, hSubset, hNodup, hGroups, hAll, hFold⟩ := ih met checker hMet
        refine ⟨groups, List.subset_cons_of_subset _ hSubset, hNodup, hGroups,
          List.forall_mem_cons.2 ⟨fun _ => .inl hMem, hAll⟩, ?_⟩
        simp only [if_pos hMem, hFailed, hFold]
      · have hChecker : checker.fail.report error = checker.errors [error] :=
          Checker.error_eq checker error
        obtain ⟨groups, hSubset, hNodup, hGroups, hAll, hFold⟩ :=
          ih (met ++ [expr.id]) (checker.errors [error]) fun _ => by simp [Checker.errors]
        refine ⟨expr :: groups, List.cons_subset_cons _ hSubset, List.nodup_cons.2 ⟨?_, hNodup⟩,
          List.forall_mem_cons.2 ⟨⟨hMem, by simp [hError]⟩, fun group hGroup => ?_⟩,
          List.forall_mem_cons.2 ⟨fun _ => .inr List.mem_cons_self, fun other hOther hSome => ?_⟩,
          ?_⟩
        · intro hAgain
          obtain ⟨group, hGroup, hId⟩ := List.mem_map.1 hAgain
          exact (hGroups group hGroup).1 (by simp [hId])
        · obtain ⟨hNew, hSome⟩ := hGroups group hGroup
          exact ⟨fun hOld => hNew (List.mem_append_left _ hOld), hSome⟩
        · have hCases := hAll other hOther hSome
          simp only [List.mem_append, List.mem_singleton] at hCases
          simp only [List.map_cons, List.mem_cons]
          tauto
        · simp only [if_neg hMem, hChecker, hFold, List.filterMap_cons_some hError]
          simp

/-- What the pass that looks for endless walks makes of a grammar whose elements are known by their
numbers. Every error about a cycle is about one of early calls, and around each rule on such a cycle
there is one that is reported. Each repeated group with a round that consumes nothing is reported
once, with the first alternative of this kind. If there is no cycle and no such group, and only
then, the result is a value. -/
theorem endingWalks_exact (draft : Draft) (before : List Diagnostic)
    (hNumbers : ∀ a ∈ draft.source.rules.exprs, ∀ b ∈ draft.source.rules.exprs,
      a.id = b.id → a = b) :
    ∃ (cycles : List (List Nat)) (groups : List Expr) (recursion repeats : List Diagnostic),
      (draft.endingWalks before).diagnostics = before ++ recursion ++ repeats ∧
      List.Forall₂ draft.source.rules.ReportsCycle cycles recursion ∧
      List.Forall₂ draft.source.rules.ReportsGroup groups repeats ∧
      (∀ rule, Relation.TransGen draft.source.rules.InvokesFirst rule rule →
        ∃ cycle ∈ cycles, ∀ other ∈ cycle, Mutual draft.source.rules.InvokesFirst rule other) ∧
      groups.Nodup ∧
      (∀ expr, expr ∈ groups ↔
        expr ∈ draft.source.rules.exprs ∧ draft.source.rules.Stalls expr) ∧
      ((draft.endingWalks before).outcome = .value draft ↔
        (∀ rule, ¬ Relation.TransGen draft.source.rules.InvokesFirst rule rule) ∧
          ∀ expr ∈ draft.source.rules.exprs, ¬ draft.source.rules.Stalls expr) ∧
      ((draft.endingWalks before).outcome = .value draft ∨
        (draft.endingWalks before).outcome = .fake draft) := by
  generalize hRules : draft.source.rules = rules at hNumbers
  obtain ⟨hRecursion, hAround⟩ := rules.leftCycles_spec
  obtain ⟨groups, hSubset, hNodup, hStall, hAll, hFold⟩ := exists_foldl_meetExpr rules.first
    rules.exprs [] (Checker.errors ⟨before, false⟩ (rules.recursionErrors rules.first)) (by simp)
  have hRepeats : List.Forall₂ rules.ReportsGroup groups
      (groups.filterMap (Expr.repeatError? rules.first)) := by
    refine forall₂_filterMap fun group hGroup => ?_
    obtain ⟨error, hError⟩ := Option.isSome_iff_exists.1 (hStall group hGroup).2
    exact ⟨error, hError, Rules.exists_stallsAt_of_repeatError? hError⟩
  have hGroups : ∀ expr, expr ∈ groups ↔ expr ∈ rules.exprs ∧ rules.Stalls expr := by
    intro expr
    constructor
    · exact fun hExpr => ⟨hSubset hExpr, Rules.isSome_repeatError?_iff.1 (hStall expr hExpr).2⟩
    · rintro ⟨hExpr, hStalls⟩
      -- an element with the number of a group that stalls is this group
      have hId := (hAll expr hExpr (Rules.isSome_repeatError?_iff.2 hStalls)).resolve_left
        List.not_mem_nil
      obtain ⟨group, hGroup, hSame⟩ := List.mem_map.1 hId
      exact hNumbers group (hSubset hGroup) expr hExpr hSame ▸ hGroup
  have hRun : draft.endingWalks before = Checker.finish (Checker.errors ⟨before, false⟩
      (rules.recursionErrors rules.first ++ groups.filterMap (Expr.repeatError? rules.first)))
        draft := by
    have hCycles := foldl_metCycles rules rules.first before
    rw [← Checker.errors_errors, ← hFold, ← hCycles, ← hRules]
    rfl
  have hNoGroup : groups.filterMap (Expr.repeatError? rules.first) = [] ↔
      ∀ expr ∈ rules.exprs, ¬ rules.Stalls expr := by
    rw [List.filterMap_eq_nil_iff]
    constructor
    · intro hNone expr hExpr hStalls
      have hSome := Rules.isSome_repeatError?_iff.2 hStalls
      simp [hNone expr ((hGroups expr).2 ⟨hExpr, hStalls⟩)] at hSome
    · intro hNone group hGroup
      obtain ⟨hExpr, hStalls⟩ := (hGroups group).1 hGroup
      exact absurd hStalls (hNone group hExpr)
  refine ⟨_, groups, _, _, ?_, hRecursion, hRepeats, hAround, hNodup.of_map, hGroups, ?_, ?_⟩
  · rw [hRun]
    simp [Checker.finish, Checker.errors]
  · rw [hRun, ← Rules.recursionErrors_eq_nil_iff, ← hNoGroup, ← List.append_eq_nil_iff]
    cases rules.recursionErrors rules.first ++ groups.filterMap (Expr.repeatError? rules.first) <;>
      simp [Checker.finish, Checker.errors]
  · rw [hRun]
    cases rules.recursionErrors rules.first ++ groups.filterMap (Expr.repeatError? rules.first) <;>
      simp [Checker.finish, Checker.errors]

namespace Sample

/-- The grammar with the left-recursive rule `list : list A | ;`. -/
def list : Draft where
  source :=
    { rules := [Rules.Sample.list], elements := Rules.exprs [Rules.Sample.list], infos := [] }
  options := {}

/-- The left-recursive rule is not accepted. -/
theorem endingWalks_exact_list :
    (∀ a ∈ list.source.rules.exprs, ∀ b ∈ list.source.rules.exprs, a.id = b.id → a = b) ∧
      list.source.rules.InvokesFirst 0 0 ∧ (list.endingWalks []).outcome = .fake list := by
  have hIds : (list.source.rules.exprs.map Expr.id).Nodup := by decide
  have hNumbers : ∀ a ∈ list.source.rules.exprs, ∀ b ∈ list.source.rules.exprs,
      a.id = b.id → a = b := fun _ ha _ hb => List.inj_on_of_nodup_map hIds ha hb
  have hCall : list.source.rules.InvokesFirst 0 0 := ⟨_, rfl, 0, _, rfl, .call rfl⟩
  obtain ⟨-, -, -, -, -, -, -, -, -, -, hValue, hOutcome⟩ := endingWalks_exact list [] hNumbers
  refine ⟨hNumbers, hCall, hOutcome.resolve_left fun h => ?_⟩
  exact (hValue.1 h).1 0 (.single hCall)

end Sample

end Draft

end TreeGrammar
