import Mathlib.Data.List.Nodup
import TreeGrammar.Proofs.Lookahead.Disjoint

/-!
# Conflicts are common symbols

A set with any node accepts infinitely many labels, so that conflicts cannot be found by comparing
symbols. Still the overlap of two sets accepts exactly what both accept, and it is empty only if
they have nothing in common. A decision has therefore one conflict for each two of its branches with
a common symbol, and its resolution tells what the branches have in common.

## Main definitions

* `Decision.branches`: the branches of a decision, each with what predicts it
* `DecisionBranch.Shares`: two branches are predicted by a common symbol

## Main results

* `LookaheadSet.accepts_overlap_iff`, `LookaheadSet.isEmpty_eq_false_iff`: what overlaps accept
* `Decision.conflictsOf_eq`: the conflict of two branches
* `Decision.resolution_eq_disjoint_iff` and the like: what a resolution tells
-/

namespace TreeGrammar

/-! ### Overlaps -/

namespace LookaheadSet

variable {a b : LookaheadSet} {next : Option String}

/-- The overlap of two sets accepts the symbols that both of them accept. -/
theorem accepts_overlap_iff :
    (a.overlap b).accepts next = true ↔ a.accepts next = true ∧ b.accepts next = true := by
  refine ⟨fun h => ?_, fun h => accepts_overlap h.1 h.2⟩
  cases next with
  | none => exact Bool.and_eq_true_iff.1 h
  | some label =>
    simp only [accepts, acceptsLabel, Bool.or_eq_true, decide_eq_true_eq, overlap] at h ⊢
    rcases h with hAny | hLabels
    · obtain ⟨ha, hb⟩ := Bool.and_eq_true_iff.1 hAny
      exact ⟨.inl ha, .inl hb⟩
    · -- a label that only one of the sets lists is shared by any node of the other one
      cases ha : a.any <;> cases hb : b.any <;>
        simp only [ha, hb, if_true, if_false, Bool.false_eq_true, LabelSet.mem_union,
          LabelSet.mem_inter, decide_eq_true_eq] at hLabels ⊢ <;>
        tauto

/-- A set is not empty if it accepts a symbol, and only then. -/
theorem isEmpty_eq_false_iff : a.isEmpty = false ↔ ∃ next, a.accepts next = true := by
  refine ⟨fun h => ?_, fun ⟨next, h⟩ => isEmpty_eq_false_of_accepts h⟩
  cases hAny : a.any with
  | true => exact ⟨some "", by simp [accepts, acceptsLabel, hAny]⟩
  | false =>
    cases hEnd : a.atEnd with
    | true => exact ⟨none, hEnd⟩
    | false =>
      have hLabels : a.labels.toList ≠ [] := by
        intro hNil
        simp [isEmpty, hAny, hEnd, hNil] at h
      obtain ⟨label, hLabel⟩ := List.exists_mem_of_ne_nil _ hLabels
      have hMem : label ∈ a.labels := hLabel
      exact ⟨some label, by simp [accepts, acceptsLabel, hMem]⟩

/-- Two sets have an overlap if they accept a common symbol. -/
theorem overlap_isEmpty_eq_false_iff :
    (a.overlap b).isEmpty = false ↔ ∃ next, a.accepts next = true ∧ b.accepts next = true :=
  isEmpty_eq_false_iff.trans (exists_congr fun _ => accepts_overlap_iff)

end LookaheadSet

/-! ### Pairs of list members -/

/-- All pairs of members of a list, in the order of the list. -/
def orderedPairs {α : Type} : List α → List (α × α)
  | [] => []
  | x :: xs => xs.map (x, ·) ++ orderedPairs xs

section Pairs

variable {α β : Type} {xs : List α} {x y : α} {p q : Nat}

theorem orderedPairs_map (f : α → β) (xs : List α) :
    orderedPairs (xs.map f) = (orderedPairs xs).map (Prod.map f f) := by
  induction xs with
  | nil => rfl
  | cons x xs ih =>
    simp only [List.map_cons, orderedPairs, List.map_append, List.map_map, ih]
    rfl

theorem fst_mem_of_mem_orderedPairs (h : (x, y) ∈ orderedPairs xs) : x ∈ xs := by
  induction xs with
  | nil => exact absurd h List.not_mem_nil
  | cons z zs ih =>
    rcases List.mem_append.1 h with h | h
    · obtain ⟨_, -, hEq⟩ := List.mem_map.1 h
      exact (Prod.mk.inj hEq).1 ▸ List.mem_cons_self
    · exact List.mem_cons_of_mem _ (ih h)

theorem nodup_orderedPairs (h : xs.Nodup) : (orderedPairs xs).Nodup := by
  induction xs with
  | nil => exact .nil
  | cons x xs ih =>
    obtain ⟨hx, hxs⟩ := List.nodup_cons.1 h
    refine List.Nodup.append (hxs.map fun _ _ hEq => (Prod.mk.inj hEq).2) (ih hxs) ?_
    rintro ⟨a, b⟩ hHead hTail
    obtain ⟨_, -, hEq⟩ := List.mem_map.1 hHead
    exact hx ((Prod.mk.inj hEq).1 ▸ fst_mem_of_mem_orderedPairs hTail)

/-- The pairs of a list are those of members at a smaller and a larger place. -/
theorem mem_orderedPairs_iff : (x, y) ∈ orderedPairs xs ↔
    ∃ p q : Nat, p < q ∧ xs[p]? = some x ∧ xs[q]? = some y := by
  induction xs with
  | nil => exact ⟨nofun, fun ⟨_, _, _, h, _⟩ => nomatch h⟩
  | cons z zs ih =>
    rw [orderedPairs, List.mem_append, ih]
    constructor
    · rintro (h | ⟨p, q, hLt, hx, hy⟩)
      · obtain ⟨other, hMem, hEq⟩ := List.mem_map.1 h
        obtain ⟨rfl, rfl⟩ := Prod.mk.inj hEq
        obtain ⟨q, hq⟩ := List.mem_iff_getElem?.1 hMem
        exact ⟨0, q + 1, Nat.succ_pos q, rfl, hq⟩
      · exact ⟨p + 1, q + 1, Nat.succ_lt_succ hLt, hx, hy⟩
    · rintro ⟨p, q, hLt, hx, hy⟩
      cases q with
      | zero => exact absurd hLt (Nat.not_lt_zero p)
      | succ q =>
        cases p with
        | zero =>
          obtain rfl : z = x := Option.some.inj hx
          exact .inl (List.mem_map.2 ⟨y, List.mem_of_getElem? hy, rfl⟩)
        | succ p => exact .inr ⟨p, q, Nat.lt_of_succ_lt_succ hLt, hx, hy⟩

theorem pairwise_iff_orderedPairs {r : α → α → Prop} :
    xs.Pairwise r ↔ ∀ pair ∈ orderedPairs xs, r pair.1 pair.2 := by
  induction xs with
  | nil => exact ⟨fun _ _ h => absurd h List.not_mem_nil, fun _ => .nil⟩
  | cons x xs ih => simp only [List.pairwise_cons, orderedPairs, List.forall_mem_append, ih,
      List.forall_mem_map]

end Pairs

/-! ### Branches of a decision -/

/-- A branch of a decision with what predicts it. -/
structure DecisionBranch where
  branch : Branch
  prediction : LookaheadSet
  /-- The branch is an alternative with a guard. -/
  guarded : Bool

namespace DecisionBranch

/-- Two branches are predicted by a common symbol: a label, or the end of the list. -/
def Shares (a b : DecisionBranch) : Prop :=
  ∃ next, a.prediction.accepts next = true ∧ b.prediction.accepts next = true

/-- The conflict of two branches with a common symbol. -/
def conflict (a b : DecisionBranch) : Conflict where
  first := a.branch
  second := b.branch
  overlap := a.prediction.overlap b.prediction
  gated := a.guarded || b.guarded

/-- The conflict of two branches, if they have something in common. -/
def conflict? (pair : DecisionBranch × DecisionBranch) : Option Conflict :=
  Conflict.between pair.1.branch pair.2.branch pair.1.prediction pair.2.prediction
    (pair.1.guarded || pair.2.guarded)

variable {a b : DecisionBranch} {conflict : Conflict}

theorem conflict?_eq_some_iff :
    conflict? (a, b) = some conflict ↔ a.Shares b ∧ a.conflict b = conflict := by
  rw [Shares, ← LookaheadSet.overlap_isEmpty_eq_false_iff, conflict?, Conflict.between]
  cases hEmpty : (a.prediction.overlap b.prediction).isEmpty with
  | true => simp
  | false => simp [DecisionBranch.conflict]

end DecisionBranch

/-- The branches of candidates with the numbers from `start` on, and that of the exit. -/
def Candidate.branches (exit : Option LookaheadSet) (start : Nat) (candidates : List Candidate) :
    List DecisionBranch :=
  (candidates.zipIdx start).map (fun (candidate, i) =>
    ⟨.alternative i, candidate.prediction, candidate.guarded⟩) ++
    exit.toList.map fun exit => ⟨.exit, exit, false⟩

theorem Candidate.conflicts_eq (exit : Option LookaheadSet) (start : Nat)
    (candidates : List Candidate) : Candidate.conflicts exit start candidates =
      (orderedPairs (Candidate.branches exit start candidates)).filterMap
        DecisionBranch.conflict? := by
  induction candidates generalizing start with
  | nil => cases exit <;> rfl
  | cons candidate later ih =>
    have hBranches : branches exit start (candidate :: later) =
        ⟨.alternative start, candidate.prediction, candidate.guarded⟩ ::
          branches exit (start + 1) later := rfl
    have hExit : (exit.bind fun exit => Conflict.between (.alternative start) .exit
        candidate.prediction exit candidate.guarded).toList =
          exit.toList.filterMap fun exit => Conflict.between (.alternative start) .exit
            candidate.prediction exit (candidate.guarded || false) := by
      cases exit with
      | none => rfl
      | some exit =>
        rw [Bool.or_false, Option.bind_some, Option.toList_some, List.filterMap_cons]
        cases Conflict.between (.alternative start) .exit candidate.prediction exit
          candidate.guarded <;> rfl
    rw [conflicts, hExit, ih, hBranches, orderedPairs, List.filterMap_append, branches,
      List.map_append, List.filterMap_append, List.map_map, List.map_map, List.filterMap_map,
      List.filterMap_map]
    rfl

namespace Decision

variable {decision : Decision} {a b : DecisionBranch} {p q : Nat} {conflict : Conflict}

/-- The branches of a decision: its alternatives in order, then its exit if it has one. -/
def branches (decision : Decision) : List DecisionBranch :=
  Candidate.branches decision.exit 0 decision.candidates

theorem conflicts_eq (decision : Decision) : decision.conflicts =
    (orderedPairs decision.branches).filterMap DecisionBranch.conflict? :=
  Candidate.conflicts_eq decision.exit 0 decision.candidates

/-- No two branches have the same name. -/
theorem nodup_branches (decision : Decision) :
    (decision.branches.map DecisionBranch.branch).Nodup := by
  have hNames : decision.branches.map DecisionBranch.branch =
      (List.range decision.candidates.length).map Branch.alternative ++
        decision.exit.toList.map fun _ => Branch.exit := by
    rw [branches, Candidate.branches, List.map_append, List.map_map, List.map_map,
      List.range_eq_range', ← List.zipIdx_map_snd, List.map_map]
    rfl
  rw [hNames]
  refine List.Nodup.append (List.nodup_range.map fun _ _ => Branch.alternative.inj) ?_ ?_
  · cases decision.exit with
    | none => exact .nil
    | some _ => exact List.nodup_singleton _
  · intro branch hAlternative hExit
    obtain ⟨_, -, rfl⟩ := List.mem_map.1 hAlternative
    obtain ⟨_, -, hEq⟩ := List.mem_map.1 hExit
    cases hEq

/-- The conflicts of a decision are those of two of its branches with a common symbol. -/
theorem mem_conflicts_iff : conflict ∈ decision.conflicts ↔
    ∃ (p q : Nat) (a b : DecisionBranch), p < q ∧ decision.branches[p]? = some a ∧
      decision.branches[q]? = some b ∧ a.Shares b ∧ a.conflict b = conflict := by
  rw [conflicts_eq, List.mem_filterMap]
  constructor
  · rintro ⟨⟨a, b⟩, hPair, hConflict⟩
    obtain ⟨p, q, hLt, ha, hb⟩ := mem_orderedPairs_iff.1 hPair
    exact ⟨p, q, a, b, hLt, ha, hb, DecisionBranch.conflict?_eq_some_iff.1 hConflict⟩
  · rintro ⟨p, q, a, b, hLt, ha, hb, hConflict⟩
    exact ⟨(a, b), mem_orderedPairs_iff.2 ⟨p, q, hLt, ha, hb⟩,
      DecisionBranch.conflict?_eq_some_iff.2 hConflict⟩

/-- No two conflicts are between the same branches. -/
theorem nodup_conflicts (decision : Decision) :
    (decision.conflicts.map fun conflict => (conflict.first, conflict.second)).Nodup := by
  have hPairs : (orderedPairs decision.branches).Pairwise fun x y =>
      (x.1.branch, x.2.branch) ≠ (y.1.branch, y.2.branch) := by
    have hNodup := nodup_orderedPairs decision.nodup_branches
    rw [orderedPairs_map] at hNodup
    exact List.pairwise_map.1 hNodup
  rw [conflicts_eq]
  refine List.pairwise_map.2 (List.pairwise_filterMap.2 (hPairs.imp ?_))
  rintro ⟨a, b⟩ ⟨a', b'⟩ hNe conflict hConflict conflict' hConflict'
  obtain ⟨-, rfl⟩ := DecisionBranch.conflict?_eq_some_iff.1 hConflict
  obtain ⟨-, rfl⟩ := DecisionBranch.conflict?_eq_some_iff.1 hConflict'
  exact hNe

/-- The conflicts of a decision between two branches. -/
def conflictsOf (decision : Decision) (first second : Branch) : List Conflict :=
  decision.conflicts.filter fun conflict => conflict.first = first ∧ conflict.second = second

/-- There is one conflict between two branches with a common symbol. -/
theorem conflictsOf_eq (hLt : p < q) (ha : decision.branches[p]? = some a)
    (hb : decision.branches[q]? = some b) (h : a.Shares b) :
    decision.conflictsOf a.branch b.branch = [a.conflict b] := by
  have hMem : a.conflict b ∈ decision.conflicts :=
    mem_conflicts_iff.2 ⟨p, q, a, b, hLt, ha, hb, h, rfl⟩
  refine List.perm_singleton.1 ((List.perm_ext_iff_of_nodup ?_ (List.nodup_singleton _)).2 ?_)
  · exact (List.Nodup.of_map _ decision.nodup_conflicts).filter _
  · intro conflict
    rw [conflictsOf, List.mem_filter, List.mem_singleton, decide_eq_true_eq]
    constructor
    · rintro ⟨hConflict, hFirst, hSecond⟩
      exact List.inj_on_of_nodup_map decision.nodup_conflicts hConflict hMem
        (Prod.ext hFirst hSecond)
    · rintro rfl
      exact ⟨hMem, rfl, rfl⟩

/-- There is no conflict between two branches without a common symbol. -/
theorem conflictsOf_eq_nil (ha : decision.branches[p]? = some a)
    (hb : decision.branches[q]? = some b) (h : ¬ a.Shares b) :
    decision.conflictsOf a.branch b.branch = [] := by
  refine List.filter_eq_nil_iff.2 fun conflict hConflict hBetween => h ?_
  obtain ⟨p', q', a', b', -, ha', hb', hShares, rfl⟩ := mem_conflicts_iff.1 hConflict
  obtain ⟨hFirst, hSecond⟩ := of_decide_eq_true hBetween
  have hUnique := List.inj_on_of_nodup_map decision.nodup_branches
  obtain rfl : a' = a := hUnique (List.mem_of_getElem? ha') (List.mem_of_getElem? ha) hFirst
  obtain rfl : b' = b := hUnique (List.mem_of_getElem? hb') (List.mem_of_getElem? hb) hSecond
  exact hShares

/-! ### Resolutions -/

theorem conflicts_isEmpty_iff : decision.conflicts.isEmpty = true ↔
    decision.branches.Pairwise fun a b => ¬ a.Shares b := by
  rw [pairwise_iff_orderedPairs, conflicts_eq, List.isEmpty_iff, List.filterMap_eq_nil_iff]
  refine forall₂_congr fun pair _ => ?_
  rw [Option.eq_none_iff_forall_not_mem]
  constructor
  · intro h hShares
    exact h _ (DecisionBranch.conflict?_eq_some_iff.2 ⟨hShares, rfl⟩)
  · intro h conflict hConflict
    exact h (DecisionBranch.conflict?_eq_some_iff.1 hConflict).1

theorem conflicts_all_gated_iff : decision.conflicts.all Conflict.gated = true ↔
    decision.branches.Pairwise fun a b => a.Shares b → a.guarded = true ∨ b.guarded = true := by
  rw [pairwise_iff_orderedPairs, conflicts_eq, List.all_eq_true]
  constructor
  · intro h pair hPair hShares
    exact Bool.or_eq_true_iff.1 (h (pair.1.conflict pair.2) (List.mem_filterMap.2
      ⟨pair, hPair, DecisionBranch.conflict?_eq_some_iff.2 ⟨hShares, rfl⟩⟩))
  · intro h conflict hConflict
    obtain ⟨pair, hPair, hSome⟩ := List.mem_filterMap.1 hConflict
    obtain ⟨hShares, rfl⟩ := DecisionBranch.conflict?_eq_some_iff.1 hSome
    exact Bool.or_eq_true_iff.2 (h pair hPair hShares)

/-- A decision is disjoint if no symbol predicts two of its branches. -/
theorem resolution_eq_disjoint_iff : decision.resolution = .disjoint ↔
    decision.branches.Pairwise fun a b => ¬ a.Shares b := by
  rw [← conflicts_isEmpty_iff, resolution]
  split
  · next h => simp only [h]
  · next h =>
    refine iff_of_false ?_ h
    split <;> decide

/-- A decision is gated if symbols predict several branches, and if two branches with a common
symbol are not both without a guard. -/
theorem resolution_eq_predicateGated_iff : decision.resolution = .predicateGated ↔
    (¬ decision.branches.Pairwise fun a b => ¬ a.Shares b) ∧
      decision.branches.Pairwise fun a b => a.Shares b → a.guarded = true ∨ b.guarded = true := by
  rw [← conflicts_isEmpty_iff, ← conflicts_all_gated_iff, resolution]
  split
  · next h => exact iff_of_false (by decide) fun hNot => hNot.1 h
  · next h =>
    rw [and_iff_right h]
    split
    · next hGated => exact iff_of_true rfl hGated
    · next hGated => exact iff_of_false (by decide) hGated

/-- In all other decisions the order of the branches matters: two branches without a guard have a
common symbol. -/
theorem resolution_eq_declarationOrder_iff : decision.resolution = .declarationOrder ↔
    ¬ decision.branches.Pairwise fun a b =>
      a.Shares b → a.guarded = true ∨ b.guarded = true := by
  rw [← conflicts_all_gated_iff, resolution]
  split
  · next h =>
    rw [List.isEmpty_iff] at h
    simp [h]
  · split
    · next hGated => exact iff_of_false (by decide) fun hNot => hNot hGated
    · next hGated => exact iff_of_true rfl hGated

end Decision

end TreeGrammar
