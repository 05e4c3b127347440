import TreeGrammar.Proofs.Lookahead.Prediction

/-!
# Disjoint decisions

No symbol predicts two branches of a decision without conflicts. Where all decisions are of this
kind, the nodes that are derived determine the derivation: two derivations with choices that are
predicted cannot part ways at a decision, and there is no other place where they could.

## Main definitions

* `Predicted`: all choices of some list are predicted at their decisions
* `AllDisjoint`: no decision has a conflict

## Main results

* `Decision.branch_unique`: two branches with a common symbol are the same
* `Derivation.unique`: there is one derivation at most
-/

namespace TreeGrammar

variable {rules : Rules}

/-! ### Common symbols -/

namespace LookaheadSet

variable {a b : LookaheadSet} {next : Option String}

/-- What two sets accept is accepted by their overlap. -/
theorem accepts_overlap (ha : a.accepts next) (hb : b.accepts next) :
    (a.overlap b).accepts next := by
  cases next with
  | none => exact Bool.and_eq_true_iff.2 ⟨ha, hb⟩
  | some label =>
    simp only [accepts, acceptsLabel, Bool.or_eq_true, decide_eq_true_eq, overlap] at ha hb ⊢
    -- a set with any node shares all labels of the other one
    by_cases hAny : a.any
    · by_cases hAny' : b.any
      · simp [hAny, hAny']
      · simp [hAny, hAny', hb.resolve_left hAny']
    · have hMem := ha.resolve_left hAny
      by_cases hAny' : b.any
      · simp [hAny, hAny', hMem]
      · simp [hAny, hAny', hMem, hb.resolve_left hAny']

theorem isEmpty_eq_false_of_accepts (h : a.accepts next) : a.isEmpty = false := by
  refine Bool.eq_false_iff.2 fun hEmpty => ?_
  simp only [isEmpty, Bool.and_eq_true, List.isEmpty_iff, Bool.not_eq_true'] at hEmpty
  obtain ⟨⟨hLabels, hAny⟩, hEnd⟩ := hEmpty
  cases next with
  | none => exact absurd (hEnd.symm.trans h) Bool.false_ne_true
  | some label =>
    have hMem : label ∉ a.labels := by
      rw [LabelSet.mem_def, hLabels]
      exact List.not_mem_nil
    simp [accepts, acceptsLabel, hAny, hMem] at h

end LookaheadSet

/-! ### Decisions without conflicts -/

section Conflicts

variable {a b : LookaheadSet} {next : Option String}

theorem Conflict.between_ne_none (ha : a.accepts next) (hb : b.accepts next)
    (first second : Branch) (gated : Bool) : Conflict.between first second a b gated ≠ none := by
  have hOverlap := LookaheadSet.isEmpty_eq_false_of_accepts (LookaheadSet.accepts_overlap ha hb)
  simp [between, hOverlap]

namespace Candidate

variable {candidates : List Candidate} {exit : Option LookaheadSet} {start i j : Nat}
  {candidate candidate' : Candidate}

/-- Two candidates of a list without conflicts accept no common symbol. -/
theorem not_accepts_of_lt (h : conflicts exit start candidates = []) (hLt : i < j)
    (hi : candidates[i]? = some candidate) (hj : candidates[j]? = some candidate')
    (hAccepts : candidate.prediction.accepts next) : ¬ candidate'.prediction.accepts next := by
  intro hAccepts'
  induction candidates generalizing start i j with
  | nil => cases hi
  | cons head later ih =>
    rw [conflicts, List.append_eq_nil_iff, List.append_eq_nil_iff] at h
    obtain ⟨⟨hLater, -⟩, hOthers⟩ := h
    cases j with
    | zero => exact absurd hLt (Nat.not_lt_zero i)
    | succ j =>
      cases i with
      | zero =>
        obtain rfl : head = candidate := Option.some.inj hi
        have hMem : (candidate', start + 1 + j) ∈ later.zipIdx (start + 1) :=
          List.mem_zipIdx_iff_le_and_getElem?_sub.2 ⟨Nat.le_add_right .., by simpa using hj⟩
        exact Conflict.between_ne_none hAccepts hAccepts' _ _ _
          (List.filterMap_eq_nil_iff.1 hLater _ hMem)
      | succ i => exact ih hOthers (Nat.lt_of_succ_lt_succ hLt) hi hj

/-- A candidate and the exit of a decision without conflicts accept no common symbol. -/
theorem not_accepts_exit {out : LookaheadSet} (h : conflicts (some out) start candidates = [])
    (hi : candidates[i]? = some candidate) (hAccepts : candidate.prediction.accepts next) :
    ¬ out.accepts next := by
  intro hOut
  induction candidates generalizing start i with
  | nil => cases hi
  | cons head later ih =>
    rw [conflicts, List.append_eq_nil_iff, List.append_eq_nil_iff] at h
    obtain ⟨⟨-, hExit⟩, hOthers⟩ := h
    cases i with
    | zero =>
      obtain rfl : head = candidate := Option.some.inj hi
      refine Conflict.between_ne_none hAccepts hOut (.alternative start) .exit head.guarded ?_
      simpa using hExit
    | succ i => exact ih hOthers hi

end Candidate

/-- There is no conflict at any decision. -/
def AllDisjoint (decisions : List Decision) : Prop :=
  ∀ decision ∈ decisions, decision.resolution = .disjoint

namespace Decision

variable {decision : Decision}

theorem conflicts_eq_nil (h : decision.resolution = .disjoint) : decision.conflicts = [] := by
  rw [resolution] at h
  split at h
  · next hEmpty => exact List.isEmpty_iff.1 hEmpty
  · split at h
    · cases h
    · cases h

/-- The candidate that a symbol predicts at a decision without conflicts is unique. -/
theorem candidate_unique (h : decision.resolution = .disjoint) {i j : Nat} {a b : Candidate}
    (hi : decision.candidates[i]? = some a) (hj : decision.candidates[j]? = some b)
    (ha : a.prediction.accepts next) (hb : b.prediction.accepts next) : i = j := by
  have hNone := conflicts_eq_nil h
  rcases Nat.lt_trichotomy i j with hLt | rfl | hGt
  · exact absurd hb (Candidate.not_accepts_of_lt hNone hLt hi hj ha)
  · rfl
  · exact absurd ha (Candidate.not_accepts_of_lt hNone hGt hj hi hb)

/-- The branch that a symbol predicts at a decision without conflicts is unique. -/
theorem branch_unique (h : decision.resolution = .disjoint) {site site' : DecisionSite}
    {branch branch' : Branch} {remaining : List Tree}
    (hFirst : decision.Admits ⟨site, branch, remaining⟩)
    (hSecond : decision.Admits ⟨site', branch', remaining⟩) : branch = branch' := by
  have hNone := conflicts_eq_nil h
  cases branch with
  | alternative i =>
    obtain ⟨a, hi, ha⟩ := hFirst
    cases branch' with
    | alternative j =>
      obtain ⟨b, hj, hb⟩ := hSecond
      rw [candidate_unique h hi hj ha hb]
    | exit =>
      obtain ⟨out, hExit, hOut⟩ := hSecond
      rw [conflicts, hExit] at hNone
      exact absurd hOut (Candidate.not_accepts_exit hNone hi ha)
  | exit =>
    obtain ⟨out, hExit, hOut⟩ := hFirst
    cases branch' with
    | alternative j =>
      obtain ⟨b, hj, hb⟩ := hSecond
      rw [conflicts, hExit] at hNone
      exact absurd hOut (Candidate.not_accepts_exit hNone hj hb)
    | exit => rfl

end Decision

end Conflicts

/-! ### Derivations -/

/-- All choices of a list are predicted at their decisions. -/
def Predicted (decisions : List Decision) (choices : List Choice) : Prop :=
  ∀ choice ∈ choices, ∃ decision,
    decisionAt? decisions choice.site = some decision ∧ decision.Admits choice

namespace Predicted

variable {decisions : List Decision} {xs ys zs : List Choice}

theorem append : Predicted decisions (xs ++ ys) ↔ Predicted decisions xs ∧ Predicted decisions ys :=
  List.forall_mem_append

theorem append_append : Predicted decisions (xs ++ ys ++ zs) ↔
    Predicted decisions xs ∧ Predicted decisions ys ∧ Predicted decisions zs := by
  rw [append, append, and_assoc]

theorem cons {choice : Choice} :
    Predicted decisions (choice :: xs) ↔ Predicted decisions [choice] ∧ Predicted decisions xs :=
  @append decisions [choice] xs

theorem branch_unique (h : AllDisjoint decisions) {site : DecisionSite} {branch branch' : Branch}
    {remaining : List Tree} (hFirst : Predicted decisions [⟨site, branch, remaining⟩])
    (hSecond : Predicted decisions [⟨site, branch', remaining⟩]) : branch = branch' := by
  obtain ⟨decision, hDecision, hAdmits⟩ := hFirst _ (List.mem_singleton_self _)
  obtain ⟨decision', hDecision', hAdmits'⟩ := hSecond _ (List.mem_singleton_self _)
  obtain rfl := Option.some.inj (hDecision.symm.trans hDecision')
  exact decision.branch_unique (h decision (List.mem_of_find?_eq_some hDecision)) hAdmits hAdmits'

/-- Two choices of an alternative that are predicted are the same: without a decision there is only
one alternative. -/
theorem alternative_unique (h : AllDisjoint decisions) {site : DecisionSite}
    {alternatives : List Alternative} {i j : Nat} {a b : Alternative} {remaining : List Tree}
    (hi : alternatives[i]? = some a) (hj : alternatives[j]? = some b)
    (hFirst : Predicted decisions (Choice.ofAlternative site alternatives i remaining))
    (hSecond : Predicted decisions (Choice.ofAlternative site alternatives j remaining)) :
    i = j := by
  rw [Choice.ofAlternative] at hFirst hSecond
  split at hFirst
  · next hNeed =>
    rw [if_pos hNeed] at hSecond
    exact Branch.alternative.inj (branch_unique h hFirst hSecond)
  · next hNeed =>
    have hLength : ¬ 2 ≤ alternatives.length := by
      intro hLe
      simp [Alternative.needDecision, hLe] at hNeed
    have hiLt := (List.getElem?_eq_some_iff.1 hi).1
    have hjLt := (List.getElem?_eq_some_iff.1 hj).1
    omega

theorem group_unique (h : AllDisjoint decisions) {id : Nat} {repetition : Repetition}
    {alternatives : List Alternative} {i j : Nat} {a b : Alternative} {remaining : List Tree}
    (hi : alternatives[i]? = some a) (hj : alternatives[j]? = some b)
    (hFirst : Predicted decisions (Choice.ofGroup id repetition alternatives i remaining))
    (hSecond : Predicted decisions (Choice.ofGroup id repetition alternatives j remaining)) :
    i = j := by
  cases repetition with
  | once => exact alternative_unique h hi hj hFirst hSecond
  | optional | star | plus => exact Branch.alternative.inj (branch_unique h hFirst hSecond)

/-- A group that is entered by a choice that is predicted cannot be left. -/
theorem not_leave (h : AllDisjoint decisions) {id : Nat} {repetition : Repetition}
    {alternatives : List Alternative} {i : Nat} {remaining : List Tree}
    (hSkip : repetition.maySkip = true)
    (hEnter : Predicted decisions (Choice.ofGroup id repetition alternatives i remaining)) :
    ¬ Predicted decisions [⟨.subrule id, .exit, remaining⟩] := by
  intro hLeave
  cases repetition with
  | once => cases hSkip
  | plus => cases hSkip
  | optional | star => exact absurd (branch_unique h hEnter hLeave) nofun

end Predicted

/-- There is one derivation at most: two derivations of the same nodes with choices that are
predicted leave the same nodes and are the same. -/
theorem Derivation.unique {decisions : List Decision} (hDisjoint : AllDisjoint decisions)
    {owner : Nat} {exprs : List Expr} {before after after' : List Tree}
    (derivation : Derivation rules owner exprs before after)
    (other : Derivation rules owner exprs before after')
    (h : Predicted decisions derivation.choices) (h' : Predicted decisions other.choices) :
    (⟨after, derivation⟩ : Σ after, Derivation rules owner exprs before after) =
      ⟨after', other⟩ := by
  -- where the first derivation has a choice, both have the one that is predicted, so that the other
  -- goes on in the same way
  induction derivation generalizing after' with
  | done => cases other; rfl
  | token hLabel later ih =>
    cases other with
    | token hLabel' later' =>
      obtain ⟨rfl, hLater⟩ := Sigma.mk.inj (ih later' h h')
      rw [eq_of_heq hLater]
  | wildcard later ih =>
    cases other with
    | wildcard later' =>
      obtain ⟨rfl, hLater⟩ := Sigma.mk.inj (ih later' h h')
      rw [eq_of_heq hLater]
  | action later ih =>
    cases other with
    | action later' =>
      obtain ⟨rfl, hLater⟩ := Sigma.mk.inj (ih later' h h')
      rw [eq_of_heq hLater]
  | predicate later ih =>
    cases other with
    | predicate later' =>
      obtain ⟨rfl, hLater⟩ := Sigma.mk.inj (ih later' h h')
      rw [eq_of_heq hLater]
  | node hLabel inner later ihInner ihLater =>
    cases other with
    | node hLabel' inner' later' =>
      obtain ⟨hInnerChoices, hLaterChoices⟩ := Predicted.append.1 h
      obtain ⟨hInnerChoices', hLaterChoices'⟩ := Predicted.append.1 h'
      obtain ⟨-, hInner⟩ := Sigma.mk.inj (ihInner inner' hInnerChoices hInnerChoices')
      obtain ⟨rfl, hLater⟩ := Sigma.mk.inj (ihLater later' hLaterChoices hLaterChoices')
      rw [eq_of_heq hInner, eq_of_heq hLater]
  | call hCallee hRule hChosen body later ihBody ihLater =>
    cases other with
    | call hCallee' hRule' hChosen' body' later' =>
      obtain rfl := Option.some.inj (hCallee.symm.trans hCallee')
      obtain rfl := Option.some.inj (hRule.symm.trans hRule')
      obtain ⟨hChoice, hBodyChoices, hLaterChoices⟩ := Predicted.append_append.1 h
      obtain ⟨hChoice', hBodyChoices', hLaterChoices'⟩ := Predicted.append_append.1 h'
      obtain rfl := Predicted.alternative_unique hDisjoint hChosen hChosen' hChoice hChoice'
      obtain rfl := Option.some.inj (hChosen.symm.trans hChosen')
      obtain ⟨rfl, hBody⟩ := Sigma.mk.inj (ihBody body' hBodyChoices hBodyChoices')
      obtain ⟨rfl, hLater⟩ := Sigma.mk.inj (ihLater later' hLaterChoices hLaterChoices')
      rw [eq_of_heq hBody, eq_of_heq hLater]
  | enter hChosen body later ihBody ihLater =>
    obtain ⟨hChoice, hBodyChoices, hLaterChoices⟩ := Predicted.append_append.1 h
    cases other with
    | enter hChosen' body' later' =>
      obtain ⟨hChoice', hBodyChoices', hLaterChoices'⟩ := Predicted.append_append.1 h'
      obtain rfl := Predicted.group_unique hDisjoint hChosen hChosen' hChoice hChoice'
      obtain rfl := Option.some.inj (hChosen.symm.trans hChosen')
      obtain ⟨rfl, hBody⟩ := Sigma.mk.inj (ihBody body' hBodyChoices hBodyChoices')
      obtain ⟨rfl, hLater⟩ := Sigma.mk.inj (ihLater later' hLaterChoices hLaterChoices')
      rw [eq_of_heq hBody, eq_of_heq hLater]
    | leave hSkip later' =>
      exact absurd (Predicted.cons.1 h').1 (Predicted.not_leave hDisjoint hSkip hChoice)
  | leave hSkip later ih =>
    obtain ⟨hLeave, hLaterChoices⟩ := Predicted.cons.1 h
    cases other with
    | enter hChosen' body' later' =>
      have hChoice' := (Predicted.append_append.1 h').1
      exact absurd hLeave (Predicted.not_leave hDisjoint hSkip hChoice')
    | leave hSkip' later' =>
      obtain ⟨rfl, hLater⟩ := Sigma.mk.inj (ih later' hLaterChoices (Predicted.cons.1 h').2)
      rw [eq_of_heq hLater]

/-- There is one derivation of a rule at most. -/
theorem RuleDerivation.unique {decisions : List Decision} (hDisjoint : AllDisjoint decisions)
    {owner : Nat} {before after : List Tree}
    (derivation other : RuleDerivation rules owner before after)
    (h : Predicted decisions derivation.choices) (h' : Predicted decisions other.choices) :
    derivation = other := by
  obtain ⟨rule, hRule, index, alternative, hChosen, body⟩ := derivation
  obtain ⟨rule', hRule', index', alternative', hChosen', body'⟩ := other
  obtain rfl := Option.some.inj (hRule.symm.trans hRule')
  obtain ⟨hChoice, hBody⟩ := Predicted.append.1 h
  obtain ⟨hChoice', hBody'⟩ := Predicted.append.1 h'
  obtain rfl := Predicted.alternative_unique hDisjoint hChosen hChosen' hChoice hChoice'
  obtain rfl := Option.some.inj (hChosen.symm.trans hChosen')
  obtain ⟨-, hSame⟩ := Sigma.mk.inj (body.unique hDisjoint body' hBody hBody')
  rw [eq_of_heq hSame]

end TreeGrammar
