import TreeGrammar.Proofs.Program.Dispatch

/-!
# Which alternatives are taken

A decision takes the first alternative that the next label predicts and whose guard holds, if it has
one. Warnings are about pairs of alternatives, but a third one may come before both of them. So the
pairs have to be compared with the whole chain: an alternative is taken for some values of the
guards if and only if all alternatives before it that the label predicts have guards, and for all of
these values only if there are none.

## Main definitions

* `Decision.warning`: the warning about a conflict
* `Decision.IsOpen`: the alternatives before one may all be passed over
* `Arm.AreBound`: the guards of arms find their attributes

## Main results

* `Condition.exists_dispatch_iff`: which conditions are taken for some values of the guards
* `Condition.dispatch_first_iff`: which conditions are taken for all values of the guards
* `Grammar.taken_of_silent`: the alternatives that are taken at a decision without warnings
* `Grammar.taken_of_warning`: the alternatives that are taken where a warning is given
-/

namespace TreeGrammar

/-! ### Chains of conditions -/

namespace Condition

variable {oracle : Oracle} {frame : Frame Scope} {next : Option String} {walk last : Walk}
  {condition : Condition} {conditions : List Condition} {i : Nat} {taken : Option Nat}

/-- A condition that holds fits the next label. -/
theorem fits_of_evaluate (h : condition.evaluate oracle frame next walk = .finished true last) :
    condition.fits next = true := by
  by_cases hFits : condition.fits next = true
  · exact hFits
  · rw [evaluate, if_neg hFits] at h
    cases h

/-- A condition that fits but does not hold has a guard, which has been found to be false. -/
theorem guard_of_evaluate (h : condition.evaluate oracle frame next walk = .finished false last)
    (hFits : condition.fits next = true) :
    ∃ code history, condition.guard = some code ∧ oracle history code = false := by
  rw [evaluate, if_pos hFits] at h
  cases hGuard : condition.guard with
  | none =>
    rw [hGuard] at h
    cases h
  | some code =>
    simp only [hGuard, Code.test] at h
    cases hBind : bindAttributes frame walk code.accesses with
    | finished _ after =>
      rw [hBind] at h
      exact ⟨code, after.history, rfl, (Outcome.finished.inj h).1⟩
    | failed failure after => rw [hBind] at h; cases h
    | unfinished => rw [hBind] at h; cases h

/-- The condition that is taken fits the next label. Those that fit and come before it have guards
that have been found to be false; if none is taken, then this holds of all that fit. -/
theorem of_dispatch (h : dispatch oracle frame next walk conditions = .finished taken last) :
    (∀ i ∈ taken, ∃ condition, conditions[i]? = some condition ∧ condition.fits next = true) ∧
      ∀ (j : Nat) (other : Condition), (∀ i ∈ taken, j < i) → conditions[j]? = some other →
        other.fits next = true →
          ∃ code history, other.guard = some code ∧ oracle history code = false := by
  induction conditions generalizing taken walk with
  | nil =>
    obtain ⟨rfl, -⟩ := Outcome.finished.inj h
    exact ⟨nofun, nofun⟩
  | cons head conditions ih =>
    rw [dispatch] at h
    cases hHead : head.evaluate oracle frame next walk with
    | failed failure after => rw [hHead] at h; cases h
    | unfinished => rw [hHead] at h; cases h
    | finished holds after =>
      simp only [hHead, Outcome.andThen] at h
      cases holds with
      | true =>
        -- the first condition is taken, and there is none before it
        obtain ⟨rfl, -⟩ := Outcome.finished.inj h
        have hFits := fits_of_evaluate hHead
        exact ⟨by simpa using hFits, by simp⟩
      | false =>
        simp only [Bool.false_eq_true, if_false] at h
        cases hLater : dispatch oracle frame next after conditions with
        | failed failure after => rw [hLater] at h; cases h
        | unfinished => rw [hLater] at h; cases h
        | finished taken' after' =>
          rw [hLater] at h
          obtain ⟨rfl, rfl⟩ := Outcome.finished.inj h
          obtain ⟨hFound, hBefore⟩ := ih hLater
          refine ⟨by simpa using hFound, fun j other hLess hOther hFits => ?_⟩
          cases j with
          | zero =>
            obtain rfl : head = other := Option.some.inj hOther
            exact guard_of_evaluate hHead hFits
          | succ j =>
            have hLess' : ∀ i ∈ taken', j < i := by simpa using hLess
            exact hBefore j other hLess' hOther hFits

/-- A condition without guard is taken if it is the first one that fits. -/
theorem dispatch_of_first (hi : conditions[i]? = some condition)
    (hFits : condition.fits next = true) (hGuard : condition.guard = none)
    (hBefore : ∀ (j : Nat) (other : Condition), j < i → conditions[j]? = some other →
      other.fits next = false) :
    dispatch oracle frame next walk conditions = .finished (some i) walk := by
  induction conditions generalizing i with
  | nil => cases hi
  | cons head conditions ih =>
    cases i with
    | zero =>
      obtain rfl : head = condition := Option.some.inj hi
      simp [dispatch, evaluate, hFits, hGuard, Outcome.andThen]
    | succ i =>
      have hHead : head.fits next = false := hBefore 0 head (Nat.succ_pos i) rfl
      have hLater := ih hi fun j other hLess hOther =>
        hBefore (j + 1) other (Nat.succ_lt_succ hLess) hOther
      simp [dispatch, evaluate_of_not_fits hHead, Outcome.andThen, hLater]

/-- The guards of conditions find the attributes to which they refer. -/
def AreBound (frame : Frame Scope) (conditions : List Condition) : Prop :=
  ∀ condition ∈ conditions, ∀ code, condition.guard = some code →
    ∀ access ∈ code.accesses, access.find? frame ≠ none

/-- The guards that are tested before the condition with number `i` are those of the conditions that
fit. If the next test is the first one to succeed, then the condition is taken. -/
theorem dispatch_of_open (hBound : AreBound frame conditions) (hi : conditions[i]? = some condition)
    (hFits : condition.fits next = true)
    (hOpen : ∀ (j : Nat) (other : Condition), j < i → conditions[j]? = some other →
      other.fits next = true → other.guard.isSome = true) {tests : Nat}
    (hTests : tests = walk.history.length + (conditions.take i).countP (fits next)) :
    ∃ last, dispatch (fun history _ => history.length = tests) frame next walk conditions =
      .finished (some i) last := by
  induction conditions generalizing i walk with
  | nil => cases hi
  | cons head conditions ih =>
    obtain ⟨hHeadBound, hLaterBound⟩ := List.forall_mem_cons.1 hBound
    -- a guard is tested once, which one event records
    have hTest : ∀ code, head.guard = some code →
        code.test (fun history _ => history.length = tests) frame walk =
          .finished (decide (walk.history.length = tests))
            (walk.record (.tested code (decide (walk.history.length = tests)))) := by
      intro code hCode
      rw [Code.test, bindAttributes_found (hHeadBound code hCode)]
      rfl
    cases i with
    | zero =>
      obtain rfl : head = condition := Option.some.inj hi
      rw [dispatch, evaluate, if_pos hFits]
      cases hGuard : head.guard with
      | none => exact ⟨walk, rfl⟩
      | some code =>
        have hNow : walk.history.length = tests := by simpa using hTests.symm
        simp only [hTest code hGuard, hNow, decide_true, Outcome.andThen, if_true]
        exact ⟨_, rfl⟩
    | succ i =>
      have hOpen' : ∀ (j : Nat) (other : Condition), j < i → conditions[j]? = some other →
          other.fits next = true → other.guard.isSome = true :=
        fun j other hLess hOther => hOpen (j + 1) other (Nat.succ_lt_succ hLess) hOther
      rw [List.take_succ_cons, List.countP_cons] at hTests
      by_cases hHead : head.fits next = true
      · obtain ⟨code, hCode⟩ := Option.isSome_iff_exists.1
          (hOpen 0 head (Nat.succ_pos i) rfl hHead)
        rw [if_pos hHead] at hTests
        have hNow : walk.history.length ≠ tests := by omega
        have hLength : tests = (walk.record (.tested code false)).history.length +
            (conditions.take i).countP (fits next) := by
          simp only [Walk.record, List.length_append, List.length_singleton]
          omega
        obtain ⟨last, hLast⟩ := ih hLaterBound hi hOpen' hLength
        refine ⟨last, ?_⟩
        rw [dispatch, evaluate, if_pos hHead, hCode]
        simp [hTest code hCode, hNow, Outcome.andThen, hLast]
      · rw [if_neg hHead, Nat.add_zero] at hTests
        obtain ⟨last, hLast⟩ := ih hLaterBound hi hOpen' hTests
        refine ⟨last, ?_⟩
        simp [dispatch, evaluate_of_not_fits (Bool.eq_false_iff.2 hHead), Outcome.andThen, hLast]

/-- Guards can be found to be such that a condition is taken if and only if the condition fits and
those before it that fit have guards. -/
theorem exists_dispatch_iff (hBound : AreBound frame conditions)
    (hi : conditions[i]? = some condition) :
    (∃ oracle last, dispatch oracle frame next walk conditions = .finished (some i) last) ↔
      condition.fits next = true ∧ ∀ (j : Nat) (other : Condition), j < i →
        conditions[j]? = some other → other.fits next = true → other.guard.isSome = true := by
  constructor
  · rintro ⟨oracle, last, h⟩
    obtain ⟨hFound, hBefore⟩ := of_dispatch h
    obtain ⟨found, hAt, hFits⟩ := hFound i rfl
    obtain rfl : condition = found := Option.some.inj (hi.symm.trans hAt)
    refine ⟨hFits, fun j other hLess hOther hOtherFits => ?_⟩
    obtain ⟨code, -, hGuard, -⟩ := hBefore j other (by simpa using hLess) hOther hOtherFits
    simp [hGuard]
  · rintro ⟨hFits, hOpen⟩
    exact ⟨_, dispatch_of_open hBound hi hFits hOpen rfl⟩

/-- A condition without guard that fits is taken for all guards if and only if it is the first one
that fits. -/
theorem dispatch_first_iff (hi : conditions[i]? = some condition)
    (hFits : condition.fits next = true) (hGuard : condition.guard = none) :
    (∀ (oracle : Oracle) (frame : Frame Scope) (walk : Walk),
      dispatch oracle frame next walk conditions = .finished (some i) walk) ↔
        ∀ (j : Nat) (other : Condition), j < i → conditions[j]? = some other →
          other.fits next = false := by
  constructor
  · intro h j other hLess hOther
    -- guards that are always true do not let a condition that fits be passed over
    obtain ⟨-, hBefore⟩ := of_dispatch (h (fun _ _ => true) (.root (rootScope 0)) {})
    by_contra hNot
    have hOtherFits : other.fits next = true := by simpa using hNot
    obtain ⟨_, _, _, hFalse⟩ := hBefore j other (by simpa using hLess) hOther hOtherFits
    cases hFalse
  · intro hBefore oracle frame walk
    exact dispatch_of_first hi hFits hGuard hBefore

/-- Where a condition without guard fits, this one is taken or one before it that fits. -/
theorem exists_le_of_dispatch (hi : conditions[i]? = some condition)
    (hFits : condition.fits next = true) (hGuard : condition.guard = none)
    (h : dispatch oracle frame next walk conditions = .finished taken last) :
    ∃ k found, taken = some k ∧ k ≤ i ∧ conditions[k]? = some found ∧ found.fits next = true := by
  obtain ⟨hFound, hBefore⟩ := of_dispatch h
  -- otherwise the guard of the condition would have been found to be false, but there is none
  have hNot : ¬ ∀ k ∈ taken, i < k := by
    intro hLess
    obtain ⟨code, -, hCode, -⟩ := hBefore i condition hLess hi hFits
    simp [hGuard] at hCode
  cases taken with
  | none => simp at hNot
  | some k =>
    obtain ⟨found, hAt, hFoundFits⟩ := hFound k rfl
    exact ⟨k, found, rfl, by simpa using hNot, hAt, hFoundFits⟩

end Condition

/-! ### Decisions -/

/-- The guards of arms find the attributes to which they refer. -/
def Arm.AreBound (frame : Frame Scope) (arms : List Arm) : Prop :=
  Condition.AreBound frame (arms.map Arm.condition)

namespace Decision

/-- The arms of the alternatives of a decision. Variables get the numbers after `last`. -/
def arms (context : BuildContext) (cursor : CursorVariable) (last : Nat) (decision : Decision)
    (alternatives : List Alternative) : List Arm :=
  Alternative.armsFrom context cursor last (decision.candidates.map Candidate.prediction)
    alternatives

/-- All alternatives before the one with number `i` that the next label predicts have guards. -/
def IsOpen (decision : Decision) (next : Option String) (i : Nat) : Prop :=
  ∀ (j : Nat) (earlier : Candidate), j < i → decision.candidates[j]? = some earlier →
    earlier.prediction.accepts next = true → earlier.guarded = true

/-- The warning about a conflict of a decision. -/
def warning (rules : Rules) (decision : Decision) (conflict : Conflict) : Diagnostic :=
  ⟨decision.span,
    .ambiguity (rules.nameOf decision.rule) conflict.first conflict.second conflict.overlap⟩

variable {decision : Decision} {first : String → FirstSet} {follow : LookaheadSet}
  {alternatives : List Alternative} {context : BuildContext} {cursor : CursorVariable}
  {number i : Nat} {candidate : Candidate} {condition : Condition} {frame : Frame Scope}
  {next : Option String} {walk last : Walk} {oracle : Oracle}

theorem map_condition_arms :
    (decision.arms context cursor number alternatives).map Arm.condition =
      decision.conditions context alternatives :=
  Alternative.map_condition_armsFrom ..

/-- A condition fits what predicts its alternative, and has its guard. -/
theorem conditions_eq (h : decision.candidates = Alternative.candidates first follow alternatives) :
    decision.conditions context alternatives = alternatives.map fun alternative =>
      alternative.condition context ((alternative.first first).predict follow) := by
  rw [conditions, h, Alternative.candidates, List.map_map, List.zipWith_map_left,
    List.zipWith_self]
  rfl

/-- A condition belongs to a candidate. -/
theorem exists_candidate
    (h : decision.candidates = Alternative.candidates first follow alternatives)
    (hi : (decision.conditions context alternatives)[i]? = some condition) :
    ∃ candidate, decision.candidates[i]? = some candidate ∧
      (∀ next, condition.fits next = candidate.prediction.accepts next) ∧
      condition.guard.isSome = candidate.guarded := by
  rw [conditions_eq h, List.getElem?_map, Option.map_eq_some_iff] at hi
  obtain ⟨alternative, hAlternative, rfl⟩ := hi
  simp only [h, Alternative.candidates, List.getElem?_map, hAlternative, Option.map_some]
  exact ⟨_, rfl, fun _ => LookaheadSet.fits_patterns .., by simp [Alternative.condition,
    Alternative.isGuarded]⟩

/-- A candidate has a condition. -/
theorem exists_condition (context : BuildContext)
    (h : decision.candidates = Alternative.candidates first follow alternatives)
    (hi : decision.candidates[i]? = some candidate) :
    ∃ condition, (decision.conditions context alternatives)[i]? = some condition ∧
      (∀ next, condition.fits next = candidate.prediction.accepts next) ∧
      condition.guard.isSome = candidate.guarded := by
  have hLt : i < alternatives.length := by
    have hLt := (List.getElem?_eq_some_iff.1 hi).1
    simpa [h, Alternative.candidates] using hLt
  obtain ⟨condition, hCondition⟩ :
      ∃ condition, (decision.conditions context alternatives)[i]? = some condition := by
    rw [conditions_eq h, List.getElem?_map, List.getElem?_eq_getElem hLt]
    exact ⟨_, rfl⟩
  obtain ⟨other, hOther, hFits, hGuard⟩ := exists_candidate h hCondition
  obtain rfl : candidate = other := Option.some.inj (hi.symm.trans hOther)
  exact ⟨condition, hCondition, hFits, hGuard⟩

/-- The conditions before one that fit have guards if and only if the alternative is open. -/
theorem isOpen_iff (context : BuildContext)
    (h : decision.candidates = Alternative.candidates first follow alternatives) :
    decision.IsOpen next i ↔ ∀ (j : Nat) (other : Condition), j < i →
      (decision.conditions context alternatives)[j]? = some other → other.fits next = true →
        other.guard.isSome = true := by
  constructor
  · intro hOpen j other hLess hOther hFits
    obtain ⟨earlier, hEarlier, hAccepts, hGuard⟩ := exists_candidate h hOther
    rw [hGuard]
    exact hOpen j earlier hLess hEarlier (hAccepts next ▸ hFits)
  · intro hConditions j earlier hLess hEarlier hAccepts
    obtain ⟨other, hOther, hFits, hGuard⟩ := exists_condition context h hEarlier
    rw [← hGuard]
    exact hConditions j other hLess hOther ((hFits next).trans hAccepts)

/-- An alternative is taken for some values of the guards if and only if it is predicted and
open. -/
theorem exists_taken_iff
    (h : decision.candidates = Alternative.candidates first follow alternatives)
    (hBound : Arm.AreBound frame (decision.arms context cursor number alternatives))
    (hi : decision.candidates[i]? = some candidate) :
    (∃ oracle last, Arm.taken oracle frame next walk
      (decision.arms context cursor number alternatives) = .finished (some i) last) ↔
        candidate.prediction.accepts next = true ∧ decision.IsOpen next i := by
  obtain ⟨condition, hCondition, hFits, -⟩ := exists_condition context h hi
  rw [Arm.AreBound, map_condition_arms] at hBound
  simp only [Arm.taken, map_condition_arms]
  rw [Condition.exists_dispatch_iff hBound hCondition, hFits, isOpen_iff context h]

/-- An alternative without guard that is predicted is taken for all values of the guards if and only
if no alternative before it is predicted. -/
theorem forall_taken_iff
    (h : decision.candidates = Alternative.candidates first follow alternatives)
    (hi : decision.candidates[i]? = some candidate) (hGuard : candidate.guarded = false)
    (hAccepts : candidate.prediction.accepts next = true) :
    (∀ (oracle : Oracle) (frame : Frame Scope) (walk : Walk), Arm.taken oracle frame next walk
      (decision.arms context cursor number alternatives) = .finished (some i) walk) ↔
        ∀ (j : Nat) (earlier : Candidate), j < i → decision.candidates[j]? = some earlier →
          earlier.prediction.accepts next = false := by
  obtain ⟨condition, hCondition, hFits, hSome⟩ := exists_condition context h hi
  have hNone : condition.guard = none := by simpa [hGuard] using hSome
  simp only [Arm.taken, map_condition_arms]
  rw [Condition.dispatch_first_iff hCondition ((hFits next).trans hAccepts) hNone]
  constructor
  · intro hBefore j earlier hLess hEarlier
    obtain ⟨other, hOther, hOtherFits, -⟩ := exists_condition context h hEarlier
    rw [← hOtherFits]
    exact hBefore j other hLess hOther
  · intro hBefore j other hLess hOther
    obtain ⟨earlier, hEarlier, hOtherFits, -⟩ := exists_candidate h hOther
    rw [hOtherFits]
    exact hBefore j earlier hLess hEarlier

/-- Where an alternative without guard is predicted, this one is taken or one before it. -/
theorem exists_le_of_taken
    (h : decision.candidates = Alternative.candidates first follow alternatives)
    (hi : decision.candidates[i]? = some candidate) (hGuard : candidate.guarded = false)
    (hAccepts : candidate.prediction.accepts next = true) {taken : Option Nat}
    (hTaken : Arm.taken oracle frame next walk
      (decision.arms context cursor number alternatives) = .finished taken last) :
    ∃ k found, taken = some k ∧ k ≤ i ∧ decision.candidates[k]? = some found ∧
      found.prediction.accepts next = true := by
  obtain ⟨condition, hCondition, hFits, hSome⟩ := exists_condition context h hi
  have hNone : condition.guard = none := by simpa [hGuard] using hSome
  rw [Arm.taken, map_condition_arms] at hTaken
  obtain ⟨k, other, rfl, hLe, hOther, hOtherFits⟩ :=
    Condition.exists_le_of_dispatch hCondition ((hFits next).trans hAccepts) hNone hTaken
  obtain ⟨found, hFound, hFoundFits, -⟩ := exists_candidate h hOther
  exact ⟨k, found, rfl, hLe, hFound, hFoundFits next ▸ hOtherFits⟩

/-! ### Conflicts of alternatives -/

/-- The branch of an alternative stands at its number. -/
theorem exists_candidate_of_branch {p : Nat} {branch : DecisionBranch}
    (hBranch : decision.branches[p]? = some branch) (hName : branch.branch = .alternative i) :
    p = i ∧ ∃ candidate, decision.candidates[i]? = some candidate ∧
      candidate.prediction = branch.prediction ∧ candidate.guarded = branch.guarded := by
  rw [branches, Candidate.branches, List.getElem?_append] at hBranch
  split at hBranch
  · rw [List.getElem?_map, Option.map_eq_some_iff] at hBranch
    obtain ⟨⟨candidate, k⟩, hAt, rfl⟩ := hBranch
    obtain rfl : k = i := Branch.alternative.inj hName
    rw [List.getElem?_zipIdx, Option.map_eq_some_iff] at hAt
    obtain ⟨_, hCandidate, hEq⟩ := hAt
    obtain ⟨rfl, hNumber⟩ := Prod.mk.inj hEq
    obtain rfl : p = k := by omega
    exact ⟨rfl, _, hCandidate, rfl, rfl⟩
  · -- the exit is not an alternative
    obtain ⟨_, -, rfl⟩ := List.mem_map.1 (List.mem_of_getElem? hBranch)
    cases hName

/-- A conflict without guards is one of two alternatives that are predicted by a common symbol. -/
theorem exists_candidates_of_conflict {conflict : Conflict} {j : Nat}
    (hConflict : conflict ∈ decision.conflicts) (hFirst : conflict.first = .alternative i)
    (hSecond : conflict.second = .alternative j) :
    i < j ∧ ∃ a b, decision.candidates[i]? = some a ∧ decision.candidates[j]? = some b ∧
      conflict.gated = (a.guarded || b.guarded) ∧ ∀ next, conflict.overlap.accepts next = true ↔
        a.prediction.accepts next = true ∧ b.prediction.accepts next = true := by
  obtain ⟨p, q, a, b, hLess, ha, hb, -, rfl⟩ := mem_conflicts_iff.1 hConflict
  obtain ⟨rfl, x, hx, hPredictionX, hGuardX⟩ := exists_candidate_of_branch ha hFirst
  obtain ⟨rfl, y, hy, hPredictionY, hGuardY⟩ := exists_candidate_of_branch hb hSecond
  refine ⟨hLess, x, y, hx, hy, ?_, fun next => ?_⟩
  · rw [hGuardX, hGuardY]
    rfl
  · rw [hPredictionX, hPredictionY]
    exact LookaheadSet.accepts_overlap_iff

theorem getElem?_branches (hi : decision.candidates[i]? = some candidate) :
    decision.branches[i]? = some ⟨.alternative i, candidate.prediction, candidate.guarded⟩ := by
  have hLt := (List.getElem?_eq_some_iff.1 hi).1
  rw [branches, Candidate.branches, List.getElem?_append_left (by simpa using hLt)]
  simp [hi]

/-- If there are warnings about all conflicts without guards but none is given, then an alternative
without guard is open. -/
theorem isOpen_of_gated (hGated : ∀ conflict ∈ decision.conflicts, conflict.gated = true)
    (hi : decision.candidates[i]? = some candidate) (hGuard : candidate.guarded = false)
    (hAccepts : candidate.prediction.accepts next = true) : decision.IsOpen next i := by
  intro j earlier hLess hEarlier hEarlierAccepts
  have hConflict : DecisionBranch.conflict _ _ ∈ decision.conflicts :=
    mem_conflicts_iff.2 ⟨j, i, _, _, hLess, getElem?_branches hEarlier, getElem?_branches hi,
      ⟨next, hEarlierAccepts, hAccepts⟩, rfl⟩
  have hEither := hGated _ hConflict
  simpa [DecisionBranch.conflict, hGuard] using hEither

end Decision

/-! ### Warnings -/

namespace Grammar

variable {source : List Char} {options : Options} {grammar : Grammar} {decision : Decision}
  {conflict : Conflict}

/-- A warning is given about each conflict without guards. -/
theorem warning_mem_diagnostics
    (hAccepted : (analyse source options).accepted? = some grammar)
    (hDecision : decision ∈ grammar.decisions) (hConflict : conflict ∈ decision.conflicts)
    (hGated : conflict.gated = false) :
    decision.warning grammar.rules conflict ∈ (analyse source options).diagnostics := by
  apply ambiguityWarnings_subset hAccepted
  refine List.mem_flatMap.2 ⟨decision, hDecision, List.mem_map.2 ⟨conflict, ?_, rfl⟩⟩
  simp [hConflict, hGated]

/-- At a decision without warnings, every alternative without guard is taken on some label for some
values of the guards, if it is predicted at all. In general, the alternatives that are taken for
some values of the guards are those that are predicted where all earlier predicted ones have
guards. -/
theorem taken_of_silent (hAccepted : (analyse source options).accepted? = some grammar)
    (hDecision : decision ∈ grammar.decisions)
    (hSilent : ∀ conflict ∈ decision.conflicts,
      decision.warning grammar.rules conflict ∉ (analyse source options).diagnostics) :
    ∃ alternatives follow, grammar.rules.Offers decision.site alternatives ∧
      decision.candidates = Alternative.candidates grammar.rules.first follow alternatives ∧
      ∀ (context : BuildContext) (cursor : CursorVariable) (number : Nat) (frame : Frame Scope)
        (walk : Walk),
        let arms := decision.arms context cursor number alternatives
        (∀ name, Arm.listTokens name arms = arms.map (Arm.statement name)) ∧
        (Arm.AreBound frame arms → ∀ (i : Nat) (candidate : Candidate),
          decision.candidates[i]? = some candidate →
          (∀ next, (∃ oracle last, Arm.taken oracle frame next walk arms =
            .finished (some i) last) ↔
              candidate.prediction.accepts next = true ∧ decision.IsOpen next i) ∧
          (candidate.guarded = false → candidate.prediction.isEmpty = false →
            ∃ next oracle last, candidate.prediction.accepts next = true ∧
              Arm.taken oracle frame next walk arms = .finished (some i) last)) := by
  have hGated : ∀ conflict ∈ decision.conflicts, conflict.gated = true := by
    intro conflict hConflict
    by_contra hNot
    exact hSilent conflict hConflict
      (warning_mem_diagnostics hAccepted hDecision hConflict (by simpa using hNot))
  have hMade := hDecision
  rw [(checked_of_accepted hAccepted).decisions] at hMade
  obtain ⟨alternatives, follow, hOffers, hCandidates⟩ := Rules.exists_candidates hMade
  refine ⟨alternatives, follow, hOffers, hCandidates, fun context cursor number frame walk =>
    ⟨fun name => Arm.listTokens_eq name _, fun hBound i candidate hi => ?_⟩⟩
  have hTaken : ∀ next, (∃ oracle last, Arm.taken oracle frame next walk
      (decision.arms context cursor number alternatives) = .finished (some i) last) ↔
        candidate.prediction.accepts next = true ∧ decision.IsOpen next i :=
    fun _ => Decision.exists_taken_iff hCandidates hBound hi
  refine ⟨hTaken, fun hGuard hSome => ?_⟩
  obtain ⟨next, hAccepts⟩ := LookaheadSet.isEmpty_eq_false_iff.1 hSome
  obtain ⟨oracle, last, hLast⟩ :=
    (hTaken next).2 ⟨hAccepts, Decision.isOpen_of_gated hGated hi hGuard hAccepts⟩
  exact ⟨next, oracle, last, hAccepts, hLast⟩

/-- A warning about two alternatives says that the first one is always taken on some labels. It is
the first one of these two that may be taken, but it is taken for all values of the guards only
where no alternative before it is predicted, and for some only where those have guards. -/
theorem taken_of_warning (hAccepted : (analyse source options).accepted? = some grammar)
    (hDecision : decision ∈ grammar.decisions) (hConflict : conflict ∈ decision.conflicts)
    (hGated : conflict.gated = false) {i j : Nat} (hFirst : conflict.first = .alternative i)
    (hSecond : conflict.second = .alternative j) :
    decision.warning grammar.rules conflict ∈ (analyse source options).diagnostics ∧ i < j ∧
      ∃ alternatives follow, grammar.rules.Offers decision.site alternatives ∧
        decision.candidates = Alternative.candidates grammar.rules.first follow alternatives ∧
        ∀ (context : BuildContext) (cursor : CursorVariable) (number : Nat),
          let arms := decision.arms context cursor number alternatives
          (∀ name, Arm.listTokens name arms = arms.map (Arm.statement name)) ∧
          ∀ next, conflict.overlap.accepts next = true →
            ((∀ (oracle : Oracle) (frame : Frame Scope) (walk : Walk),
              Arm.taken oracle frame next walk arms = .finished (some i) walk) ↔
                ∀ (k : Nat) (earlier : Candidate), k < i →
                  decision.candidates[k]? = some earlier →
                    earlier.prediction.accepts next = false) ∧
            ∀ (frame : Frame Scope) (walk : Walk),
              (Arm.AreBound frame arms → ((∃ oracle last, Arm.taken oracle frame next walk arms =
                .finished (some i) last) ↔ decision.IsOpen next i)) ∧
              ∀ oracle taken last, Arm.taken oracle frame next walk arms = .finished taken last →
                ∃ k found, taken = some k ∧ k ≤ i ∧ decision.candidates[k]? = some found ∧
                  found.prediction.accepts next = true := by
  obtain ⟨hLess, a, b, ha, -, hEither, hOverlap⟩ :=
    Decision.exists_candidates_of_conflict hConflict hFirst hSecond
  have hGuard : a.guarded = false := (Bool.or_eq_false_iff.1 (hEither.symm.trans hGated)).1
  have hMade := hDecision
  rw [(checked_of_accepted hAccepted).decisions] at hMade
  obtain ⟨alternatives, follow, hOffers, hCandidates⟩ := Rules.exists_candidates hMade
  refine ⟨warning_mem_diagnostics hAccepted hDecision hConflict hGated, hLess, alternatives, follow,
    hOffers, hCandidates, fun context cursor number =>
      ⟨fun name => Arm.listTokens_eq name _, fun next hShared => ?_⟩⟩
  have hAccepts := ((hOverlap next).1 hShared).1
  refine ⟨Decision.forall_taken_iff hCandidates ha hGuard hAccepts, fun frame walk =>
    ⟨fun hBound => ?_, fun oracle taken last hTaken =>
      Decision.exists_le_of_taken hCandidates ha hGuard hAccepts hTaken⟩⟩
  rw [Decision.exists_taken_iff hCandidates hBound ha, and_iff_right hAccepts]

end Grammar

/-! ### Alternatives that match any node

In the text `s:.|{x}?.;` the second alternative has a guard, so that no warning is given, but it
comes after one that is always taken. In the text `s:.|.|.;` a warning says that the second
alternative is always selected, but the first one is. -/

namespace Rivals

/-- The rule `s` with the given alternatives. -/
def rules (alternatives : List Alternative) : Rules :=
  [{ name := ⟨"s", Sample.place 0⟩, isPublic := false, attributes := [], params := none,
     returns := none, alternatives }]

/-- The grammar as it is read. -/
def written (alternatives : List Alternative) : SourceGrammar where
  rules := rules alternatives
  elements := (rules alternatives).exprs
  infos := (rules alternatives).exprs.map fun expr => ⟨expr.span, none⟩

/-- The decision between alternatives that match any node, some of them with guards. -/
def decision (guards : List Bool) : Decision where
  id := 0
  site := .rule 0
  kind := .alternatives
  rule := 0
  span := Sample.place 0
  candidates := guards.map fun guarded => { prediction := .anyNode, guarded, nullable := false }
  exit := none

/-- The grammar that the analysis makes of the text. -/
def grammar (alternatives : List Alternative) (guards : List Bool) : Grammar where
  name := ⟨"tree_grammar", Span.start⟩
  options := {}
  tokens := []
  prelude := []
  rules := rules alternatives
  decisions := [decision guards]
  scopes := []

/-- The text `s:.|{x}?.;`. -/
def guardedSource : List Char := ['s', ':', '.', '|', '\x7b', 'x', '\x7d', '?', '.', ';']

/-- Its alternatives. -/
def guardedPair : List Alternative :=
  [.mk none [.wildcard 0 (Sample.place 2) none] (Sample.place 2),
    .mk (some ⟨"x", Sample.place 5⟩) [.wildcard 1 (Sample.place 8) none] (Sample.place 4)]

theorem analyse_guardedSource :
    (analyse guardedSource {}).accepted? = some (grammar guardedPair [false, true]) ∧
      (analyse guardedSource {}).diagnostics = [] := by
  have hParse : SourceGrammar.parse guardedSource = ([], written guardedPair) := by
    with_unfolding_all rfl
  have hDecisions : (rules guardedPair).decisions (rules guardedPair).first
      (rules guardedPair).follows = [decision [false, true]] := by decide +kernel
  have hWarnings : (rules guardedPair).ambiguityWarnings [decision [false, true]] = [] := by
    decide +kernel
  have hClean : (written guardedPair).IsClean {} := by decide +kernel
  have hScopes : (rules guardedPair).scopes = [] := by decide +kernel
  have hUsage : (rules guardedPair).usageWarnings = [] := by decide +kernel
  obtain ⟨hAccepted, hDiagnostics⟩ := analyse_of_isClean hParse rfl hClean hDecisions hScopes
  refine ⟨hAccepted, hDiagnostics.trans ?_⟩
  exact congrArg₂ (· ++ ·) hUsage hWarnings

/-- The frame at the root where no rule declares an attribute. -/
def frame : Frame Scope := .root (rootScope 0)

/-- The arms of the alternatives of the text. -/
def guardedArms : List Arm :=
  (decision [false, true]).arms ⟨[], [], [decision [false, true]], 0⟩ .given 0 guardedPair

/-- The first alternative is taken on some label. -/
theorem taken_of_silent_guardedPair :
    (analyse guardedSource {}).accepted? = some (grammar guardedPair [false, true]) ∧
      (∀ conflict ∈ (decision [false, true]).conflicts,
        (decision [false, true]).warning (rules guardedPair) conflict ∉
          (analyse guardedSource {}).diagnostics) ∧
      Arm.AreBound frame guardedArms ∧
      ∃ next oracle last, Arm.taken oracle frame next {} guardedArms = .finished (some 0) last := by
  have hSilent : ∀ conflict ∈ (decision [false, true]).conflicts,
      (decision [false, true]).warning (rules guardedPair) conflict ∉
        (analyse guardedSource {}).diagnostics := by
    simp [analyse_guardedSource.2]
  have hBound : Arm.AreBound frame guardedArms := by
    have hCodes : (guardedArms.map Arm.condition).all fun condition =>
        condition.guard.all (·.accesses.isEmpty) := by decide +kernel
    intro condition hCondition code hCode access hAccess
    have hNone : code.accesses = [] := by
      simpa [hCode] using List.all_eq_true.1 hCodes condition hCondition
    simp [hNone] at hAccess
  obtain ⟨alternatives, follow, ⟨rule, hRule, rfl⟩, -, hArms⟩ :=
    Grammar.taken_of_silent analyse_guardedSource.1 List.mem_cons_self hSilent
  obtain rfl := Option.some.inj hRule
  obtain ⟨-, hTaken⟩ := hArms ⟨[], [], [decision [false, true]], 0⟩ .given 0 frame {}
  obtain ⟨next, oracle, last, -, hLast⟩ := (hTaken hBound 0 _ rfl).2 rfl rfl
  exact ⟨analyse_guardedSource.1, hSilent, hBound, next, oracle, last, hLast⟩

/-- The second alternative is never taken, although no warning is given and all nodes predict it. -/
theorem taken_ne_guardedPair :
    (analyse guardedSource {}).accepted? = some (grammar guardedPair [false, true]) ∧
      (analyse guardedSource {}).diagnostics = [] ∧
      (decision [false, true]).candidates[1]? = some ⟨.anyNode, true, false⟩ ∧
      LookaheadSet.anyNode.isEmpty = false ∧
      ∀ (context : BuildContext) (cursor : CursorVariable) (number : Nat) (oracle : Oracle)
        (frame : Frame Scope) (next : Option String) (walk last : Walk),
        Arm.taken oracle frame next walk
          ((decision [false, true]).arms context cursor number guardedPair) ≠
            .finished (some 1) last := by
  refine ⟨analyse_guardedSource.1, analyse_guardedSource.2, rfl, rfl,
    fun context cursor number oracle frame next walk last => ?_⟩
  rw [Arm.taken, Decision.map_condition_arms]
  intro hTaken
  cases next <;> cases hTaken

/-- The text `s:.|.|.;`. -/
def plainSource : List Char := ['s', ':', '.', '|', '.', '|', '.', ';']

/-- Its alternatives. -/
def plainTriple : List Alternative :=
  [.mk none [.wildcard 0 (Sample.place 2) none] (Sample.place 2),
    .mk none [.wildcard 1 (Sample.place 4) none] (Sample.place 4),
    .mk none [.wildcard 2 (Sample.place 6) none] (Sample.place 6)]

theorem accepted_plainSource : (analyse plainSource {}).accepted? =
    some (grammar plainTriple [false, false, false]) := by
  have hParse : SourceGrammar.parse plainSource = ([], written plainTriple) := by
    with_unfolding_all rfl
  have hDecisions : (rules plainTriple).decisions (rules plainTriple).first
      (rules plainTriple).follows = [decision [false, false, false]] := by decide +kernel
  have hClean : (written plainTriple).IsClean {} := by decide +kernel
  have hScopes : (rules plainTriple).scopes = [] := by decide +kernel
  exact (analyse_of_isClean hParse rfl hClean hDecisions hScopes).1

/-- The conflict between two of the alternatives of the text. -/
def conflict (i j : Nat) : Conflict where
  first := .alternative i
  second := .alternative j
  overlap := .anyNode
  gated := false

/-- The warning about the first two alternatives is right. -/
theorem taken_of_warning_plainTriple :
    (analyse plainSource {}).accepted? = some (grammar plainTriple [false, false, false]) ∧
      conflict 0 1 ∈ (decision [false, false, false]).conflicts ∧ (conflict 0 1).gated = false ∧
      ∀ (oracle : Oracle) (frame : Frame Scope) (walk : Walk),
        Arm.taken oracle frame (some "A") walk
          ((decision [false, false, false]).arms ⟨[], [], [], 0⟩ .given 0 plainTriple) =
            .finished (some 0) walk := by
  have hConflict : conflict 0 1 ∈ (decision [false, false, false]).conflicts := by decide
  obtain ⟨-, -, alternatives, follow, ⟨rule, hRule, rfl⟩, -, hArms⟩ :=
    Grammar.taken_of_warning accepted_plainSource List.mem_cons_self hConflict rfl rfl rfl
  obtain rfl := Option.some.inj hRule
  obtain ⟨-, hTaken⟩ := hArms ⟨[], [], [], 0⟩ .given 0
  refine ⟨accepted_plainSource, hConflict, rfl, (hTaken (some "A") rfl).1.2 ?_⟩
  exact fun k _ hLess => absurd hLess (Nat.not_lt_zero k)

/-- The warning about the second and the third alternative says that the second one is always
selected at any node, but the first one is taken. -/
theorem taken_ne_plainTriple :
    (analyse plainSource {}).accepted? = some (grammar plainTriple [false, false, false]) ∧
      conflict 1 2 ∈ (decision [false, false, false]).conflicts ∧
      (decision [false, false, false]).warning (rules plainTriple) (conflict 1 2) ∈
        (analyse plainSource {}).diagnostics ∧
      ∀ (context : BuildContext) (cursor : CursorVariable) (number : Nat) (oracle : Oracle)
        (frame : Frame Scope) (label : String) (walk : Walk),
        (conflict 1 2).overlap.accepts (some label) = true ∧
          Arm.taken oracle frame (some label) walk
            ((decision [false, false, false]).arms context cursor number plainTriple) =
              .finished (some 0) walk := by
  have hConflict : conflict 1 2 ∈ (decision [false, false, false]).conflicts := by decide
  refine ⟨accepted_plainSource, hConflict, ?_, fun context cursor number oracle frame label walk =>
    ⟨rfl, ?_⟩⟩
  · exact Grammar.warning_mem_diagnostics accepted_plainSource List.mem_cons_self hConflict rfl
  · rw [Arm.taken, Decision.map_condition_arms]
    rfl

end Rivals

end TreeGrammar
