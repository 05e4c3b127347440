import TreeGrammar.Program.Render
import TreeGrammar.Proofs.Lookahead.FirstInPlace
import TreeGrammar.Proofs.Lookahead.Overlap
import TreeGrammar.Proofs.Lookahead.Sites
import TreeGrammar.Proofs.Program.Completeness

/-!
# Dispatch at decisions

The arms of a choice are written as a chain of conditional statements. The condition of an arm tests
the next label against patterns and evaluates a guard if one of them fits; the first arm whose
condition holds is taken. The patterns fit what the lookahead set of the arm accepts. At a decision
without conflicts the patterns of one arm at most fit, so that the order of the arms does not
matter.

## Main definitions

* `LabelPattern`, `LookaheadSet.patterns`: the patterns of an emitted test
* `Condition`, `Arm.taken`: the condition of an arm, and the number of the arm that is taken
* `reorder`: a list in another order

## Main results

* `LookaheadSet.test_eq`, `LookaheadSet.fits_patterns`: emitted tests, and what they mean
* `Arm.listTokens_eq`, `Arm.select_eq`: the chain of statements, and what it does
* `Condition.dispatch_reorder`: the order of arms does not matter if one at most fits
* `Rules.decision_resolved`: conflicts, resolution and dispatch of a decision
-/

namespace TreeGrammar

open Host (Token)

/-! ### Emitted tests -/

/-- A pattern of the next label. -/
inductive LabelPattern where
  /-- Any label. -/
  | anyNode
  /-- One of some labels. -/
  | oneOf (labels : List String)
  /-- There is no node. -/
  | endOfList

namespace LabelPattern

/-- A pattern as it is written. -/
def tokens : LabelPattern → List Token
  | anyNode => callTokens (phrase "Some") [phrase "_"]
  | oneOf labels => callTokens (phrase "Some") [separated "|" (labels.map stringTokens)]
  | endOfList => phrase "None"

/-- A pattern fits the next label, or the end of the list if there is no node. -/
def fits (next : Option String) : LabelPattern → Bool
  | anyNode => next.isSome
  | oneOf labels => next.any (· ∈ labels)
  | endOfList => next.isNone

/-- The test whether one of some patterns fits the variable of the next label. -/
def testTokens (patterns : List LabelPattern) : List Token :=
  match patterns with
  | [] => phrase "false"
  | patterns =>
    callTokens (phrase ":: std :: matches !")
      [phrase "la", separated "|" (patterns.map tokens)]

end LabelPattern

namespace LookaheadSet

/-- The patterns of the test of a set. If any node is accepted, no label is named. -/
def patterns (set : LookaheadSet) : List LabelPattern :=
  (if set.any then [.anyNode]
    else if set.labels.toList.isEmpty then [] else [.oneOf set.labels.toList]) ++
    if set.atEnd then [.endOfList] else []

/-- The test of a set is written with its patterns. -/
theorem test_eq (set : LookaheadSet) : set.test = LabelPattern.testTokens set.patterns := by
  rw [test, patterns]
  cases set.any <;> cases set.labels.toList.isEmpty <;> cases set.atEnd <;> rfl

/-- One of the patterns of a set fits the labels that are accepted. -/
theorem fits_patterns (set : LookaheadSet) (next : Option String) :
    set.patterns.any (LabelPattern.fits next) = set.accepts next := by
  cases next with
  | none =>
    rw [patterns, accepts]
    cases set.any <;> cases set.labels.toList.isEmpty <;> cases set.atEnd <;> rfl
  | some label =>
    have hLabel : (label ∈ set.labels) ↔ label ∈ set.labels.toList := Iff.rfl
    rw [patterns, accepts, acceptsLabel]
    cases set.any with
    | true => rfl
    | false =>
      cases hEmpty : set.labels.toList.isEmpty with
      | true =>
        rw [List.isEmpty_iff] at hEmpty
        cases set.atEnd <;> simp [hLabel, hEmpty, LabelPattern.fits]
      | false => cases set.atEnd <;> simp [hLabel, LabelPattern.fits]

end LookaheadSet

/-! ### Conditions -/

/-- The condition of an arm: one of the patterns fits the next label, and the guard holds. -/
structure Condition where
  patterns : List LabelPattern
  guard : Option Code

namespace Condition

/-- A condition as it is written. -/
def tokens (condition : Condition) : List Token :=
  match condition.guard with
  | some code =>
    LabelPattern.testTokens condition.patterns ++ phrase "&&" ++ [.parens [code.condition]]
  | none => LabelPattern.testTokens condition.patterns

/-- One of the patterns fits the next label. -/
def fits (next : Option String) (condition : Condition) : Bool :=
  condition.patterns.any (LabelPattern.fits next)

/-- A condition is evaluated: its guard is looked at only if a pattern fits. -/
def evaluate (oracle : Oracle) (frame : Frame Scope) (next : Option String) (walk : Walk)
    (condition : Condition) : Outcome Bool :=
  if condition.fits next then
    match condition.guard with
    | none => .finished true walk
    | some code => code.test oracle frame walk
  else .finished false walk

/-- The number of the first condition that holds. -/
def dispatch (oracle : Oracle) (frame : Frame Scope) (next : Option String) (walk : Walk) :
    List Condition → Outcome (Option Nat)
  | [] => .finished none walk
  | condition :: conditions =>
    (condition.evaluate oracle frame next walk).andThen fun holds walk =>
      if holds then .finished (some 0) walk
      else (dispatch oracle frame next walk conditions).andThen fun taken walk =>
        .finished (taken.map (· + 1)) walk

/-- The condition with number `i` is evaluated, and taken if it holds. -/
def attempt (oracle : Oracle) (frame : Frame Scope) (next : Option String) (walk : Walk) (i : Nat)
    (condition : Condition) : Outcome (Option Nat) :=
  (condition.evaluate oracle frame next walk).andThen fun holds walk =>
    .finished (if holds then some i else none) walk

variable {oracle : Oracle} {frame : Frame Scope} {next : Option String} {walk : Walk}
  {condition : Condition} {conditions : List Condition} {i j : Nat}

theorem evaluate_of_not_fits (h : condition.fits next = false) :
    condition.evaluate oracle frame next walk = .finished false walk := by
  rw [evaluate, h]
  rfl

/-- Where no pattern fits, no condition holds. -/
theorem dispatch_of_not_fits (h : ∀ condition ∈ conditions, condition.fits next = false) :
    dispatch oracle frame next walk conditions = .finished none walk := by
  induction conditions with
  | nil => rfl
  | cons condition conditions ih =>
    obtain ⟨hHead, hTail⟩ := List.forall_mem_cons.1 h
    rw [dispatch, evaluate_of_not_fits hHead]
    simp only [Outcome.andThen, ih hTail, Bool.false_eq_true, if_false, Option.map_none]

/-- A condition is taken by another number if numbers are given otherwise. -/
theorem attempt_andThen {f : Nat → Option Nat} (hf : f i = some j) :
    ((condition.attempt oracle frame next walk i).andThen fun taken walk =>
      .finished (taken.bind f) walk) = condition.attempt oracle frame next walk j := by
  rw [attempt, attempt]
  cases condition.evaluate oracle frame next walk with
  | finished holds walk => cases holds <;> simp [Outcome.andThen, hf]
  | failed failure walk => rfl
  | unfinished => rfl

/-- Where the patterns of one condition fit, this is taken or none. -/
theorem dispatch_of_fits (hi : conditions[i]? = some condition)
    (hOthers : ∀ (j : Nat) other, conditions[j]? = some other → other.fits next = true → j = i) :
    dispatch oracle frame next walk conditions = condition.attempt oracle frame next walk i := by
  induction conditions generalizing i with
  | nil => cases hi
  | cons head conditions ih =>
    cases i with
    | zero =>
      obtain rfl : head = condition := Option.some.inj hi
      have hRest : ∀ other ∈ conditions, other.fits next = false := by
        intro other hOther
        obtain ⟨j, hj⟩ := List.mem_iff_getElem?.1 hOther
        exact Bool.eq_false_iff.2 fun h => absurd (hOthers (j + 1) other hj h) (Nat.succ_ne_zero j)
      rw [dispatch, attempt]
      cases head.evaluate oracle frame next walk with
      | finished holds walk => cases holds <;> simp [Outcome.andThen, dispatch_of_not_fits hRest]
      | failed failure walk => rfl
      | unfinished => rfl
    | succ i =>
      have hHead : head.fits next = false :=
        Bool.eq_false_iff.2 fun h => absurd (hOthers 0 head rfl h).symm (Nat.succ_ne_zero i)
      have hLater := ih hi fun j other hj h => Nat.succ.inj (hOthers (j + 1) other hj h)
      rw [dispatch, evaluate_of_not_fits hHead]
      show (dispatch oracle frame next walk conditions).andThen _ = _
      rw [hLater, ← attempt_andThen (f := fun i => some (i + 1)) rfl]
      congr
      funext taken walk
      cases taken <;> rfl

end Condition

namespace Arm

variable {oracle : Oracle} {frame : Frame Scope} {next : Option String} {walk : Walk}

/-- The condition of an arm. -/
def condition (arm : Arm) : Condition := ⟨arm.prediction.patterns, arm.guard⟩

/-- The number of the arm that a choice takes. -/
def taken (oracle : Oracle) (frame : Frame Scope) (next : Option String) (walk : Walk)
    (arms : List Arm) : Outcome (Option Nat) :=
  Condition.dispatch oracle frame next walk (arms.map condition)

/-- An arm as a conditional statement. -/
def statement (rule : String) (arm : Arm) : List Token :=
  phrase "if" ++ arm.condition.tokens ++ [.braces (Step.listTokens rule arm.steps)]

/-- Arms are written as conditional statements. -/
theorem listTokens_eq (rule : String) (arms : List Arm) :
    listTokens rule arms = arms.map (statement rule) := by
  induction arms with
  | nil => rfl
  | cons arm arms ih =>
    obtain ⟨prediction, guard, steps⟩ := arm
    unfold listTokens
    rw [List.map_cons, ih, LookaheadSet.test_eq]
    cases guard <;> rfl

/-- A choice takes the steps of the first arm whose condition holds. -/
theorem select_eq (arms : List Arm) : select oracle frame next walk arms =
    (taken oracle frame next walk arms).andThen fun taken walk =>
      .finished (taken.bind fun i => arms[i]?.map steps) walk := by
  induction arms generalizing walk with
  | nil => rfl
  | cons arm arms ih =>
    obtain ⟨prediction, guard, steps⟩ := arm
    have hFits : (condition (mk prediction guard steps)).fits next = prediction.accepts next :=
      prediction.fits_patterns next
    have hLater : ∀ walk, select oracle frame next walk arms =
        ((taken oracle frame next walk arms).andThen fun taken walk =>
          .finished (taken.map (· + 1)) walk).andThen fun taken walk =>
            .finished (taken.bind fun i => (mk prediction guard steps :: arms)[i]?.map Arm.steps)
              walk := by
      intro walk
      rw [ih]
      cases taken oracle frame next walk arms with
      | finished taken walk => cases taken <;> rfl
      | failed failure walk => rfl
      | unfinished => rfl
    unfold select
    rw [taken, List.map_cons, Condition.dispatch, Condition.evaluate, hFits]
    cases prediction.accepts next with
    | false => exact hLater walk
    | true =>
      cases guard with
      | none => rfl
      | some code =>
        show (code.test oracle frame walk).andThen _ =
          Outcome.andThen (Outcome.andThen (code.test oracle frame walk) _) _
        cases code.test oracle frame walk with
        | finished holds walk =>
          cases holds with
          | false => exact hLater walk
          | true => rfl
        | failed failure walk => rfl
        | unfinished => rfl

end Arm

/-! ### Other orders -/

/-- The members of a list in the order in which their numbers are given. -/
def reorder {α : Type} (order : List Nat) (xs : List α) : List α := order.filterMap (xs[·]?)

section Reorder

variable {α β γ : Type} {order : List Nat} {xs : List α} {ys : List β}

theorem reorder_cons {i : Nat} {x : α} (h : xs[i]? = some x) (order : List Nat) :
    reorder (i :: order) xs = x :: reorder order xs :=
  List.filterMap_cons_some h

/-- A member at a place of the other order stands where the number at this place says. -/
theorem reorder_getElem?_eq_some_iff (h : ∀ i ∈ order, i < xs.length) {k : Nat} {x : α} :
    (reorder order xs)[k]? = some x ↔ ∃ i, order[k]? = some i ∧ xs[i]? = some x := by
  rw [← Option.bind_eq_some_iff]
  induction order generalizing k with
  | nil => rfl
  | cons i order ih =>
    obtain ⟨hi, hOrder⟩ := List.forall_mem_cons.1 h
    have hx := List.getElem?_eq_getElem hi
    rw [reorder_cons hx]
    cases k with
    | zero => rw [List.getElem?_cons_zero, List.getElem?_cons_zero, Option.bind_some, hx]
    | succ k => exact ih hOrder

theorem reorder_zipWith (f : α → β → γ) (hx : ∀ i ∈ order, i < xs.length)
    (hy : ∀ i ∈ order, i < ys.length) :
    List.zipWith f (reorder order xs) (reorder order ys) =
      reorder order (List.zipWith f xs ys) := by
  induction order with
  | nil => rfl
  | cons i order ih =>
    obtain ⟨hxi, hxs⟩ := List.forall_mem_cons.1 hx
    obtain ⟨hyi, hys⟩ := List.forall_mem_cons.1 hy
    have hAtX := List.getElem?_eq_getElem hxi
    have hAtY := List.getElem?_eq_getElem hyi
    have hAt : (List.zipWith f xs ys)[i]? = some (f xs[i] ys[i]) := by
      rw [List.getElem?_zipWith, hAtX, hAtY]
    rw [reorder_cons hAtX, reorder_cons hAtY, reorder_cons hAt, List.zipWith_cons_cons,
      ih hxs hys]

end Reorder

/-- The order of conditions does not matter if the patterns of one at most fit: the same condition
is taken, and its guard is all that is evaluated. -/
theorem Condition.dispatch_reorder {conditions : List Condition} {order : List Nat}
    (hOrder : order.Perm (List.range conditions.length)) {next : Option String}
    (hUnique : ∀ (i j : Nat) (a b : Condition), conditions[i]? = some a → conditions[j]? = some b →
      a.fits next = true → b.fits next = true → i = j)
    (oracle : Oracle) (frame : Frame Scope) (walk : Walk) :
    ((dispatch oracle frame next walk (reorder order conditions)).andThen fun taken walk =>
      .finished (taken.bind (order[·]?)) walk) = dispatch oracle frame next walk conditions := by
  have hRange : ∀ i ∈ order, i < conditions.length :=
    fun i hi => List.mem_range.1 (hOrder.mem_iff.1 hi)
  by_cases hSome : ∃ (i : Nat) (condition : Condition),
    conditions[i]? = some condition ∧ condition.fits next = true
  · obtain ⟨i, condition, hi, hFits⟩ := hSome
    have hMem : i ∈ order :=
      hOrder.mem_iff.2 (List.mem_range.2 (List.getElem?_eq_some_iff.1 hi).1)
    obtain ⟨k, hk⟩ := List.mem_iff_getElem?.1 hMem
    have hAt : (reorder order conditions)[k]? = some condition :=
      (reorder_getElem?_eq_some_iff hRange).2 ⟨i, hk, hi⟩
    -- the condition stands at one place in the other order
    have hOnly : ∀ (j : Nat) other, (reorder order conditions)[j]? = some other →
        other.fits next = true → j = k := by
      intro j other hj hOther
      obtain ⟨i', hj', hOther'⟩ := (reorder_getElem?_eq_some_iff hRange).1 hj
      obtain rfl := hUnique i' i other condition hOther' hi hOther hFits
      obtain ⟨hLt, -⟩ := List.getElem?_eq_some_iff.1 hj'
      exact (List.getElem?_inj hLt (hOrder.nodup_iff.2 List.nodup_range)).1 (hj'.trans hk.symm)
    have hHere : ∀ (j : Nat) other, conditions[j]? = some other → other.fits next = true → j = i :=
      fun j other hj hOther => hUnique j i other condition hj hi hOther hFits
    rw [dispatch_of_fits hAt hOnly, dispatch_of_fits hi hHere]
    exact attempt_andThen hk
  · have hNone : ∀ condition ∈ conditions, condition.fits next = false := by
      intro condition hMem
      obtain ⟨i, hi⟩ := List.mem_iff_getElem?.1 hMem
      exact Bool.eq_false_iff.2 fun h => hSome ⟨i, condition, hi, h⟩
    have hNone' : ∀ condition ∈ reorder order conditions, condition.fits next = false := by
      intro condition hMem
      obtain ⟨i, -, hi⟩ := List.mem_filterMap.1 hMem
      exact hNone condition (List.mem_of_getElem? hi)
    rw [dispatch_of_not_fits hNone, dispatch_of_not_fits hNone']
    rfl

/-! ### Arms of alternatives -/

namespace Alternative

/-- The condition of an alternative with its prediction. -/
def condition (context : BuildContext) (prediction : LookaheadSet) (alternative : Alternative) :
    Condition :=
  ⟨prediction.patterns, alternative.guard.map context.code⟩

/-- The arms that are built from alternatives with their predictions. Variables get the numbers
after `last`. -/
def armsFrom (context : BuildContext) (cursor : CursorVariable) (last : Nat)
    (predictions : List LookaheadSet) (alternatives : List Alternative) : List Arm :=
  ((arms context cursor predictions alternatives).run last).1

theorem map_condition_armsFrom (context : BuildContext) (cursor : CursorVariable) (last : Nat)
    (predictions : List LookaheadSet) (alternatives : List Alternative) :
    (armsFrom context cursor last predictions alternatives).map Arm.condition =
      List.zipWith (condition context) predictions alternatives := by
  induction predictions generalizing alternatives last with
  | nil => unfold armsFrom arms; rfl
  | cons prediction predictions ih =>
    cases alternatives with
    | nil => unfold armsFrom arms; rfl
    | cons alternative alternatives =>
      obtain ⟨guard, elements, span⟩ := alternative
      rw [armsFrom, arms]
      exact congrArg (_ :: ·) (ih _ alternatives)

end Alternative

namespace Decision

variable {decision : Decision} {alternatives : List Alternative} {context : BuildContext}
  {next : Option String} {i j : Nat} {a b : Condition}

/-- The conditions of the alternatives of a decision, in order. -/
def conditions (context : BuildContext) (decision : Decision) (alternatives : List Alternative) :
    List Condition :=
  List.zipWith (Alternative.condition context) (decision.candidates.map Candidate.prediction)
    alternatives

/-- At a decision without conflicts the patterns of one arm at most fit. -/
theorem condition_unique (h : decision.resolution = .disjoint)
    (hi : (decision.conditions context alternatives)[i]? = some a)
    (hj : (decision.conditions context alternatives)[j]? = some b)
    (ha : a.fits next = true) (hb : b.fits next = true) : i = j := by
  obtain ⟨p, _, hp, -, rfl⟩ := List.getElem?_zipWith_eq_some.1 hi
  obtain ⟨q, _, hq, -, rfl⟩ := List.getElem?_zipWith_eq_some.1 hj
  rw [List.getElem?_map, Option.map_eq_some_iff] at hp hq
  obtain ⟨x, hx, rfl⟩ := hp
  obtain ⟨y, hy, rfl⟩ := hq
  exact candidate_unique h hx hy ((x.prediction.fits_patterns next).symm.trans ha)
    ((y.prediction.fits_patterns next).symm.trans hb)

/-- At a decision without conflicts the same alternative is taken if the alternatives are written in
another order. -/
theorem taken_reorder (h : decision.resolution = .disjoint)
    (hLength : decision.candidates.length = alternatives.length) {order : List Nat}
    (hOrder : order.Perm (List.range alternatives.length)) (cursor : CursorVariable)
    (last last' : Nat) (oracle : Oracle) (frame : Frame Scope) (walk : Walk) :
    ((Arm.taken oracle frame next walk (Alternative.armsFrom context cursor last'
        (reorder order (decision.candidates.map Candidate.prediction))
        (reorder order alternatives))).andThen
      fun taken walk => .finished (taken.bind (order[·]?)) walk) =
      Arm.taken oracle frame next walk (Alternative.armsFrom context cursor last
        (decision.candidates.map Candidate.prediction) alternatives) := by
  have hPredictions : (decision.candidates.map Candidate.prediction).length =
      alternatives.length := by rw [List.length_map, hLength]
  have hRange : ∀ i ∈ order, i < alternatives.length :=
    fun i hi => List.mem_range.1 (hOrder.mem_iff.1 hi)
  have hConditions : (decision.conditions context alternatives).length = alternatives.length := by
    rw [conditions, List.length_zipWith, hPredictions, Nat.min_self]
  rw [Arm.taken, Arm.taken, Alternative.map_condition_armsFrom, Alternative.map_condition_armsFrom,
    reorder_zipWith _ (hPredictions ▸ hRange) hRange]
  exact Condition.dispatch_reorder (hConditions ▸ hOrder)
    (fun _ _ _ _ => condition_unique h) oracle frame walk

end Decision

/-- A decision has one conflict for each two branches with a common symbol, and its resolution tells
which branches have one. Its choice takes the first alternative whose condition holds; if the
decision has no conflict, then this does not depend on the order of the alternatives. -/
theorem Rules.decision_resolved {rules : Rules} {first : String → FirstSet}
    {follows : List LookaheadSet} {decision : Decision}
    (hDecision : decision ∈ rules.decisions first follows) :
    ∃ alternatives follow, rules.Offers decision.site alternatives ∧
      decision.candidates = Alternative.candidates first follow alternatives ∧
      (∀ (p q : Nat) (a b : DecisionBranch), p < q → decision.branches[p]? = some a →
        decision.branches[q]? = some b →
        (a.Shares b → ∃ conflict, decision.conflictsOf a.branch b.branch = [conflict] ∧
          ∀ next, conflict.overlap.accepts next = true ↔
            a.prediction.accepts next = true ∧ b.prediction.accepts next = true) ∧
        (¬ a.Shares b → decision.conflictsOf a.branch b.branch = [])) ∧
      (∀ conflict ∈ decision.conflicts, ∃ (p q : Nat) (a b : DecisionBranch), p < q ∧
        decision.branches[p]? = some a ∧ decision.branches[q]? = some b ∧
        conflict.first = a.branch ∧ conflict.second = b.branch) ∧
      (decision.resolution = .disjoint ↔ decision.branches.Pairwise fun a b => ¬ a.Shares b) ∧
      (decision.resolution = .predicateGated ↔
        (¬ decision.branches.Pairwise fun a b => ¬ a.Shares b) ∧
          decision.branches.Pairwise fun a b =>
            a.Shares b → a.guarded = true ∨ b.guarded = true) ∧
      (decision.resolution = .declarationOrder ↔ ¬ decision.branches.Pairwise fun a b =>
        a.Shares b → a.guarded = true ∨ b.guarded = true) ∧
      ∀ (context : BuildContext) (cursor : CursorVariable) (last : Nat),
        let predictions := decision.candidates.map Candidate.prediction
        let arms := Alternative.armsFrom context cursor last predictions alternatives
        (∀ name, Arm.listTokens name arms = arms.map (Arm.statement name)) ∧
        ∀ (oracle : Oracle) (frame : Frame Scope) (next : Option String) (walk : Walk),
          let taken := Arm.taken oracle frame next walk arms
          Arm.select oracle frame next walk arms = (taken.andThen fun taken walk =>
            .finished (taken.bind fun i => arms[i]?.map Arm.steps) walk) ∧
          (decision.resolution = .disjoint → ∀ (order : List Nat) (last' : Nat),
            order.Perm (List.range alternatives.length) →
            ((Arm.taken oracle frame next walk (Alternative.armsFrom context cursor last'
                (reorder order predictions) (reorder order alternatives))).andThen
              fun taken walk => .finished (taken.bind (order[·]?)) walk) = taken) := by
  obtain ⟨alternatives, follow, hOffers, hCandidates⟩ := exists_candidates hDecision
  have hLength : decision.candidates.length = alternatives.length := by
    rw [hCandidates, Alternative.candidates, List.length_map]
  refine ⟨alternatives, follow, hOffers, hCandidates, fun p q a b hLt ha hb => ⟨?shared, ?none⟩,
    ?between, Decision.resolution_eq_disjoint_iff, Decision.resolution_eq_predicateGated_iff,
    Decision.resolution_eq_declarationOrder_iff, fun context cursor last => ⟨?statements, ?_⟩⟩
  case shared =>
    intro hShares
    exact ⟨a.conflict b, Decision.conflictsOf_eq hLt ha hb hShares,
      fun _ => LookaheadSet.accepts_overlap_iff⟩
  case none => exact Decision.conflictsOf_eq_nil ha hb
  case between =>
    intro conflict hConflict
    obtain ⟨p, q, a, b, hLt, ha, hb, -, rfl⟩ := Decision.mem_conflicts_iff.1 hConflict
    exact ⟨p, q, a, b, hLt, ha, hb, rfl, rfl⟩
  case statements => exact fun name => Arm.listTokens_eq name _
  exact fun oracle frame next walk => ⟨Arm.select_eq _, fun hDisjoint order last' hOrder =>
    Decision.taken_reorder hDisjoint hLength hOrder cursor last last' oracle frame walk⟩

namespace Rules.Sample

/-- The alternatives `A | B`. -/
def letters : List Alternative :=
  [.mk none [.token 0 Span.start none ⟨"A", Span.start⟩] Span.start,
    .mk none [.token 1 Span.start none ⟨"B", Span.start⟩] Span.start]

/-- The rule `word : (A | B)* ;`. -/
def word : Rule := ruleOf "word" [[.subrule 2 Span.start .star letters]]

/-- The decision at the repetition. -/
def wordDecision : Decision where
  id := 0
  site := .subrule 2
  kind := .star
  rule := 0
  span := Span.start
  candidates := ["A", "B"].map fun label =>
    { prediction := .ofLabel label, guarded := false, nullable := false }
  exit := some .endOfList

theorem mem_decisions_word :
    wordDecision ∈ Rules.decisions [word] (Rules.first [word]) (Rules.follows [word]) := by
  decide +kernel

theorem eq_letters_of_offers {alternatives : List Alternative}
    (h : Rules.Offers [word] (.subrule 2) alternatives) : alternatives = letters := by
  obtain ⟨span, repetition, hMem⟩ := h
  have hExprs : Rules.exprs [word] = [.token 0 Span.start none ⟨"A", Span.start⟩,
    .token 1 Span.start none ⟨"B", Span.start⟩, .subrule 2 Span.start .star letters] := rfl
  rw [hExprs] at hMem
  simp only [List.mem_cons, List.not_mem_nil, or_false, reduceCtorEq, false_or,
    Expr.subrule.injEq] at hMem
  exact hMem.2.2.2

/-- If the alternatives are written as `B | A`, then `B` is still taken, now as the first one. -/
theorem decision_resolved_word :
    wordDecision ∈ Rules.decisions [word] (Rules.first [word]) (Rules.follows [word]) ∧
      wordDecision.resolution = .disjoint ∧ List.Perm [1, 0] (List.range 2) ∧
      ((Arm.taken (fun _ _ => true) (.root (rootScope 1)) (some "B") {}
        (Alternative.armsFrom ⟨[], [], [wordDecision], 0⟩ .given 0
          [.ofLabel "B", .ofLabel "A"] letters.reverse)).andThen
        fun taken walk => .finished (taken.bind ([1, 0][·]?)) walk) = .finished (some 1) {} := by
  obtain ⟨alternatives, follow, hOffers, -, -, -, -, -, -, hDispatch⟩ :=
    decision_resolved mem_decisions_word
  obtain rfl := eq_letters_of_offers hOffers
  have hDisjoint : wordDecision.resolution = .disjoint := by decide +kernel
  have hOrder : List.Perm [1, 0] (List.range 2) := .swap ..
  obtain ⟨-, hArms⟩ := hDispatch ⟨[], [], [wordDecision], 0⟩ .given 0
  obtain ⟨-, hTaken⟩ := hArms (fun _ _ => true) (.root (rootScope 1)) (some "B") {}
  refine ⟨mem_decisions_word, hDisjoint, hOrder, (hTaken hDisjoint [1, 0] 0 hOrder).trans ?_⟩
  with_unfolding_all rfl

end Rules.Sample

end TreeGrammar
