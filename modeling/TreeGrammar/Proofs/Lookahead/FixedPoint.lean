import Mathlib.Algebra.Order.BigOperators.Group.List
import Mathlib.Algebra.Order.Ring.Nat
import TreeGrammar.Fixpoint
import TreeGrammar.Grammar.CallGraph
import TreeGrammar.Proofs.Lookahead.Order

/-!
# The sets of rules agree with each other

What rules may start with and what may follow them is computed by a bounded iteration. A step of the
iteration never makes a set smaller, and no set can list more symbols than the grammar mentions, so
that the bound is never met before nothing changes any more.

## Main definitions

* `Rules.first`, `Rules.follows`: the sets that the analysis of a grammar uses
* `Rules.mentioned`: the labels that a grammar mentions

## Main results

* `Rules.firstSets_fixed`, `Rules.followSets_fixed`: the computed sets do not change any more
* `Rules.first_eq`: a rule starts with what its alternatives start with
* `Rules.follow_le_of_call`, `Rules.endOfList_le_of_entry`: what follows a rule
-/

namespace TreeGrammar

/-! ### Iterations over lists of growing sets -/

section Growth

variable {α : Type} [PartialOrder α] {size : α → Nat} {xs ys : List α}

theorem sum_size_le (hSize : StrictMono size) (h : List.Forall₂ (· ≤ ·) xs ys) :
    (xs.map size).sum ≤ (ys.map size).sum := by
  induction h with
  | nil => exact le_refl _
  | cons hxy _ ih =>
    simp only [List.map_cons, List.sum_cons]
    exact Nat.add_le_add (hSize.monotone hxy) ih

theorem sum_size_lt (hSize : StrictMono size) (h : List.Forall₂ (· ≤ ·) xs ys) (hne : xs ≠ ys) :
    (xs.map size).sum < (ys.map size).sum := by
  induction h with
  | nil => exact absurd rfl hne
  | @cons x y xs ys hxy hRest ih =>
    simp only [List.map_cons, List.sum_cons]
    by_cases hHead : x = y
    · have hTail : xs ≠ ys := fun hTail => hne (by rw [hHead, hTail])
      exact Nat.add_lt_add_of_le_of_lt (hSize.monotone hxy) (ih hTail)
    · exact Nat.add_lt_add_of_lt_of_le (hSize (lt_of_le_of_ne hxy hHead)) (sum_size_le hSize hRest)

omit [PartialOrder α] in
theorem sum_size_le_mul {p : α → Prop} {limit : Nat} (hLimit : ∀ x, p x → size x ≤ limit)
    (h : ∀ x ∈ xs, p x) : (xs.map size).sum ≤ xs.length * limit := by
  have hAll : ∀ n ∈ xs.map size, n ≤ limit := by
    intro n hn
    obtain ⟨x, hx, rfl⟩ := List.mem_map.1 hn
    exact hLimit x (h x hx)
  simpa using List.sum_le_card_nsmul _ limit hAll

/-- The iteration of a growing step over lists of sets of bounded size ends with a fixed point. -/
theorem iterate_growing_fixed [DecidableEq α] (n limit : Nat) (hSize : StrictMono size)
    {p : α → Prop} {step : List α → List α} {start : List α}
    (hMono : ∀ xs ys, List.Forall₂ (· ≤ ·) xs ys → List.Forall₂ (· ≤ ·) (step xs) (step ys))
    (hLength : ∀ xs, (step xs).length = n) (hKeep : ∀ xs, (∀ x ∈ xs, p x) → ∀ x ∈ step xs, p x)
    (hLimit : ∀ x, p x → size x ≤ limit) (hStart : List.Forall₂ (· ≤ ·) start (step start))
    (hp : ∀ x ∈ start, p x) {bound : Nat} (hBound : n * limit < bound) :
    step (iterate step bound start) = iterate step bound start := by
  have hn : start.length = n := hStart.length_eq.trans (hLength start)
  refine iterate_fixed
    (p := fun xs => List.Forall₂ (· ≤ ·) xs (step xs) ∧ (∀ x ∈ xs, p x) ∧ xs.length = n)
    (fun xs => (xs.map size).sum) ?_ ?_ ?_ ⟨hStart, hp, hn⟩ (Nat.lt_add_left _ hBound)
  · rintro xs ⟨hGrow, hxs, -⟩
    exact ⟨hMono _ _ hGrow, hKeep xs hxs, hLength xs⟩
  · rintro xs ⟨hGrow, -, -⟩ hne
    exact sum_size_lt hSize hGrow (Ne.symm hne)
  · rintro xs ⟨-, hxs, hLen⟩
    exact hLen ▸ sum_size_le_mul hLimit hxs

end Growth

/-! ### What rules may start with -/

/-- The label of the nodes that an element matches, if it gives one. -/
def Expr.mentioned? : Expr → Option String
  | .node _ _ _ name _ | .token _ _ _ name => some name.name
  | _ => none

/-- The labels that a grammar mentions. -/
def Rules.mentioned (rules : Rules) : List String := rules.exprs.filterMap Expr.mentioned?

theorem LabelSet.mem_singleton {label name : String} :
    label ∈ LabelSet.singleton name ↔ label = name := by
  rw [singleton, mem_insert]
  exact or_iff_left List.not_mem_nil

theorem within_ofLabel {labels : List String} {name : String} (h : name ∈ labels) :
    (LookaheadSet.ofLabel name).Within labels :=
  fun _ hLabel => LabelSet.mem_singleton.1 hLabel ▸ h

/-- Elements start with labels that they or the rules mention. -/
theorem first_within {rule : String → FirstSet} {labels : List String}
    (hRule : ∀ name, (rule name).set.Within labels) :
    (∀ expr : Expr, expr.postorder.filterMap Expr.mentioned? ⊆ labels →
      (expr.first rule).set.Within labels) ∧
    (∀ exprs, (Expr.postorderList exprs).filterMap Expr.mentioned? ⊆ labels →
      (Alternative.sequenceFirst rule exprs).set.Within labels) ∧
    ∀ alternatives, (Expr.postorderAlternatives alternatives).filterMap Expr.mentioned? ⊆ labels →
      (Alternative.alternativesFirst rule alternatives).set.Within labels := by
  refine Expr.induction ?node ?token ?wildcard ?rule ?subrule ?action ?predicate ?nil ?cons
    ?none ?alternative
  case node =>
    intro id span label name children _ h
    simp only [Expr.postorder, List.filterMap_append, List.append_subset] at h
    exact within_ofLabel (h.2 (List.mem_singleton.2 rfl))
  case token =>
    intro id span label name h
    exact within_ofLabel (h (List.mem_singleton.2 rfl))
  case rule => exact fun _ _ _ name _ _ => hRule name.name
  case subrule =>
    intro id span repetition alternatives ih h
    simp only [Expr.postorder, List.filterMap_append, List.append_subset] at h
    rw [Expr.first]
    cases repetition.maySkip <;> exact ih h.1
  case cons =>
    intro expr exprs ihExpr ihExprs h
    simp only [Expr.postorderList, List.filterMap_append, List.append_subset] at h
    rw [Alternative.sequenceFirst, FirstSet.andThen]
    split
    · exact (ihExpr h.1).union (ihExprs h.2)
    · exact ihExpr h.1
  case alternative =>
    intro guard elements span alternatives ihElements ih h
    simp only [Expr.postorderAlternatives, List.filterMap_append, List.append_subset] at h
    exact (ihElements h.1).union (ih h.2)
  all_goals
    intros
    exact List.nil_subset _

namespace Rules

variable {rules : Rules}

theorem mentioned_subset {rule : Rule} (h : rule ∈ rules) :
    rule.exprs.filterMap Expr.mentioned? ⊆ rules.mentioned := by
  intro label hLabel
  obtain ⟨expr, hExpr, hMention⟩ := List.mem_filterMap.1 hLabel
  exact List.mem_filterMap.2 ⟨expr, List.mem_flatMap.2 ⟨rule, h, hExpr⟩, hMention⟩

theorem length_mentioned_le (rules : Rules) : rules.mentioned.length ≤ rules.exprs.length :=
  List.length_filterMap_le ..

theorem firstOf_mono {xs ys : List FirstSet} (h : List.Forall₂ (· ≤ ·) xs ys) (name : String) :
    rules.firstOf xs name ≤ rules.firstOf ys name := by
  rw [firstOf, firstOf]
  cases rules.index? name with
  | none => exact le_refl _
  | some i =>
    rw [Option.bind_some, Option.bind_some]
    induction h generalizing i with
    | nil => exact le_refl _
    | cons hxy _ ih =>
      cases i with
      | zero => exact hxy
      | succ i => exact ih i

theorem firstOf_within {sets : List FirstSet} {labels : List String}
    (h : ∀ first ∈ sets, first.set.Within labels) (name : String) :
    (rules.firstOf sets name).set.Within labels := by
  rw [firstOf]
  cases hSet : (rules.index? name).bind (sets[·]?) with
  | none => exact LookaheadSet.within_empty _
  | some first =>
    obtain ⟨i, -, hFirst⟩ := Option.bind_eq_some_iff.1 hSet
    exact h first (List.mem_of_getElem? hFirst)

theorem firstStep_within {sets : List FirstSet}
    (h : ∀ first ∈ sets, first.set.Within rules.mentioned) :
    ∀ first ∈ rules.firstStep sets, first.set.Within rules.mentioned := by
  intro first hFirst
  obtain ⟨rule, hRule, rfl⟩ := List.mem_map.1 hFirst
  exact (first_within (firstOf_within h)).2.2 rule.alternatives (mentioned_subset hRule)

theorem start_within : ∀ first ∈ rules.map fun _ => ({} : FirstSet),
    first.set.Within rules.mentioned := by
  intro first h
  obtain ⟨rule, -, rfl⟩ := List.mem_map.1 h
  exact LookaheadSet.within_empty _

theorem firstSets_within (rules : Rules) :
    ∀ first ∈ rules.firstSets, first.set.Within rules.mentioned :=
  iterate_induction (p := fun sets : List FirstSet => ∀ first ∈ sets,
    first.set.Within rules.mentioned) (fun _ => firstStep_within) _ start_within

/-- The next sets of what rules may start with grow with the sets. -/
theorem firstStep_mono {xs ys : List FirstSet} (h : List.Forall₂ (· ≤ ·) xs ys) :
    List.Forall₂ (· ≤ ·) (rules.firstStep xs) (rules.firstStep ys) := by
  refine List.forall₂_map_left_iff.2 (List.forall₂_map_right_iff.2 (List.forall₂_same.2 ?_))
  exact fun rule _ => (first_mono (firstOf_mono h)).2.2 rule.alternatives

theorem start_le_firstStep (sets : List FirstSet) :
    List.Forall₂ (· ≤ ·) (rules.map fun _ => ({} : FirstSet)) (rules.firstStep sets) := by
  refine List.forall₂_map_left_iff.2 (List.forall₂_map_right_iff.2 (List.forall₂_same.2 ?_))
  exact fun rule _ => FirstSet.bot_le _

/-- The computed sets of what rules may start with do not change any more. -/
theorem firstSets_fixed (rules : Rules) : rules.firstStep rules.firstSets = rules.firstSets := by
  refine iterate_growing_fixed rules.length (rules.exprs.length + 3)
    (p := fun first => first.set.Within rules.mentioned) FirstSet.size_strictMono
    (fun _ _ => firstStep_mono) ?length (fun _ => firstStep_within) ?limit (start_le_firstStep _)
    start_within ?bound
  case length => exact fun xs => List.length_map _
  case limit =>
    intro first h
    have hSize := LookaheadSet.Within.size_le h
    have hNullable := first.nullable.toNat_le
    have hMentioned := rules.length_mentioned_le
    rw [FirstSet.size]
    omega
  case bound => exact Nat.lt_succ_self _

/-- What each rule may start with, by its name. -/
def first (rules : Rules) : String → FirstSet := rules.firstOf rules.firstSets

theorem firstSets_getElem? {i : Nat} {rule : Rule} (hRule : rules[i]? = some rule) :
    rules.firstSets[i]? = some (Alternative.alternativesFirst rules.first rule.alternatives) := by
  rw [← rules.firstSets_fixed, firstStep, List.getElem?_map, hRule]
  rfl

/-- A rule starts with what its alternatives start with. -/
theorem first_eq {name : String} {i : Nat} {rule : Rule} (hIndex : rules.index? name = some i)
    (hRule : rules[i]? = some rule) :
    rules.first name = Alternative.alternativesFirst rules.first rule.alternatives := by
  rw [first, firstOf, hIndex, Option.bind_some, firstSets_getElem? hRule, Option.getD_some]
  rfl

end Rules

/-! ### What may follow rules -/

/-- What follows the call of the rule with the given number, if an element is such a call. -/
def Occurrence.followOfCall (rules : Rules) (index : Nat) (occurrence : Occurrence) :
    LookaheadSet :=
  match occurrence.expr with
  | .rule _ _ _ called _ =>
    if rules.index? called.name = some index then occurrence.follow else ∅
  | _ => ∅

section Union

variable {ι : Type} {f : ι → LookaheadSet} {xs : List ι} {start bound : LookaheadSet}

theorem LookaheadSet.union_empty (a : LookaheadSet) : a.union ∅ = a :=
  (LookaheadSet.union_le (le_refl a) (LookaheadSet.empty_le a)).antisymm
    (LookaheadSet.le_union_left ..)

theorem start_le_foldl_union : start ≤ xs.foldl (fun set x => set.union (f x)) start := by
  induction xs generalizing start with
  | nil => exact le_refl _
  | cons x xs ih => exact (LookaheadSet.le_union_left ..).trans ih

theorem le_foldl_union {x : ι} (h : x ∈ xs) :
    f x ≤ xs.foldl (fun set x => set.union (f x)) start := by
  induction xs generalizing start with
  | nil => exact absurd h List.not_mem_nil
  | cons y ys ih =>
    rcases List.mem_cons.1 h with rfl | h
    · exact (LookaheadSet.le_union_right ..).trans start_le_foldl_union
    · exact ih h

theorem foldl_union_le (hStart : start ≤ bound) (h : ∀ x ∈ xs, f x ≤ bound) :
    xs.foldl (fun set x => set.union (f x)) start ≤ bound := by
  induction xs generalizing start with
  | nil => exact hStart
  | cons x xs ih =>
    obtain ⟨hHead, hTail⟩ := List.forall_mem_cons.1 h
    exact ih (LookaheadSet.union_le hStart hHead) hTail

theorem within_foldl_union {labels : List String} (hStart : start.Within labels)
    (h : ∀ x ∈ xs, (f x).Within labels) :
    (xs.foldl (fun set x => set.union (f x)) start).Within labels := by
  induction xs generalizing start with
  | nil => exact hStart
  | cons x xs ih =>
    obtain ⟨hHead, hTail⟩ := List.forall_mem_cons.1 h
    exact ih (hStart.union hHead) hTail

end Union

theorem followOfCalls_eq (rules : Rules) (index : Nat) (occurrences : List Occurrence) :
    rules.followOfCalls index occurrences =
      occurrences.foldl (fun set occurrence => set.union (occurrence.followOfCall rules index))
        ∅ := by
  rw [Rules.followOfCalls]
  congr
  funext set ⟨expr, follow⟩
  cases expr
  case rule id span label called args =>
    by_cases h : rules.index? called.name = some index
    · simp only [Occurrence.followOfCall, if_pos h]
    · simp only [Occurrence.followOfCall, if_neg h, LookaheadSet.union_empty]
  all_goals exact (LookaheadSet.union_empty set).symm

/-- One occurrence is the same element as another one and followed by no more. -/
def Occurrence.Below (a b : Occurrence) : Prop := a.expr = b.expr ∧ a.follow ≤ b.follow

theorem Occurrence.Below.followOfCall_le {a b : Occurrence} (h : a.Below b) (rules : Rules)
    (index : Nat) : a.followOfCall rules index ≤ b.followOfCall rules index := by
  rw [Occurrence.followOfCall, Occurrence.followOfCall, ← h.1]
  split
  · split
    · exact h.2
    · exact le_refl _
  · exact le_refl _

section Occurrences

variable {first : String → FirstSet} {f g : LookaheadSet} {labels : List String}

/-- What follows the elements inside grows with what follows the whole. -/
theorem occurrences_mono :
    (∀ expr : Expr, ∀ f g, f ≤ g →
      List.Forall₂ Occurrence.Below (expr.occurrences first f) (expr.occurrences first g)) ∧
    (∀ exprs, ∀ f g, f ≤ g → List.Forall₂ Occurrence.Below
      (Alternative.sequenceOccurrences first f exprs)
      (Alternative.sequenceOccurrences first g exprs)) ∧
    ∀ alternatives, ∀ f g, f ≤ g → List.Forall₂ Occurrence.Below
      (Alternative.alternativesOccurrences first f alternatives)
      (Alternative.alternativesOccurrences first g alternatives) := by
  refine Expr.induction ?node ?token ?wildcard ?rule ?subrule ?action ?predicate ?nil ?cons
    ?none ?alternative
  case node =>
    intro id span label name children ih f g h
    exact .cons ⟨rfl, h⟩ (ih _ _ (le_refl _))
  case subrule =>
    intro id span repetition alternatives ih f g h
    refine .cons ⟨rfl, h⟩ (ih _ _ ?_)
    split
    · exact LookaheadSet.union_mono h (le_refl _)
    · exact h
  case cons =>
    intro expr exprs ihExpr ihExprs f g h
    have hRest := FirstSet.predict_mono (le_refl (Alternative.sequenceFirst first exprs)) h
    exact List.rel_append (ihExpr _ _ hRest) (ihExprs _ _ h)
  case alternative =>
    intro guard elements span alternatives ihElements ih f g h
    exact List.rel_append (ihElements _ _ h) (ih _ _ h)
  case nil => exact fun _ _ _ => .nil
  case none => exact fun _ _ _ => .nil
  all_goals
    intros
    exact .cons ⟨rfl, by assumption⟩ .nil

theorem LookaheadSet.Within.predict {a : FirstSet} (ha : a.set.Within labels)
    (hf : f.Within labels) : (a.predict f).Within labels := by
  rw [FirstSet.predict]
  split
  · exact ha.union hf
  · exact ha

/-- What follows the elements inside are labels that are mentioned. -/
theorem occurrences_within (hFirst : ∀ name, (first name).set.Within labels) :
    (∀ expr : Expr, expr.postorder.filterMap Expr.mentioned? ⊆ labels → ∀ f, f.Within labels →
      ∀ o ∈ expr.occurrences first f, o.follow.Within labels) ∧
    (∀ exprs, (Expr.postorderList exprs).filterMap Expr.mentioned? ⊆ labels → ∀ f, f.Within labels →
      ∀ o ∈ Alternative.sequenceOccurrences first f exprs, o.follow.Within labels) ∧
    ∀ alternatives, (Expr.postorderAlternatives alternatives).filterMap Expr.mentioned? ⊆ labels →
      ∀ f, f.Within labels →
      ∀ o ∈ Alternative.alternativesOccurrences first f alternatives, o.follow.Within labels := by
  refine Expr.induction ?node ?token ?wildcard ?rule ?subrule ?action ?predicate ?nil ?cons
    ?none ?alternative
  case node =>
    intro id span label name children ih h f hf
    simp only [Expr.postorder, List.filterMap_append, List.append_subset] at h
    exact List.forall_mem_cons.2 ⟨hf, ih h.1 _ (List.nil_subset _)⟩
  case subrule =>
    intro id span repetition alternatives ih h f hf
    simp only [Expr.postorder, List.filterMap_append, List.append_subset] at h
    refine List.forall_mem_cons.2 ⟨hf, ih h.1 _ ?_⟩
    split
    · exact hf.union ((first_within hFirst).2.2 alternatives h.1)
    · exact hf
  case cons =>
    intro expr exprs ihExpr ihExprs h f hf
    simp only [Expr.postorderList, List.filterMap_append, List.append_subset] at h
    have hRest := LookaheadSet.Within.predict ((first_within hFirst).2.1 exprs h.2) hf
    exact List.forall_mem_append.2 ⟨ihExpr h.1 _ hRest, ihExprs h.2 _ hf⟩
  case alternative =>
    intro guard elements span alternatives ihElements ih h f hf
    simp only [Expr.postorderAlternatives, List.filterMap_append, List.append_subset] at h
    exact List.forall_mem_append.2 ⟨ihElements h.1 _ hf, ih h.2 _ hf⟩
  case nil => exact fun _ _ _ _ h => absurd h List.not_mem_nil
  case none => exact fun _ _ _ _ h => absurd h List.not_mem_nil
  all_goals
    intros
    rename_i hf o ho
    rw [List.mem_singleton.1 ho]
    exact hf

end Occurrences

namespace Rules

variable {rules : Rules} {first : String → FirstSet}

theorem occurrences_below {xs ys : List LookaheadSet} (h : List.Forall₂ (· ≤ ·) xs ys) :
    List.Forall₂ Occurrence.Below (rules.occurrences first xs) (rules.occurrences first ys) := by
  rw [occurrences, occurrences]
  induction h generalizing rules with
  | nil => simp only [List.zip_nil_right, List.flatMap_nil, List.Forall₂.nil]
  | cons hxy _ ih =>
    cases rules with
    | nil => exact .nil
    | cons rule rules =>
      simp only [List.zip_cons_cons, List.flatMap_cons]
      exact List.rel_append ((occurrences_mono).2.2 rule.alternatives _ _ hxy) ih

theorem followOfCalls_mono {a b : List Occurrence} (h : List.Forall₂ Occurrence.Below a b)
    (index : Nat) : rules.followOfCalls index a ≤ rules.followOfCalls index b := by
  rw [followOfCalls_eq, followOfCalls_eq]
  refine foldl_union_le (LookaheadSet.empty_le _) fun o ho => ?_
  obtain ⟨o', ho', hBelow⟩ : ∃ o' ∈ b, o.Below o' := by
    induction h with
    | nil => exact absurd ho List.not_mem_nil
    | cons hHead _ ih =>
      rcases List.mem_cons.1 ho with rfl | ho
      · exact ⟨_, List.mem_cons_self, hHead⟩
      · obtain ⟨o', ho', hBelow⟩ := ih ho
        exact ⟨o', List.mem_cons_of_mem _ ho', hBelow⟩
  exact (hBelow.followOfCall_le rules index).trans (le_foldl_union ho')

/-- The next sets of what follows rules grow with the sets. -/
theorem followStep_mono {xs ys : List LookaheadSet} (h : List.Forall₂ (· ≤ ·) xs ys) :
    List.Forall₂ (· ≤ ·) (rules.followStep first xs) (rules.followStep first ys) := by
  refine List.forall₂_iff_get.2 ⟨?_, fun i hi hi' => ?_⟩
  · simp only [followStep, List.length_mapIdx]
  · simp only [followStep, List.get_eq_getElem, List.getElem_mapIdx]
    exact LookaheadSet.union_mono (le_refl _) (followOfCalls_mono (occurrences_below h) _)

/-- The next sets of what follows rules have only labels that the rules mention. -/
theorem followStep_within (hFirst : ∀ name, (first name).set.Within rules.mentioned)
    {sets : List LookaheadSet} (h : ∀ follow ∈ sets, follow.Within rules.mentioned) :
    ∀ follow ∈ rules.followStep first sets, follow.Within rules.mentioned := by
  intro follow hFollow
  obtain ⟨i, hi, rfl⟩ := List.mem_mapIdx.1 hFollow
  refine LookaheadSet.Within.union ?entry ?calls
  case entry =>
    split
    · exact List.nil_subset _
    · exact LookaheadSet.within_empty _
  case calls =>
    rw [followOfCalls_eq]
    refine within_foldl_union (LookaheadSet.within_empty _) fun o ho => ?_
    obtain ⟨⟨rule, f⟩, hZip, hOccurrence⟩ := List.mem_flatMap.1 ho
    have hf := h f (List.of_mem_zip hZip).2
    have hWithin := (occurrences_within hFirst).2.2 rule.alternatives
      (mentioned_subset (List.of_mem_zip hZip).1) f hf o hOccurrence
    -- an element that calls another rule adds nothing
    rw [Occurrence.followOfCall]
    split
    · split
      · exact hWithin
      · exact LookaheadSet.within_empty _
    · exact LookaheadSet.within_empty _

/-- The computed sets of what follows rules do not change any more. -/
theorem followSets_fixed (rules : Rules)
    (hFirst : ∀ name, (first name).set.Within rules.mentioned) :
    rules.followStep first (rules.followSets first) = rules.followSets first := by
  refine iterate_growing_fixed rules.length (rules.exprs.length + 3)
    (p := LookaheadSet.Within rules.mentioned) LookaheadSet.size_strictMono
    (fun _ _ => followStep_mono) ?length (fun _ => followStep_within hFirst) ?limit ?start ?within
    ?bound
  case length => exact fun xs => List.length_mapIdx
  case limit =>
    intro follow h
    have hSize := LookaheadSet.Within.size_le h
    have hMentioned := rules.length_mentioned_le
    omega
  case start =>
    refine List.forall₂_iff_get.2 ⟨?_, fun i hi hi' => ?_⟩
    · simp only [followStep, List.length_mapIdx, List.length_map]
    simp only [List.get_eq_getElem, List.getElem_map]
    exact LookaheadSet.empty_le _
  case within =>
    intro follow h
    obtain ⟨rule, -, rfl⟩ := List.mem_map.1 h
    exact LookaheadSet.within_empty _
  case bound => exact Nat.lt_succ_self _

/-- What may follow each rule. -/
def follows (rules : Rules) : List LookaheadSet := rules.followSets rules.first

/-- What may follow the rule with the given number. -/
def follow (rules : Rules) (i : Nat) : LookaheadSet := rules.follows[i]?.getD ∅

theorem follows_fixed (rules : Rules) :
    rules.followStep rules.first rules.follows = rules.follows :=
  rules.followSets_fixed (firstOf_within rules.firstSets_within)

theorem length_follows (rules : Rules) : rules.follows.length = rules.length := by
  rw [← rules.follows_fixed, followStep, List.length_mapIdx]

theorem follows_getElem? {i : Nat} {rule : Rule} (h : rules[i]? = some rule) :
    rules.follows[i]? = some (rules.follow i) := by
  have hi : i < rules.follows.length := rules.length_follows ▸ (List.getElem?_eq_some_iff.1 h).1
  rw [follow, List.getElem?_eq_getElem hi, Option.getD_some]

/-- A rule is followed by the end of the roots if a walk starts with it, and by what follows its
calls. -/
theorem follow_eq {i : Nat} {rule : Rule} (h : rules[i]? = some rule) :
    rules.follow i = (if i ∈ rules.entries then LookaheadSet.endOfList else ∅).union
      (rules.followOfCalls i (rules.occurrences rules.first rules.follows)) := by
  have hStep := follows_getElem? h
  rw [← rules.follows_fixed, followStep, List.getElem?_mapIdx, h] at hStep
  exact (Option.some.inj hStep).symm

theorem getElem?_of_index? {name : String} {i : Nat} (h : rules.index? name = some i) :
    ∃ rule, rules[i]? = some rule ∧ rule.name.name = name := by
  obtain ⟨hi, hName, -⟩ := List.findIdx?_eq_some_iff_getElem.1 h
  exact ⟨rules[i], List.getElem?_eq_getElem hi, of_decide_eq_true hName⟩

/-- What follows a call follows the rule that is called. -/
theorem follow_le_of_call {o : Occurrence} {id : Nat} {span : Span} {label : Option Ident}
    {name : Ident} {args : Option Fragment} {i : Nat}
    (ho : o ∈ rules.occurrences rules.first rules.follows)
    (hExpr : o.expr = .rule id span label name args) (hIndex : rules.index? name.name = some i) :
    o.follow ≤ rules.follow i := by
  obtain ⟨rule, hRule, -⟩ := getElem?_of_index? hIndex
  have hCall : o.followOfCall rules i = o.follow := by
    rw [Occurrence.followOfCall, hExpr]
    exact if_pos hIndex
  rw [follow_eq hRule, followOfCalls_eq, ← hCall]
  exact (le_foldl_union ho).trans (LookaheadSet.le_union_right ..)

theorem lt_length_of_mem_entries {i : Nat} (h : i ∈ rules.entries) : i < rules.length := by
  rw [entries] at h
  split at h
  · cases rules with
    | nil => exact absurd h List.not_mem_nil
    | cons rule rules => exact List.mem_singleton.1 h ▸ Nat.succ_pos _
  · exact List.mem_range.1 (List.mem_filter.1 h).1

/-- The end of the roots follows the rules at which walks start. -/
theorem endOfList_le_of_entry {i : Nat} (h : i ∈ rules.entries) :
    LookaheadSet.endOfList ≤ rules.follow i := by
  rw [follow_eq (List.getElem?_eq_getElem (lt_length_of_mem_entries h)), if_pos h]
  exact LookaheadSet.le_union_left ..

/-- The elements of a rule are among the elements of all rules. -/
theorem mem_occurrences {i : Nat} {rule : Rule} (h : rules[i]? = some rule) {o : Occurrence}
    (ho : o ∈ Alternative.alternativesOccurrences rules.first (rules.follow i) rule.alternatives) :
    o ∈ rules.occurrences rules.first rules.follows := by
  refine List.mem_flatMap.2 ⟨(rule, rules.follow i), ?_, ho⟩
  refine List.mem_iff_getElem?.2 ⟨i, ?_⟩
  rw [List.getElem?_zip_eq_some]
  exact ⟨h, follows_getElem? h⟩

end Rules

end TreeGrammar
