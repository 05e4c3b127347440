import TreeGrammar.Proofs.Lookahead.Least
import TreeGrammar.Proofs.Lookahead.Prediction

/-!
# What follows an element

What follows the elements of a grammar is determined by what follows its rules. This is stated for
each sequence of elements by the place at which the sequence stands: as an alternative of a rule, as
the rest of a sequence, as the children of a node match, or as an alternative of a group.

## Main definitions

* `Rules.SequenceFollow`, `Rules.ElementFollow`: what follows a sequence and an element
* `Rules.FollowClosed`: sets that list all that follows rules and elements

## Main results

* `Rules.mem_occurrences_iff`: the occurrences in rules are the elements with what follows them
* `Rules.FollowClosed.follow_le`: closed sets are above the computed ones
-/

namespace TreeGrammar

/-- A sequence of elements stands in the rules and is followed by the set `after`, where
`follow` tells what follows the rules. -/
inductive Rules.SequenceFollow (rules : Rules) (first : String → FirstSet)
    (follow : Nat → LookaheadSet) : List Expr → LookaheadSet → Prop where
  /-- What follows a rule follows its alternatives. -/
  | body {i : Nat} {rule : Rule} {alternative : Alternative} (hRule : rules[i]? = some rule)
      (hAlternative : alternative ∈ rule.alternatives) :
      SequenceFollow rules first follow alternative.elements (follow i)
  /-- What follows a sequence follows the rest of it. -/
  | rest {expr : Expr} {exprs : List Expr} {after : LookaheadSet}
      (h : SequenceFollow rules first follow (expr :: exprs) after) :
      SequenceFollow rules first follow exprs after
  /-- The children of a node match are followed by the end of their list. -/
  | children {id : Nat} {span : Span} {label : Option Ident} {name : Ident}
      {children exprs : List Expr} {after : LookaheadSet}
      (h : SequenceFollow rules first follow (.node id span label name children :: exprs) after) :
      SequenceFollow rules first follow children .endOfList
  /-- What follows a group follows its alternatives, and if the group may be repeated they follow
  each other. -/
  | round {id : Nat} {span : Span} {repetition : Repetition} {alternatives : List Alternative}
      {exprs : List Expr} {after : LookaheadSet} {alternative : Alternative}
      (h : SequenceFollow rules first follow (.subrule id span repetition alternatives :: exprs)
        after)
      (hAlternative : alternative ∈ alternatives) :
      SequenceFollow rules first follow alternative.elements
        (repetition.followOfRound first ((Alternative.sequenceFirst first exprs).predict after)
          alternatives)

/-- An element stands in the rules and is followed by the given set: by what the rest of its
sequence may start with, and by what follows the sequence if the rest may match nothing. -/
def Rules.ElementFollow (rules : Rules) (first : String → FirstSet) (follow : Nat → LookaheadSet)
    (expr : Expr) (set : LookaheadSet) : Prop :=
  ∃ exprs after, rules.SequenceFollow first follow (expr :: exprs) after ∧
    set = (Alternative.sequenceFirst first exprs).predict after

/-- Sets for the rules, by their number, and for the elements, by theirs, that list whatever
follows. -/
structure Rules.FollowClosed (rules : Rules) (first : String → FirstSet)
    (follow exprs : Nat → LookaheadSet) : Prop where
  /-- The end of the roots follows the rules at which walks start. -/
  entry : ∀ i ∈ rules.entries, LookaheadSet.endOfList ≤ follow i
  /-- The sets of the elements list what follows them. -/
  element : ∀ expr set, rules.ElementFollow first follow expr set → set ≤ exprs expr.id
  /-- A rule is followed by what follows its calls. -/
  call : ∀ id span label name args set i,
    rules.ElementFollow first follow (.rule id span label name args) set →
      rules.index? name.name = some i → set ≤ follow i

theorem Repetition.followOfRound_mono {repetition : Repetition} {first : String → FirstSet}
    {f g : LookaheadSet} {alternatives : List Alternative} (h : f ≤ g) :
    repetition.followOfRound first f alternatives ≤
      repetition.followOfRound first g alternatives := by
  rw [followOfRound, followOfRound]
  split
  · exact LookaheadSet.union_mono h (le_refl _)
  · exact h

namespace Rules

variable {rules : Rules} {first : String → FirstSet} {follow other : Nat → LookaheadSet}
  {expr : Expr} {exprs : List Expr} {after set : LookaheadSet}

/-- The sets of the rules as a list. -/
def tabulate (rules : Rules) (follow : Nat → LookaheadSet) : List LookaheadSet :=
  rules.mapIdx fun i _ => follow i

theorem length_tabulate (rules : Rules) (follow : Nat → LookaheadSet) :
    (rules.tabulate follow).length = rules.length := List.length_mapIdx

theorem tabulate_follow (rules : Rules) : rules.tabulate rules.follow = rules.follows := by
  refine List.ext_getElem? fun i => ?_
  rw [tabulate, List.getElem?_mapIdx]
  cases hRule : rules[i]? with
  | none =>
    rw [List.getElem?_eq_none_iff] at hRule
    exact (List.getElem?_eq_none (rules.length_follows.trans_le hRule)).symm
  | some rule => exact (follows_getElem? hRule).symm

theorem tabulate_getElem? {sets : List LookaheadSet} (hLength : sets.length = rules.length) :
    rules.tabulate (fun i => sets[i]?.getD ∅) = sets := by
  refine List.ext_getElem (by rw [length_tabulate, hLength]) fun i hi hi' => ?_
  simp only [tabulate, List.getElem_mapIdx, List.getElem?_eq_getElem hi', Option.getD_some]

theorem mem_zip_tabulate {rule : Rule} :
    (rule, set) ∈ rules.zip (rules.tabulate follow) ↔
      ∃ i, rules[i]? = some rule ∧ follow i = set := by
  rw [List.mem_iff_getElem?]
  refine exists_congr fun i => ?_
  rw [List.getElem?_zip_eq_some, tabulate, List.getElem?_mapIdx]
  refine and_congr_right fun hRule => ?_
  rw [hRule, Option.map_some, Option.some.injEq]

/-! ### Elements and occurrences -/

theorem mem_occurrences_self (expr : Expr) (set : LookaheadSet) :
    ⟨expr, set⟩ ∈ expr.occurrences first set := by
  cases expr <;> exact List.mem_cons_self

theorem sequenceOccurrences_subset {alternatives : List Alternative} {alternative : Alternative}
    (h : alternative ∈ alternatives) :
    Alternative.sequenceOccurrences first set alternative.elements ⊆
      Alternative.alternativesOccurrences first set alternatives := by
  induction alternatives with
  | nil => exact absurd h List.not_mem_nil
  | cons head alternatives ih =>
    obtain ⟨guard, elements, span⟩ := head
    rcases List.mem_cons.1 h with rfl | h
    · exact List.subset_append_left ..
    · exact List.Subset.trans (ih h) (List.subset_append_right ..)

/-- The elements of a sequence that stands in the rules are among the occurrences. -/
theorem SequenceFollow.subset_occurrences (h : rules.SequenceFollow first follow exprs after) :
    Alternative.sequenceOccurrences first after exprs ⊆
      rules.occurrences first (rules.tabulate follow) := by
  induction h with
  | @body i rule alternative hRule hAlternative =>
    intro o ho
    exact List.mem_flatMap.2 ⟨(rule, follow i), mem_zip_tabulate.2 ⟨i, hRule, rfl⟩,
      sequenceOccurrences_subset hAlternative ho⟩
  | rest _ ih => exact List.Subset.trans (List.subset_append_right ..) ih
  | children _ ih =>
    refine List.Subset.trans ?_ (List.Subset.trans (List.subset_append_left ..) ih)
    exact List.subset_cons_self ..
  | round _ hAlternative ih =>
    refine List.Subset.trans ?_ (List.Subset.trans (List.subset_append_left ..) ih)
    exact List.Subset.trans (sequenceOccurrences_subset hAlternative) (List.subset_cons_self ..)

/-- All occurrences in a part of the rules are elements with what follows them. -/
theorem elementFollow_of_mem :
    (∀ expr : Expr, ∀ exprs after, rules.SequenceFollow first follow (expr :: exprs) after →
      ∀ o ∈ expr.occurrences first ((Alternative.sequenceFirst first exprs).predict after),
        rules.ElementFollow first follow o.expr o.follow) ∧
    (∀ exprs, ∀ after, rules.SequenceFollow first follow exprs after →
      ∀ o ∈ Alternative.sequenceOccurrences first after exprs,
        rules.ElementFollow first follow o.expr o.follow) ∧
    ∀ alternatives, ∀ after,
      (∀ alternative ∈ alternatives, rules.SequenceFollow first follow alternative.elements after) →
      ∀ o ∈ Alternative.alternativesOccurrences first after alternatives,
        rules.ElementFollow first follow o.expr o.follow := by
  refine Expr.induction ?node ?token ?wildcard ?rule ?subrule ?action ?predicate ?nil ?cons
    ?none ?alternative
  case node =>
    intro id span label name children ih exprs after h
    exact List.forall_mem_cons.2 ⟨⟨exprs, after, h, rfl⟩, ih _ h.children⟩
  case subrule =>
    intro id span repetition alternatives ih exprs after h
    exact List.forall_mem_cons.2 ⟨⟨exprs, after, h, rfl⟩, ih _ fun _ => h.round⟩
  case nil => exact fun _ _ _ ho => absurd ho List.not_mem_nil
  case none => exact fun _ _ _ ho => absurd ho List.not_mem_nil
  case cons =>
    intro expr exprs ihExpr ihExprs after h
    exact List.forall_mem_append.2 ⟨ihExpr exprs after h, ihExprs after h.rest⟩
  case alternative =>
    intro guard elements span alternatives ihElements ih after h
    obtain ⟨hHead, hTail⟩ := List.forall_mem_cons.1 h
    exact List.forall_mem_append.2 ⟨ihElements after hHead, ih after hTail⟩
  all_goals
    intros
    rename_i h o ho
    rw [List.mem_singleton.1 ho]
    exact ⟨_, _, h, rfl⟩

/-- The occurrences in the rules are the elements with what follows them. -/
theorem mem_occurrences_iff : ⟨expr, set⟩ ∈ rules.occurrences first (rules.tabulate follow) ↔
    rules.ElementFollow first follow expr set := by
  constructor
  · intro h
    obtain ⟨⟨rule, after⟩, hRule, hMem⟩ := List.mem_flatMap.1 h
    obtain ⟨i, hAt, rfl⟩ := mem_zip_tabulate.1 hRule
    exact elementFollow_of_mem.2.2 rule.alternatives (follow i) (fun _ => .body hAt) _ hMem
  · rintro ⟨exprs, after, h, rfl⟩
    exact h.subset_occurrences (List.mem_append_left _ (mem_occurrences_self ..))

/-! ### Closed sets -/

/-- A sequence is followed by more if the rules are. -/
theorem SequenceFollow.mono (h : rules.SequenceFollow first follow exprs after)
    (hLe : ∀ i rule, rules[i]? = some rule → follow i ≤ other i) :
    ∃ more, rules.SequenceFollow first other exprs more ∧ after ≤ more := by
  induction h with
  | @body i rule _ hRule hAlternative => exact ⟨_, .body hRule hAlternative, hLe i rule hRule⟩
  | rest _ ih =>
    obtain ⟨more, hMore, hAfter⟩ := ih
    exact ⟨more, hMore.rest, hAfter⟩
  | children _ ih =>
    obtain ⟨more, hMore, -⟩ := ih
    exact ⟨_, hMore.children, le_refl _⟩
  | round _ hAlternative ih =>
    obtain ⟨more, hMore, hAfter⟩ := ih
    exact ⟨_, hMore.round hAlternative,
      Repetition.followOfRound_mono (FirstSet.predict_mono (le_refl _) hAfter)⟩

theorem ElementFollow.mono (h : rules.ElementFollow first follow expr set)
    (hLe : ∀ i rule, rules[i]? = some rule → follow i ≤ other i) :
    ∃ more, rules.ElementFollow first other expr more ∧ set ≤ more := by
  obtain ⟨exprs, after, hSequence, rfl⟩ := h
  obtain ⟨more, hMore, hAfter⟩ := hSequence.mono hLe
  exact ⟨_, ⟨exprs, more, hMore, rfl⟩, FirstSet.predict_mono (le_refl _) hAfter⟩

/-- A step adds nothing to sets of rules that list what follows entries and calls. -/
theorem followStep_le (hEntry : ∀ i ∈ rules.entries, LookaheadSet.endOfList ≤ follow i)
    (hCall : ∀ id span label name args set i,
      rules.ElementFollow first follow (.rule id span label name args) set →
        rules.index? name.name = some i → set ≤ follow i) :
    List.Forall₂ (· ≤ ·) (rules.followStep first (rules.tabulate follow))
      (rules.tabulate follow) := by
  refine List.forall₂_iff_get.2 ⟨?_, fun i hi hi' => ?_⟩
  · rw [followStep, List.length_mapIdx, length_tabulate]
  simp only [followStep, tabulate, List.get_eq_getElem, List.getElem_mapIdx]
  refine LookaheadSet.union_le ?entry ?calls
  case entry =>
    split
    · next h => exact hEntry i h
    · exact LookaheadSet.empty_le _
  case calls =>
    rw [followOfCalls_eq]
    refine foldl_union_le (LookaheadSet.empty_le _) fun o ho => ?_
    obtain ⟨expr, set⟩ := o
    have hElement := mem_occurrences_iff.1 ho
    rw [Occurrence.followOfCall]
    split
    · next hExpr =>
      obtain rfl : expr = _ := hExpr
      split
      · next hIndex => exact hCall _ _ _ _ _ set i hElement hIndex
      · exact LookaheadSet.empty_le _
    · exact LookaheadSet.empty_le _

/-- Closed sets list what follows the rules. -/
theorem FollowClosed.follow_le {elements : Nat → LookaheadSet}
    (h : rules.FollowClosed rules.first other elements) {i : Nat} {rule : Rule}
    (hRule : rules[i]? = some rule) : rules.follow i ≤ other i := by
  have hLe : List.Forall₂ (· ≤ ·) rules.follows (rules.tabulate other) :=
    followSets_le (followStep_le h.entry h.call)
  obtain ⟨bound, hBound, hBelow⟩ := exists_getElem?_of_forall₂ hLe (follows_getElem? hRule)
  rw [tabulate, List.getElem?_mapIdx, hRule] at hBound
  obtain rfl : other i = bound := Option.some.inj hBound
  exact hBelow

/-- What follows a call follows the rule that is called. -/
theorem follow_le_of_elementFollow {id : Nat} {span : Span} {label : Option Ident} {name : Ident}
    {args : Option Fragment} {i : Nat}
    (h : rules.ElementFollow rules.first rules.follow (.rule id span label name args) set)
    (hIndex : rules.index? name.name = some i) : set ≤ rules.follow i := by
  rw [← mem_occurrences_iff, tabulate_follow] at h
  exact follow_le_of_call h rfl hIndex

end Rules

end TreeGrammar
