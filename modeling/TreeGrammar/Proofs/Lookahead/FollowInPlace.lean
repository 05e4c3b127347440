import TreeGrammar.Proofs.Lookahead.FirstInPlace
import TreeGrammar.Proofs.Lookahead.FollowEquations
import TreeGrammar.Proofs.Lookahead.InPlace
import TreeGrammar.Proofs.Lookahead.Sites

/-!
# What follows rules and elements, in place

A pass visits the elements of the rules, those of a sequence from right to left. It notes what
follows each element and hands it on to the rule that is called. A rule is visited with what is
known about it at that time; a pass that has handed on nothing new has therefore visited all rules
with the final sets, so that its notes are those of the final sets.

## Main definitions

* `FollowState.meet`: what a visit does when it meets an element

## Main results

* `Rules.exists_visited`: a visit meets the elements with what follows them, once each
* `Rules.followInPlace_eq`: the passes end with the least sets, and the notes fit these
* `Rules.followInPlace_isLeast`: what follows rules and elements
-/

namespace TreeGrammar

/-! ### Visits meet elements -/

namespace FirstSet

theorem predict_nothing (f : LookaheadSet) : nothing.predict f = f := by
  have hLe : nothing.predict f ≤ f :=
    LookaheadSet.union_le (LookaheadSet.empty_le f) (le_refl f)
  exact hLe.antisymm (follow_le_predict rfl)

/-- What a sequence predicts is predicted from right to left. -/
theorem predict_predict (a b : FirstSet) (f : LookaheadSet) :
    a.predict (b.predict f) = (a.andThen b).predict f := by
  refine (predict_andThen a b f).antisymm ?_
  by_cases ha : a.nullable
  · have hSet : a.set ≤ a.predict (b.predict f) := set_le_predict ..
    have hRest : b.predict f ≤ a.predict (b.predict f) := follow_le_predict ha
    have hFirst : a.set.union b.set ≤ a.predict (b.predict f) :=
      LookaheadSet.union_le hSet ((set_le_predict b f).trans hRest)
    rw [andThen, if_pos ha]
    by_cases hb : b.nullable
    · rw [predict, if_pos hb]
      exact LookaheadSet.union_le hFirst ((follow_le_predict hb).trans hRest)
    · rw [predict, if_neg hb]
      exact hFirst
  · simp only [andThen, predict, if_neg ha, le_refl]

end FirstSet

/-- Hands on what follows an element to the rule that it calls, if it is a call. -/
def Rules.deliver (rules : Rules) (sets : InPlace LookaheadSet) (occurrence : Occurrence) :
    InPlace LookaheadSet :=
  match occurrence.expr with
  | .rule _ _ _ name _ =>
    match rules.index? name.name with
    | some index => sets.modify index (·.absorb occurrence.follow)
    | none => sets
  | _ => sets

/-- Notes what follows an element and hands it on. -/
def FollowState.meet (rules : Rules) (state : FollowState) (occurrence : Occurrence) :
    FollowState :=
  { state.note occurrence.expr.id occurrence.follow with
    rules := rules.deliver state.rules occurrence }

/-- Sets of rules with the notes about the elements that are met. -/
def Rules.noted (rules : Rules) (sets : List LookaheadSet) (met : List Occurrence) :
    FollowTable where
  rules := sets
  exprs := (met.foldl (FollowState.meet rules) { rules := { sets } }).exprs

namespace Rules

/-- A visit meets the elements of what is visited with what follows them, each of them once. -/
theorem exists_visited (rules : Rules) (first : String → FirstSet) :
    (∀ expr : Expr, ∀ follow, ∃ visited : List Occurrence,
      visited.Perm (expr.occurrences first follow) ∧
      ∀ state : FollowState, expr.visit rules first follow (state.note expr.id follow) =
        visited.foldl (.meet rules) state) ∧
    (∀ exprs, ∀ follow, ∃ visited : List Occurrence,
      visited.Perm (Alternative.sequenceOccurrences first follow exprs) ∧
      ∀ state, Alternative.visitSequence rules first follow state exprs =
        (visited.foldl (.meet rules) state,
          (Alternative.sequenceFirst first exprs).predict follow)) ∧
    ∀ alternatives, ∀ follow, ∃ visited : List Occurrence,
      visited.Perm (Alternative.alternativesOccurrences first follow alternatives) ∧
      ∀ state, Alternative.visitAlternatives rules first follow state alternatives =
        visited.foldl (.meet rules) state := by
  refine Expr.induction ?node ?token ?wildcard ?rule ?subrule ?action ?predicate ?nil ?cons
    ?none ?alternative
  case node =>
    intro id span label name children ih follow
    obtain ⟨inner, hPerm, hVisit⟩ := ih .endOfList
    refine ⟨⟨.node id span label name children, follow⟩ :: inner, hPerm.cons _, fun state => ?_⟩
    rw [Expr.visit, hVisit]
    rfl
  case rule =>
    intro id span label name args follow
    refine ⟨[⟨.rule id span label name args, follow⟩], .refl _, fun state => ?_⟩
    rw [Expr.visit, List.foldl_cons, List.foldl_nil, FollowState.meet, deliver]
    dsimp only
    cases rules.index? name.name <;> rfl
  case subrule =>
    intro id span repetition alternatives ih follow
    obtain ⟨inner, hPerm, hVisit⟩ := ih (repetition.followOfRound first follow alternatives)
    refine ⟨⟨.subrule id span repetition alternatives, follow⟩ :: inner, hPerm.cons _,
      fun state => ?_⟩
    rw [Expr.visit]
    exact hVisit _
  case nil => exact fun follow => ⟨[], .nil, fun state => by
    rw [Alternative.visitSequence, Alternative.sequenceFirst, FirstSet.predict_nothing]
    rfl⟩
  case cons =>
    -- the rest of the sequence is visited before its first element
    intro expr exprs ihExpr ihExprs follow
    obtain ⟨later, hLater, hVisitLater⟩ := ihExprs follow
    obtain ⟨inner, hInner, hVisitInner⟩ :=
      ihExpr ((Alternative.sequenceFirst first exprs).predict follow)
    refine ⟨later ++ inner, List.perm_append_comm.trans (hInner.append hLater), fun state => ?_⟩
    rw [Alternative.visitSequence, hVisitLater]
    dsimp only
    rw [hVisitInner, List.foldl_append, Alternative.sequenceFirst, FirstSet.predict_predict]
  case none => exact fun follow => ⟨[], .nil, fun _ => rfl⟩
  case alternative =>
    intro guard elements span alternatives ihElements ih follow
    obtain ⟨here, hHere, hVisitHere⟩ := ihElements follow
    obtain ⟨others, hOthers, hVisitOthers⟩ := ih follow
    refine ⟨here ++ others, hHere.append hOthers, fun state => ?_⟩
    rw [Alternative.visitAlternatives, hVisitHere, hVisitOthers, List.foldl_append]
  all_goals
    intros
    exact ⟨[⟨_, _⟩], .refl _, fun _ => rfl⟩

variable {rules : Rules} {first : String → FirstSet} {visited : List Occurrence}
  {state : FollowState}

theorem foldl_meet_rules (rules : Rules) (visited : List Occurrence) (state : FollowState) :
    (visited.foldl (.meet rules) state).rules = visited.foldl rules.deliver state.rules :=
  (List.foldl_hom FollowState.rules fun _ _ => rfl).symm

/-- What has been noted about an element is the union of what it has been met with. -/
theorem foldl_meet_exprs_le_iff {id : Nat} {bound : LookaheadSet} :
    (visited.foldl (.meet rules) state).exprs id ≤ bound ↔
      state.exprs id ≤ bound ∧ ∀ o ∈ visited, o.expr.id = id → o.follow ≤ bound := by
  induction visited generalizing state with
  | nil => simp only [List.foldl_nil, List.not_mem_nil, false_imp_iff, implies_true, and_true]
  | cons o visited ih =>
    have hMeet : (state.meet rules o).exprs id ≤ bound ↔
        state.exprs id ≤ bound ∧ (o.expr.id = id → o.follow ≤ bound) := by
      rw [FollowState.meet, FollowState.note]
      dsimp only
      split
      · next hId =>
        subst hId
        simp only [true_imp_iff]
        exact ⟨fun h => ⟨(LookaheadSet.le_union_left ..).trans h,
          (LookaheadSet.le_union_right ..).trans h⟩, fun h => LookaheadSet.union_le h.1 h.2⟩
      · next hId => exact (and_iff_left fun hEq => absurd hEq.symm hId).symm
    rw [List.foldl_cons, ih, hMeet, List.forall_mem_cons, and_assoc]

theorem noted_exprs_le_iff {sets : List LookaheadSet} {id : Nat} {bound : LookaheadSet} :
    (rules.noted sets visited).exprs id ≤ bound ↔
      ∀ o ∈ visited, o.expr.id = id → o.follow ≤ bound :=
  foldl_meet_exprs_le_iff.trans (and_iff_right (LookaheadSet.empty_le bound))

theorem deliver_grows (rules : Rules) (sets : InPlace LookaheadSet) (o : Occurrence) :
    sets.Grows (rules.deliver sets o) := by
  rw [deliver]
  split
  · split
    · exact InPlace.modify_grows (LookaheadSet.absorb_adds _) sets _
    · exact .refl sets
  · exact .refl sets

/-- What is handed on stays below the least sets. -/
theorem deliver_le {sets : InPlace LookaheadSet} {expr : Expr} {set more : LookaheadSet}
    (hSets : List.Forall₂ (· ≤ ·) sets.sets rules.follows)
    (hElement : rules.ElementFollow rules.first rules.follow expr more) (hLe : set ≤ more) :
    List.Forall₂ (· ≤ ·) (rules.deliver sets ⟨expr, set⟩).sets rules.follows := by
  rw [deliver]
  split
  · next hExpr =>
    obtain rfl : expr = _ := hExpr
    split
    · next i hIndex =>
      refine InPlace.modify_le (LookaheadSet.absorb_adds _) hSets fun bound hBound => ?_
      obtain ⟨called, hCalled, -⟩ := getElem?_of_index? hIndex
      have hFollow := hLe.trans (follow_le_of_elementFollow hElement hIndex)
      exact Option.some.inj ((follows_getElem? hCalled).symm.trans hBound) ▸ hFollow
    · exact hSets
  · exact hSets

/-- Where nothing is left to hand on, nothing is missing in the sets of rules. -/
theorem followStep_le_of_deliver {sets : List LookaheadSet} (hLength : sets.length = rules.length)
    (hStart : List.Forall₂ (· ≤ ·) rules.followStart sets)
    (h : ∀ o ∈ rules.occurrences first sets, rules.deliver { sets } o = { sets }) :
    List.Forall₂ (· ≤ ·) (rules.followStep first sets) sets := by
  rw [← tabulate_getElem? hLength] at h ⊢
  refine followStep_le (fun i hi => ?entry) ?call
  case entry =>
    have hAt : rules.followStart[i]? = some .endOfList := by
      rw [followStart, List.getElem?_mapIdx,
        List.getElem?_eq_getElem (lt_length_of_mem_entries hi), Option.map_some, if_pos hi]
    obtain ⟨set, hSet, hLe⟩ := exists_getElem?_of_forall₂ hStart hAt
    rw [hSet]
    exact hLe
  case call =>
    intro id span label name args set i hElement hIndex
    have hNothing := h _ (mem_occurrences_iff.2 hElement)
    rw [tabulate_getElem? hLength, deliver] at hNothing
    simp only [hIndex] at hNothing
    obtain ⟨called, hCalled, -⟩ := getElem?_of_index? hIndex
    have hi : i < sets.length := hLength ▸ (List.getElem?_eq_some_iff.1 hCalled).1
    have hSet : sets[i]? = some sets[i] := List.getElem?_eq_getElem hi
    rw [hSet]
    exact InPlace.le_of_modify_eq (LookaheadSet.absorb_adds _) hNothing hSet

/-! ### Visits of rules -/

/-- A visit of a rule meets its elements with what follows them according to the present set. -/
theorem exists_visited_rule (rules : Rules) (first : String → FirstSet) (state : FollowState)
    (index : Nat) (rule : Rule) :
    ∃ visited : List Occurrence, visited.Perm (Alternative.alternativesOccurrences first
        (state.rules.sets[index]?.getD ∅) rule.alternatives) ∧
      rules.followVisit first state index rule = visited.foldl (.meet rules) state := by
  obtain ⟨visited, hPerm, hVisit⟩ := (rules.exists_visited first).2.2 rule.alternatives
    (state.rules.sets[index]?.getD ∅)
  exact ⟨visited, hPerm, hVisit state⟩

/-- Visits make the sets of rules grow. If they change none, they have met all elements with what
follows them according to these sets. -/
theorem exists_visited_rules (rules : Rules) (first : String → FirstSet)
    (entries : List (Rule × Nat)) (state : FollowState) :
    let last := entries.foldl
      (fun state (rule, index) => rules.followVisit first state index rule) state
    state.rules.Grows last.rules ∧ (last.rules.changed = false →
      ∃ visited : List Occurrence, visited.Perm (entries.flatMap fun (rule, index) =>
          Alternative.alternativesOccurrences first (state.rules.sets[index]?.getD ∅)
            rule.alternatives) ∧
        last = visited.foldl (.meet rules) state) := by
  induction entries generalizing state with
  | nil => exact ⟨.refl _, fun _ => ⟨[], .nil, rfl⟩⟩
  | cons entry entries ih =>
    obtain ⟨rule, index⟩ := entry
    obtain ⟨here, hHere, hVisit⟩ := rules.exists_visited_rule first state index rule
    obtain ⟨hGrows, hRest⟩ := ih (rules.followVisit first state index rule)
    have hHereGrows : state.rules.Grows (rules.followVisit first state index rule).rules := by
      rw [hVisit, foldl_meet_rules]
      exact InPlace.Grows.foldl (fun sets o _ => rules.deliver_grows sets o) _
    refine ⟨hHereGrows.trans hGrows, fun hUnchanged => ?_⟩
    -- the later rules are visited with the same sets
    have hSame : (rules.followVisit first state index rule).rules = state.rules := by
      refine hHereGrows.eq_of_unchanged ?_
      rw [← hGrows.eq_of_unchanged hUnchanged]
      exact hUnchanged
    obtain ⟨others, hOthers, hLast⟩ := hRest hUnchanged
    rw [hSame] at hOthers
    refine ⟨here ++ others, hHere.append hOthers, ?_⟩
    rw [List.foldl_append, ← hVisit]
    exact hLast

theorem occurrences_tabulate (rules : Rules) (first : String → FirstSet)
    (follow : Nat → LookaheadSet) :
    (rules.zipIdx.flatMap fun (rule, index) =>
      Alternative.alternativesOccurrences first (follow index) rule.alternatives) =
        rules.occurrences first (rules.tabulate follow) := by
  have hZip : rules.zip (rules.tabulate follow) =
      rules.zipIdx.map fun (rule, index) => (rule, follow index) := by
    refine List.ext_getElem (by simp [length_tabulate]) fun i hi hi' => ?_
    simp [tabulate]
  rw [occurrences, hZip, List.flatMap_map]

/-! ### Passes -/

section Pass

variable {table : FollowTable}

/-- A pass makes the sets of rules grow and tells whether it has changed one of them. -/
theorem followPass_grows (rules : Rules) (first : String → FirstSet) (table : FollowTable) :
    List.Forall₂ (· ≤ ·) table.rules (rules.followPass first table).1.rules ∧
      ((rules.followPass first table).2 = true ↔
        table.rules ≠ (rules.followPass first table).1.rules) := by
  obtain ⟨hGrows, -⟩ := rules.exists_visited_rules first rules.zipIdx
    { rules := { sets := table.rules } }
  exact ⟨hGrows.le, hGrows.changed_iff.trans (or_iff_right Bool.false_ne_true)⟩

/-- A pass stays below the least sets. -/
theorem followPass_le (h : List.Forall₂ (· ≤ ·) table.rules rules.follows) :
    List.Forall₂ (· ≤ ·) (rules.followPass rules.first table).1.rules rules.follows := by
  refine List.foldlRecOn (motive := fun state : FollowState =>
    List.Forall₂ (· ≤ ·) state.rules.sets rules.follows) _ _ h ?_
  rintro state hState ⟨rule, index⟩ hRule
  obtain ⟨visited, hPerm, hVisit⟩ := rules.exists_visited_rule rules.first state index rule
  have hLe : ∀ i rule, rules[i]? = some rule →
      state.rules.sets[i]?.getD ∅ ≤ rules.follow i := by
    intro i rule hRule
    cases hSet : state.rules.sets[i]? with
    | none => exact LookaheadSet.empty_le _
    | some set =>
      obtain ⟨bound, hBound, hBelow⟩ := exists_getElem?_of_forall₂ hState hSet
      exact Option.some.inj ((follows_getElem? hRule).symm.trans hBound) ▸ hBelow
  have hElement : ∀ o ∈ visited, rules.ElementFollow rules.first
      (fun i => state.rules.sets[i]?.getD ∅) o.expr o.follow := by
    intro o ho
    exact elementFollow_of_mem.2.2 rule.alternatives _
      (fun _ => .body (List.mem_zipIdx_iff_getElem?.1 hRule)) o (hPerm.mem_iff.1 ho)
  -- what is handed on to a rule follows the rule
  change List.Forall₂ (· ≤ ·) (rules.followVisit rules.first state index rule).rules.sets _
  rw [hVisit, foldl_meet_rules]
  refine List.foldlRecOn (motive := fun sets : InPlace LookaheadSet =>
    List.Forall₂ (· ≤ ·) sets.sets rules.follows) _ _ hState ?_
  rintro sets hSets ⟨expr, set⟩ ho
  obtain ⟨more, hMore, hSet⟩ := (hElement _ ho).mono hLe
  exact deliver_le hSets hMore hSet

/-- Where a pass has changed nothing, it has met all elements with what follows them, and nothing is
missing in the sets of rules. -/
theorem followPass_of_unchanged (hLength : table.rules.length = rules.length)
    (hStart : List.Forall₂ (· ≤ ·) rules.followStart table.rules)
    (h : (rules.followPass first table).2 = false) :
    List.Forall₂ (· ≤ ·) (rules.followStep first table.rules) table.rules ∧
      ∃ visited : List Occurrence, visited.Perm (rules.occurrences first table.rules) ∧
        (rules.followPass first table).1 = rules.noted table.rules visited := by
  obtain ⟨hGrows, hVisited⟩ := rules.exists_visited_rules first rules.zipIdx
    { rules := { sets := table.rules } }
  obtain ⟨visited, hVisits, hLast⟩ := hVisited h
  have hPerm : visited.Perm (rules.occurrences first table.rules) := by
    rw [rules.occurrences_tabulate first fun i => table.rules[i]?.getD ∅,
      tabulate_getElem? hLength] at hVisits
    exact hVisits
  have hSame := hGrows.eq_of_unchanged h
  have hDelivered : visited.foldl rules.deliver { sets := table.rules } =
      { sets := table.rules } := by
    have hRules := foldl_meet_rules rules visited { rules := { sets := table.rules } }
    exact hRules.symm.trans ((congrArg FollowState.rules hLast).symm.trans hSame)
  have hNothing := InPlace.Grows.eq_of_foldl (fun sets o _ => rules.deliver_grows sets o)
    (congrArg InPlace.changed hDelivered)
  refine ⟨followStep_le_of_deliver hLength hStart fun o ho => hNothing o ?_, visited, hPerm, ?_⟩
  · exact hPerm.mem_iff.2 ho
  · rw [followPass, noted, ← hLast]
    exact congrArg (FollowTable.mk · _) (congrArg InPlace.sets hSame)

end Pass

/-- The passes come to an end. They leave the least sets of the rules, and the notes of a visit of
all elements with what follows them according to these sets. -/
theorem followInPlace_eq (rules : Rules) :
    ∃ visited : List Occurrence, visited.Perm (rules.occurrences rules.first rules.follows) ∧
      rules.followInPlace rules.first = some (rules.noted rules.follows visited) := by
  have hEnd : ∃ last : FollowTable, (List.Forall₂ (· ≤ ·) rules.followStart last.rules ∧
        List.Forall₂ (· ≤ ·) last.rules rules.follows) ∧
      (rules.followPass rules.first last).2 = false ∧
      rules.followInPlace rules.first = some (rules.followPass rules.first last).1 := by
    refine exists_repeatPass (p := fun table : FollowTable =>
        List.Forall₂ (· ≤ ·) rules.followStart table.rules ∧
          List.Forall₂ (· ≤ ·) table.rules rules.follows)
      (fun table => (table.rules.map LookaheadSet.size).sum) ?keep ?grow
      (fun _ h => sum_size_le LookaheadSet.size_strictMono h.2) ?start
    case keep =>
      rintro table ⟨hStart, hBelow⟩
      obtain ⟨hGrow, -⟩ := rules.followPass_grows rules.first table
      exact ⟨forall₂_le_trans hStart hGrow, followPass_le hBelow⟩
    case grow =>
      intro table _ hChanged
      obtain ⟨hGrow, hTold⟩ := rules.followPass_grows rules.first table
      exact sum_size_lt LookaheadSet.size_strictMono hGrow (hTold.1 hChanged)
    case start =>
      refine ⟨List.forall₂_same.2 fun _ _ => le_refl _, ?_⟩
      rw [← rules.follows_fixed, followStart, followStep]
      refine List.forall₂_iff_get.2 ⟨by simp only [List.length_mapIdx], fun i hi hi' => ?_⟩
      simp only [List.get_eq_getElem, List.getElem_mapIdx]
      exact LookaheadSet.le_union_left ..
  obtain ⟨last, ⟨hStart, hBelow⟩, hUnchanged, hResult⟩ := hEnd
  have hLength : last.rules.length = rules.length :=
    hBelow.length_eq.trans rules.length_follows
  obtain ⟨hMissing, visited, hPerm, hPass⟩ := followPass_of_unchanged hLength hStart hUnchanged
  have hLast : last.rules = rules.follows :=
    forall₂_le_antisymm hBelow (followSets_le hMissing)
  rw [hLast] at hPerm hPass
  exact ⟨visited, hPerm, hPass ▸ hResult⟩

section Notes

variable {expr : Expr} {set : LookaheadSet}
  (hPerm : visited.Perm (rules.occurrences rules.first rules.follows))
include hPerm

theorem noted_le_iff {id : Nat} {bound : LookaheadSet} :
    (rules.noted rules.follows visited).exprs id ≤ bound ↔
      ∀ expr set, expr.id = id → rules.ElementFollow rules.first rules.follow expr set →
        set ≤ bound := by
  rw [noted_exprs_le_iff]
  constructor
  · intro h expr set hId hElement
    rw [← mem_occurrences_iff, tabulate_follow] at hElement
    exact h ⟨expr, set⟩ (hPerm.mem_iff.2 hElement) hId
  · intro h o ho hId
    refine h o.expr o.follow hId (mem_occurrences_iff.1 ?_)
    rw [tabulate_follow]
    exact hPerm.mem_iff.1 ho

/-- What is noted is the union of what follows the elements with the number. -/
theorem noted_isLUB (id : Nat) : IsLUB {set | ∃ expr : Expr, expr.id = id ∧
    rules.ElementFollow rules.first rules.follow expr set}
      ((rules.noted rules.follows visited).exprs id) := by
  constructor
  · rintro set ⟨expr, hId, hElement⟩
    exact (noted_le_iff hPerm).1 (le_refl _) expr set hId hElement
  · intro bound hBound
    exact (noted_le_iff hPerm).2 fun expr set hId hElement => hBound ⟨expr, hId, hElement⟩

theorem noted_closed : rules.FollowClosed rules.first rules.follow
    (rules.noted rules.follows visited).exprs where
  entry _ hi := endOfList_le_of_entry hi
  element expr _ hElement := (noted_isLUB hPerm expr.id).1 ⟨expr, rfl, hElement⟩
  call _ _ _ _ _ _ _ hElement hIndex := follow_le_of_elementFollow hElement hIndex

/-- What is noted is below all closed sets. -/
theorem noted_le_of_closed {follow exprs : Nat → LookaheadSet}
    (hClosed : rules.FollowClosed rules.first follow exprs) (id : Nat) :
    (rules.noted rules.follows visited).exprs id ≤ exprs id := by
  refine (noted_le_iff hPerm).2 ?_
  rintro expr set rfl hElement
  obtain ⟨more, hMore, hLe⟩ := hElement.mono fun i rule hRule => hClosed.follow_le hRule
  exact hLe.trans (hClosed.element expr more hMore)

/-- If the numbers of elements differ, then what is noted about an element is what follows it. -/
theorem elementFollow_iff_noted (hIds : (rules.exprs.map Expr.id).Nodup)
    (hExpr : expr ∈ rules.exprs) : rules.ElementFollow rules.first rules.follow expr set ↔
      set = (rules.noted rules.follows visited).exprs expr.id := by
  obtain ⟨o, ho, rfl⟩ := List.mem_map.1
    ((perm_exprs rules.first rules.length_follows).mem_iff.2 hExpr)
  have hHere : rules.ElementFollow rules.first rules.follow o.expr o.follow := by
    rw [← mem_occurrences_iff, tabulate_follow]
    exact ho
  have hOnly : ∀ other set, other.id = o.expr.id →
      rules.ElementFollow rules.first rules.follow other set → set = o.follow := by
    intro other set hId hElement
    rw [← mem_occurrences_iff, tabulate_follow] at hElement
    exact congrArg Occurrence.follow (occurrence_ext hIds rules.length_follows hElement ho hId)
  have hNoted : (rules.noted rules.follows visited).exprs o.expr.id = o.follow := by
    refine ((noted_le_iff hPerm).2 fun other set hId hElement => ?_).antisymm
      ((noted_isLUB hPerm o.expr.id).1 ⟨o.expr, rfl, hHere⟩)
    exact (hOnly other set hId hElement).le
  rw [hNoted]
  exact ⟨hOnly o.expr set rfl, fun hSet => hSet ▸ hHere⟩

end Notes

/-- The passes over the rules end with the least sets for rules and elements that list whatever
follows: the end of the roots follows the entries, what follows an element is found in the rest of
its sequence and behind it, and what follows a call follows the rule that is called. What is noted
about an element is exactly what follows it, according to the final sets of rules, at the places
where it stands; if no two elements have the same number, there is just one place. -/
theorem followInPlace_isLeast (rules : Rules) :
    ∃ table, rules.followInPlace rules.first = some table ∧ table.rules = rules.follows ∧
      rules.FollowClosed rules.first rules.follow table.exprs ∧
      (∀ follow exprs, rules.FollowClosed rules.first follow exprs →
        (∀ i rule, rules[i]? = some rule → rules.follow i ≤ follow i) ∧
          ∀ id, table.exprs id ≤ exprs id) ∧
      (∀ id, IsLUB {set | ∃ expr : Expr, expr.id = id ∧
        rules.ElementFollow rules.first rules.follow expr set} (table.exprs id)) ∧
      ((rules.exprs.map Expr.id).Nodup → ∀ expr ∈ rules.exprs, ∀ set,
        rules.ElementFollow rules.first rules.follow expr set ↔ set = table.exprs expr.id) := by
  obtain ⟨visited, hPerm, hResult⟩ := rules.followInPlace_eq
  refine ⟨_, hResult, rfl, noted_closed hPerm, fun follow exprs hClosed => ?_, noted_isLUB hPerm,
    fun hIds expr hExpr set => elementFollow_iff_noted hPerm hIds hExpr⟩
  exact ⟨fun i rule hRule => hClosed.follow_le hRule, noted_le_of_closed hPerm hClosed⟩

namespace Sample

/-- The element `(A)*`. -/
def repeated : Expr :=
  .subrule 1 Span.start .star
    [.mk none [.token 0 Span.start none ⟨"A", Span.start⟩] Span.start]

/-- The rule `items : (A)* B ;`. -/
def items : Rule := ruleOf "items" [[repeated, .token 2 Span.start none ⟨"B", Span.start⟩]]

/-- Inside the repetition `A` is followed by itself and by `B`. -/
theorem followInPlace_items : (Rules.exprs [items]).map Expr.id = [0, 1, 2] ∧
    ∃ table, followInPlace [items] (Rules.first [items]) = some table ∧
      table.exprs 0 = (LookaheadSet.ofLabel "A").union (.ofLabel "B") := by
  obtain ⟨table, hResult, -, -, -, -, hExprs⟩ := followInPlace_isLeast [items]
  have hIds : (Rules.exprs [items]).map Expr.id = [0, 1, 2] := by decide
  have hMem : .token 0 Span.start none ⟨"A", Span.start⟩ ∈ Rules.exprs [items] := .head _
  have hAlternative : .mk none [repeated, .token 2 Span.start none ⟨"B", Span.start⟩] Span.start ∈
      items.alternatives := .head _
  have hBody : SequenceFollow [items] (Rules.first [items]) (follow [items])
      [repeated, .token 2 Span.start none ⟨"B", Span.start⟩] (follow [items] 0) :=
    .body (show [items][0]? = some items from rfl) hAlternative
  have hRound := SequenceFollow.round hBody (.head _)
  have hNodup : ((Rules.exprs [items]).map Expr.id).Nodup := hIds ▸ by decide
  refine ⟨hIds, table, hResult, ?_⟩
  exact ((hExprs hNodup _ hMem _).1 ⟨[], _, hRound, by decide +kernel⟩).symm

end Sample

end Rules

end TreeGrammar
