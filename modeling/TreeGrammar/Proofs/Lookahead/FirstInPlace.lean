import TreeGrammar.Proofs.Lookahead.InPlace
import TreeGrammar.Proofs.Lookahead.Starts

/-!
# What rules start with, in place

Passes over the rules that change their sets in place end with the least sets that agree with each
other, in whatever order the rules are written and however they call each other.

## Main results

* `Rules.firstInPlace_eq`: the passes end with the least sets
* `Rules.firstInPlace_isLeast`: what these sets list
-/

namespace TreeGrammar

namespace Rules

variable {rules : Rules} {sets bounds : List FirstSet}

theorem firstVisit_grows (rules : Rules) (state : InPlace FirstSet) (entry : Rule × Nat) :
    state.Grows (rules.firstVisit state entry.2 entry.1) :=
  InPlace.modify_grows (FirstSet.absorb_adds _) state entry.2

/-- A pass makes the sets grow and tells whether it has changed one of them. -/
theorem firstPass_grows (rules : Rules) (sets : List FirstSet) :
    List.Forall₂ (· ≤ ·) sets (rules.firstPass sets).1 ∧
      ((rules.firstPass sets).2 = true ↔ sets ≠ (rules.firstPass sets).1) := by
  have hGrows : InPlace.Grows { sets } (rules.zipIdx.foldl
      (fun state entry => rules.firstVisit state entry.2 entry.1) { sets }) :=
    InPlace.Grows.foldl (fun state entry _ => rules.firstVisit_grows state entry) _
  exact ⟨hGrows.le, hGrows.changed_iff.trans (or_iff_right Bool.false_ne_true)⟩

/-- A pass stays below sets that list all that follows from them. -/
theorem firstPass_le (hBounds : rules.firstStep bounds = bounds)
    (h : List.Forall₂ (· ≤ ·) sets bounds) :
    List.Forall₂ (· ≤ ·) (rules.firstPass sets).1 bounds := by
  refine List.foldlRecOn (motive := fun state : InPlace FirstSet =>
    List.Forall₂ (· ≤ ·) state.sets bounds) _ _ h ?_
  rintro state hState ⟨rule, index⟩ hRule
  refine InPlace.modify_le (FirstSet.absorb_adds _) hState fun bound hBound => ?_
  have hFound : Alternative.alternativesFirst (rules.firstOf bounds) rule.alternatives = bound := by
    rw [← hBounds, firstStep, List.getElem?_map, List.mem_zipIdx_iff_getElem?.1 hRule] at hBound
    exact Option.some.inj hBound
  exact hFound ▸ (first_mono (firstOf_mono hState)).2.2 rule.alternatives

/-- Where a pass has changed nothing, nothing is missing. -/
theorem firstStep_le_of_unchanged (hLength : sets.length = rules.length)
    (h : (rules.firstPass sets).2 = false) : List.Forall₂ (· ≤ ·) (rules.firstStep sets) sets := by
  have hVisits := InPlace.Grows.eq_of_foldl
    (fun state entry _ => rules.firstVisit_grows state entry) h
  have hStep : (rules.firstStep sets).length = sets.length := by
    rw [firstStep, List.length_map, hLength]
  refine List.forall₂_iff_get.2 ⟨hStep, fun i hi hi' => ?_⟩
  have hRule : rules[i]? = some rules[i] := List.getElem?_eq_getElem (hLength ▸ hi')
  have hVisit := hVisits (rules[i], i) (List.mem_zipIdx_iff_getElem?.2 hRule)
  simp only [List.get_eq_getElem, firstStep, List.getElem_map]
  exact InPlace.le_of_modify_eq (FirstSet.absorb_adds _) hVisit (List.getElem?_eq_getElem hi')

/-- The passes over the rules come to an end, with the least sets that agree with each other. -/
theorem firstInPlace_eq (rules : Rules) : rules.firstInPlace = some rules.firstSets := by
  -- all the time the sets are below the least ones, which bounds their size
  have hEnd : ∃ last, List.Forall₂ (· ≤ ·) last rules.firstSets ∧
      (rules.firstPass last).2 = false ∧
      rules.firstInPlace = some (rules.firstPass last).1 := by
    refine exists_repeatPass (p := fun sets => List.Forall₂ (· ≤ ·) sets rules.firstSets)
      (fun sets => (sets.map FirstSet.size).sum) ?keep ?grow
      (fun _ => sum_size_le FirstSet.size_strictMono) ?start
    case keep => exact fun sets => firstPass_le rules.firstSets_fixed
    case grow =>
      intro sets _ hChanged
      obtain ⟨hGrow, hTold⟩ := rules.firstPass_grows sets
      exact sum_size_lt FirstSet.size_strictMono hGrow (hTold.1 hChanged)
    case start => exact rules.firstSets_fixed ▸ start_le_firstStep rules.firstSets
  obtain ⟨last, hBelow, hUnchanged, hResult⟩ := hEnd
  -- nothing is missing in the last sets, so that the least ones are not below them
  have hLength : last.length = rules.length := hBelow.length_eq.trans rules.length_firstSets
  have hLast : last = rules.firstSets :=
    forall₂_le_antisymm hBelow (firstSets_le (firstStep_le_of_unchanged hLength hUnchanged))
  have hSame : last = (rules.firstPass last).1 :=
    not_ne_iff.1 (mt (rules.firstPass_grows last).2.2 (Bool.eq_false_iff.1 hUnchanged))
  rw [hResult, ← hSame, hLast]

/-- The passes over the rules end with the least sets that agree with each other. A rule is noted to
match nothing if it derives the empty list of siblings; a label or any node is listed if an
expansion of the rule starts with it after elements that derive no node; the end of a list is never
listed. The order of the rules does not matter. -/
theorem firstInPlace_isLeast (rules : Rules) :
    rules.firstInPlace = some rules.firstSets ∧
    rules.firstStep rules.firstSets = rules.firstSets ∧
    (∀ sets, List.Forall₂ (· ≤ ·) (rules.firstStep sets) sets →
      List.Forall₂ (· ≤ ·) rules.firstSets sets) ∧
    (∀ i first, rules.firstSets[i]? = some first →
      (first.nullable = true ↔ Nonempty (RuleDerivation rules i [] [])) ∧
      (∀ label, label ∈ first.set.labels ↔ rules.RuleReaches i (.label label)) ∧
      (first.set.any = true ↔ rules.RuleReaches i .anyNode) ∧
      first.set.atEnd = false) ∧
    ∀ other : Rules, other.Perm rules → (rules.map fun rule => rule.name.name).Nodup →
      other.firstInPlace = some other.firstSets ∧
      ∀ i j : Nat, other[j]? = rules[i]? → other.firstSets[j]? = rules.firstSets[i]? := by
  refine ⟨rules.firstInPlace_eq, rules.firstSets_fixed, fun _ => firstSets_le, ?sets, ?order⟩
  case sets =>
    intro i first hFirst
    exact ⟨nullable_iff hFirst, fun label => lists_iff hFirst (.label label),
      lists_iff hFirst .anyNode, atEnd_eq_false hFirst⟩
  case order =>
    intro other hPerm hNames
    exact ⟨other.firstInPlace_eq,
      fun _ _ => firstSets_getElem?_eq (first_eq_of_perm hPerm hNames)⟩

namespace Sample

/-- A rule with the given name and the given sequences as alternatives. -/
def ruleOf (name : String) (alternatives : List (List Expr)) : Rule where
  name := ⟨name, Span.start⟩
  isPublic := false
  attributes := []
  params := none
  returns := none
  alternatives := alternatives.map fun elements => .mk none elements Span.start

/-- The left-recursive rule `list : list A | ;`. -/
def list : Rule := ruleOf "list"
  [[.rule 0 Span.start none ⟨"list", Span.start⟩ none, .token 1 Span.start none ⟨"A", Span.start⟩],
    []]

/-- The rule `root : list B ;`. -/
def root : Rule := ruleOf "root"
  [[.rule 2 Span.start none ⟨"list", Span.start⟩ none, .token 3 Span.start none ⟨"B", Span.start⟩]]

/-- The two rules start with the same nodes if they are written in the other order. -/
theorem firstInPlace_swapped :
    List.Perm [root, list] [list, root] ∧
      ([list, root].map fun rule => rule.name.name).Nodup ∧
      (firstSets [root, list])[0]? = (firstSets [list, root])[1]? := by
  have hPerm : List.Perm [root, list] [list, root] := .swap ..
  have hNames : ([list, root].map fun rule => rule.name.name).Nodup := by decide
  obtain ⟨-, -, -, -, hOrder⟩ := firstInPlace_isLeast [list, root]
  exact ⟨hPerm, hNames, (hOrder _ hPerm hNames).2 1 0 rfl⟩

end Sample

end Rules

end TreeGrammar
