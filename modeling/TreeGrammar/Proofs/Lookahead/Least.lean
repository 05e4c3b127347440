import Mathlib.Data.List.Nodup
import TreeGrammar.Proofs.Lookahead.FixedPoint

/-!
# The least sets of rules

Sets of rules that agree with each other are not unique: a rule that does nothing but call itself
agrees with any set. The computed sets are below all others. They depend on the rules only by the
rule that each name stands for, so that the order of the rules does not matter.

## Main definitions

* `Rules.declared?`: the rule that a name stands for

## Main results

* `Rules.firstSets_le`, `Rules.followSets_le`: sets that are closed under a step are above the
  computed ones
* `Rules.first_eq_of_perm`: rules in another order start with the same nodes
-/

namespace TreeGrammar

/-! ### Lists of sets in order -/

section Pointwise

variable {α : Type} [PartialOrder α] {xs ys zs : List α}

theorem forall₂_le_trans (h : List.Forall₂ (· ≤ ·) xs ys) (h' : List.Forall₂ (· ≤ ·) ys zs) :
    List.Forall₂ (· ≤ ·) xs zs := by
  induction h generalizing zs with
  | nil => exact h'
  | cons hxy _ ih =>
    cases h' with
    | cons hyz hRest => exact .cons (hxy.trans hyz) (ih hRest)

theorem forall₂_le_antisymm (h : List.Forall₂ (· ≤ ·) xs ys) (h' : List.Forall₂ (· ≤ ·) ys xs) :
    xs = ys := by
  induction h with
  | nil => rfl
  | cons hxy _ ih =>
    cases h' with
    | cons hyx hRest => rw [hxy.antisymm hyx, ih hRest]

omit [PartialOrder α] in
theorem exists_getElem?_of_forall₂ {r : α → α → Prop} (h : List.Forall₂ r xs ys) {i : Nat} {x : α}
    (hx : xs[i]? = some x) : ∃ y, ys[i]? = some y ∧ r x y := by
  obtain ⟨hi, rfl⟩ := List.getElem?_eq_some_iff.1 hx
  have hi' : i < ys.length := h.length_eq ▸ hi
  exact ⟨ys[i], List.getElem?_eq_getElem hi', (List.forall₂_iff_get.1 h).2 i hi hi'⟩

end Pointwise

namespace Rules

variable {rules other : Rules} {name : String} {rule : Rule}

/-! ### What rules may start with -/

/-- The rule that a name stands for: the first rule with the name. -/
def declared? (rules : Rules) (name : String) : Option Rule :=
  rules.find? (·.name.name = name)

theorem declared?_eq (rules : Rules) (name : String) :
    rules.declared? name = (rules.index? name).bind (rules[·]?) :=
  List.find?_eq_bind_findIdx?_getElem?

theorem mem_of_declared? (h : rules.declared? name = some rule) :
    rule ∈ rules ∧ rule.name.name = name := by
  have hName := @List.find?_some Rule (fun rule => decide (rule.name.name = name)) rule rules h
  exact ⟨List.mem_of_find?_eq_some h, of_decide_eq_true hName⟩

/-- Names stand for the rules that have them if no two rules have the same name. -/
theorem declared?_eq_some_iff (hNames : (rules.map fun rule => rule.name.name).Nodup) :
    rules.declared? name = some rule ↔ rule ∈ rules ∧ rule.name.name = name := by
  refine ⟨mem_of_declared?, ?_⟩
  rintro ⟨hRule, hName⟩
  obtain ⟨found, hFound⟩ : ∃ found, rules.declared? name = some found :=
    Option.isSome_iff_exists.1 (List.find?_isSome.2 ⟨rule, hRule, decide_eq_true hName⟩)
  obtain ⟨hMem, hFoundName⟩ := mem_of_declared? hFound
  have hEq : found = rule :=
    List.inj_on_of_nodup_map hNames hMem hRule (hFoundName.trans hName.symm)
  rw [hFound, hEq]

/-- Names stand for the same rules in whatever order these are written. -/
theorem declared?_of_perm (hPerm : other.Perm rules)
    (hNames : (rules.map fun rule => rule.name.name).Nodup) (name : String) :
    other.declared? name = rules.declared? name := by
  refine Option.ext fun rule => ?_
  have hOther : (other.map fun rule => rule.name.name).Nodup := (hPerm.map _).nodup_iff.2 hNames
  rw [declared?_eq_some_iff hOther, declared?_eq_some_iff hNames, hPerm.mem_iff]

/-- What is looked up among sets that are computed rule by rule. -/
theorem firstOf_map (f : Rule → FirstSet) (name : String) :
    rules.firstOf (rules.map f) name = ((rules.declared? name).map f).getD {} := by
  rw [firstOf, declared?_eq]
  cases rules.index? name with
  | none => rfl
  | some i => simp only [Option.bind_some, List.getElem?_map]

theorem first_eq_of_declared? (h : rules.declared? name = some rule) :
    rules.first name = Alternative.alternativesFirst rules.first rule.alternatives := by
  rw [declared?_eq] at h
  obtain ⟨i, hIndex, hRule⟩ := Option.bind_eq_some_iff.1 h
  exact first_eq hIndex hRule

/-- Sets that list all that follows from them are above the computed ones. -/
theorem firstSets_le {sets : List FirstSet}
    (h : List.Forall₂ (· ≤ ·) (rules.firstStep sets) sets) :
    List.Forall₂ (· ≤ ·) rules.firstSets sets := by
  refine iterate_induction (p := fun xs => List.Forall₂ (· ≤ ·) xs sets) ?step _ ?start
  case step => exact fun xs hxs => forall₂_le_trans (firstStep_mono hxs) h
  case start => exact forall₂_le_trans (start_le_firstStep sets) h

/-- What names start with is the least that agrees with the rules that the names stand for. -/
theorem first_le {first : String → FirstSet}
    (h : ∀ name rule, rules.declared? name = some rule →
      Alternative.alternativesFirst first rule.alternatives ≤ first name) (name : String) :
    rules.first name ≤ first name := by
  refine iterate_induction (p := fun sets => ∀ name, rules.firstOf sets name ≤ first name)
    (fun sets hSets name => ?_) _ (fun name => ?_) name
  · rw [firstStep, firstOf_map]
    cases hDeclared : rules.declared? name with
    | none => exact FirstSet.bot_le _
    | some rule => exact ((first_mono hSets).2.2 rule.alternatives).trans (h name rule hDeclared)
  · rw [firstOf_map]
    cases rules.declared? name <;> exact FirstSet.bot_le _

/-- What names start with depends only on the rules that the names stand for. -/
theorem first_eq_of_declared (h : ∀ name, other.declared? name = rules.declared? name) :
    other.first = rules.first := by
  funext name
  refine le_antisymm (first_le (fun name rule hRule => ?_) name)
    (first_le (fun name rule hRule => ?_) name)
  · exact (first_eq_of_declared? ((h name).symm.trans hRule)).ge
  · exact (first_eq_of_declared? ((h name).trans hRule)).ge

/-- What names start with does not depend on the order of the rules. -/
theorem first_eq_of_perm (hPerm : other.Perm rules)
    (hNames : (rules.map fun rule => rule.name.name).Nodup) : other.first = rules.first :=
  first_eq_of_declared (declared?_of_perm hPerm hNames)

theorem length_firstSets (rules : Rules) : rules.firstSets.length = rules.length := by
  rw [← rules.firstSets_fixed, firstStep, List.length_map]

/-- A rule that stands at two places in two grammars has the same set in both if the names stand for
the same rules. -/
theorem firstSets_getElem?_eq (h : other.first = rules.first) {i j : Nat}
    (hRule : other[j]? = rules[i]?) : other.firstSets[j]? = rules.firstSets[i]? := by
  cases hi : rules[i]? with
  | none =>
    have hj := hRule.trans hi
    rw [List.getElem?_eq_none_iff] at hi hj
    rw [List.getElem?_eq_none (rules.length_firstSets.trans_le hi),
      List.getElem?_eq_none (other.length_firstSets.trans_le hj)]
  | some rule =>
    rw [firstSets_getElem? hi, firstSets_getElem? (hRule.trans hi), h]

/-! ### What may follow rules -/

/-- Sets that list all that follows from them are above the computed ones. -/
theorem followSets_le {first : String → FirstSet} {sets : List LookaheadSet}
    (h : List.Forall₂ (· ≤ ·) (rules.followStep first sets) sets) :
    List.Forall₂ (· ≤ ·) (rules.followSets first) sets := by
  refine iterate_induction (p := fun xs => List.Forall₂ (· ≤ ·) xs sets) ?step _ ?start
  case step => exact fun xs hxs => forall₂_le_trans (followStep_mono hxs) h
  case start =>
    have hLength : (rules.map fun _ => (∅ : LookaheadSet)).length = sets.length := by
      rw [List.length_map, ← h.length_eq, followStep, List.length_mapIdx]
    refine List.forall₂_iff_get.2 ⟨hLength, fun i hi hi' => ?_⟩
    simp only [List.get_eq_getElem, List.getElem_map]
    exact LookaheadSet.empty_le _

end Rules

end TreeGrammar
