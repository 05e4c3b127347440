import Mathlib.Data.List.Perm.Subperm
import Mathlib.Data.Nat.Basic
import Mathlib.Order.Monotone.Defs
import TreeGrammar.Proofs.Grammar.Elements

/-!
# The order of lookahead sets

A lookahead set is below another one if it lists no symbol that the other one does not list. The
operations on lookahead sets and on the sets of first nodes keep this order, and a set that lies
strictly below another one is smaller.

## Main definitions

* `LookaheadSet.size`, `FirstSet.size`: the number of symbols that a set lists
* `LookaheadSet.Within`: a set lists no labels but given ones

## Main results

* `LookaheadSet.accepts_mono`: what is accepted by a set is accepted by the sets above it
* `LookaheadSet.size_strictMono`, `FirstSet.size_strictMono`: sets grow with their order
* `first_mono`: what elements may start with grows with what rules may start with
-/

namespace TreeGrammar

namespace LabelSet

variable {a b : LabelSet} {labels : List String}

theorem nodup (set : LabelSet) : set.toList.Nodup := set.sorted.imp ne_of_lt

theorem length_le_of_subset (h : a.toList ⊆ labels) : a.toList.length ≤ labels.length :=
  (List.Nodup.subperm a.nodup h).length_le

/-- A set inside another one of the same size is that set. -/
theorem eq_of_subset (h : a.toList ⊆ b.toList) (hLength : b.toList.length ≤ a.toList.length) :
    a = b := by
  have hPerm := (List.Nodup.subperm a.nodup h).perm_of_length_le hLength
  exact LabelSet.ext fun label => hPerm.mem_iff

end LabelSet

namespace LookaheadSet

variable {a b c : LookaheadSet} {symbol : Option String}

instance : PartialOrder LookaheadSet where
  le a b := a.labels.toList ⊆ b.labels.toList ∧ (a.any → b.any) ∧ (a.atEnd → b.atEnd)
  le_refl a := ⟨List.Subset.refl _, id, id⟩
  le_trans a b c hab hbc :=
    ⟨List.Subset.trans hab.1 hbc.1, fun h => hbc.2.1 (hab.2.1 h), fun h => hbc.2.2 (hab.2.2 h)⟩
  le_antisymm a b hab hba := by
    obtain ⟨aLabels, aAny, aEnd⟩ := a
    obtain ⟨bLabels, bAny, bEnd⟩ := b
    have hLabels : aLabels = bLabels := LabelSet.ext fun label => ⟨@hab.1 label, @hba.1 label⟩
    have hAny : aAny = bAny := Bool.eq_iff_iff.2 ⟨hab.2.1, hba.2.1⟩
    have hEnd : aEnd = bEnd := Bool.eq_iff_iff.2 ⟨hab.2.2, hba.2.2⟩
    rw [hLabels, hAny, hEnd]

theorem le_def : a ≤ b ↔
    a.labels.toList ⊆ b.labels.toList ∧ (a.any → b.any) ∧ (a.atEnd → b.atEnd) := Iff.rfl

theorem empty_le (a : LookaheadSet) : (∅ : LookaheadSet) ≤ a :=
  ⟨List.nil_subset _, nofun, nofun⟩

theorem le_union_left (a b : LookaheadSet) : a ≤ a.union b :=
  ⟨fun _ h => LabelSet.mem_union.2 (.inl h), fun h => by simp [union, h],
    fun h => by simp [union, h]⟩

theorem le_union_right (a b : LookaheadSet) : b ≤ a.union b :=
  ⟨fun _ h => LabelSet.mem_union.2 (.inr h), fun h => by simp [union, h],
    fun h => by simp [union, h]⟩

theorem union_le (ha : a ≤ c) (hb : b ≤ c) : a.union b ≤ c := by
  refine ⟨fun label h => ?_, fun h => ?_, fun h => ?_⟩
  · exact (LabelSet.mem_union.1 h).elim (@ha.1 label) (@hb.1 label)
  · exact (Bool.or_eq_true_iff.1 h).elim ha.2.1 hb.2.1
  · exact (Bool.or_eq_true_iff.1 h).elim ha.2.2 hb.2.2

theorem union_mono {a' b' : LookaheadSet} (ha : a ≤ a') (hb : b ≤ b') :
    a.union b ≤ a'.union b' :=
  union_le (ha.trans (le_union_left ..)) (hb.trans (le_union_right ..))

/-- What is accepted by a set is accepted by the sets above it. -/
theorem accepts_mono (h : a ≤ b) (ha : a.accepts symbol) : b.accepts symbol := by
  cases symbol with
  | none => exact h.2.2 ha
  | some label =>
    simp only [accepts, acceptsLabel, Bool.or_eq_true, decide_eq_true_eq] at ha ⊢
    exact ha.imp h.2.1 (@h.1 label)

/-! ### Sizes -/

/-- The number of symbols that a set lists. -/
def size (set : LookaheadSet) : Nat :=
  set.labels.toList.length + set.any.toNat + set.atEnd.toNat

/-- A set lists no labels but those of a list. -/
def Within (labels : List String) (set : LookaheadSet) : Prop := set.labels.toList ⊆ labels

theorem Within.size_le {labels : List String} (h : a.Within labels) :
    a.size ≤ labels.length + 2 := by
  have hLength := LabelSet.length_le_of_subset h
  have hAny := a.any.toNat_le
  have hEnd := a.atEnd.toNat_le
  rw [size]
  omega

theorem Within.union {labels : List String} (ha : a.Within labels) (hb : b.Within labels) :
    (a.union b).Within labels :=
  fun _ h => (LabelSet.mem_union.1 h).elim (@ha _) (@hb _)

theorem within_empty (labels : List String) : (∅ : LookaheadSet).Within labels :=
  List.nil_subset _

theorem toNat_le_of_imp {x y : Bool} (h : x → y) : x.toNat ≤ y.toNat := by
  cases x with
  | false => exact Nat.zero_le _
  | true => exact (congrArg Bool.toNat (h rfl)).ge

theorem eq_of_toNat_le {x y : Bool} (h : x → y) (hle : y.toNat ≤ x.toNat) : x = y := by
  cases x <;> cases y <;> simp_all

theorem size_le_of_le (h : a ≤ b) : a.size ≤ b.size := by
  have hLabels := LabelSet.length_le_of_subset h.1
  have hAny := toNat_le_of_imp h.2.1
  have hEnd := toNat_le_of_imp h.2.2
  rw [size, size]
  omega

/-- Sets in order that are of the same size are equal. -/
theorem eq_of_size_le (h : a ≤ b) (hle : b.size ≤ a.size) : a = b := by
  have hLabels := LabelSet.length_le_of_subset h.1
  have hAny := toNat_le_of_imp h.2.1
  have hEnd := toNat_le_of_imp h.2.2
  rw [size, size] at hle
  have hLabelsEq : a.labels = b.labels := LabelSet.eq_of_subset h.1 (by omega)
  have hAnyEq : a.any = b.any := eq_of_toNat_le h.2.1 (by omega)
  have hEndEq : a.atEnd = b.atEnd := eq_of_toNat_le h.2.2 (by omega)
  exact h.antisymm ⟨by rw [hLabelsEq]; exact List.Subset.refl _, by rw [hAnyEq]; exact id,
    by rw [hEndEq]; exact id⟩

/-- A set strictly below another one is smaller. -/
theorem size_strictMono : StrictMono size := by
  intro a b h
  refine lt_of_le_of_ne (size_le_of_le h.le) fun hEq => ?_
  exact h.ne (eq_of_size_le h.le hEq.ge)

end LookaheadSet

namespace FirstSet

variable {a b c d : FirstSet} {f g : LookaheadSet} {symbol : Option String}

instance : PartialOrder FirstSet where
  le a b := a.set ≤ b.set ∧ (a.nullable → b.nullable)
  le_refl a := ⟨le_refl _, id⟩
  le_trans a b c hab hbc := ⟨hab.1.trans hbc.1, fun h => hbc.2 (hab.2 h)⟩
  le_antisymm a b hab hba := by
    obtain ⟨aSet, aNullable⟩ := a
    obtain ⟨bSet, bNullable⟩ := b
    have hSet : aSet = bSet := hab.1.antisymm hba.1
    have hNullable : aNullable = bNullable := Bool.eq_iff_iff.2 ⟨hab.2, hba.2⟩
    rw [hSet, hNullable]

theorem le_def : a ≤ b ↔ a.set ≤ b.set ∧ (a.nullable → b.nullable) := Iff.rfl

theorem bot_le (a : FirstSet) : ({} : FirstSet) ≤ a := ⟨LookaheadSet.empty_le _, nofun⟩

theorem andThen_mono (hab : a ≤ b) (hcd : c ≤ d) : a.andThen c ≤ b.andThen d := by
  by_cases ha : a.nullable
  · have hb := hab.2 ha
    simp only [andThen, ha, hb, if_true]
    exact ⟨LookaheadSet.union_mono hab.1 hcd.1, hcd.2⟩
  · rw [andThen, if_neg ha, andThen]
    split
    · exact ⟨hab.1.trans (LookaheadSet.le_union_left ..), fun h => absurd h ha⟩
    · exact hab

theorem orElse_mono (hab : a ≤ b) (hcd : c ≤ d) : a.orElse c ≤ b.orElse d := by
  refine ⟨LookaheadSet.union_mono hab.1 hcd.1, fun h => ?_⟩
  exact Bool.or_eq_true_iff.2 ((Bool.or_eq_true_iff.1 h).imp hab.2 hcd.2)

theorem orNothing_mono (hab : a ≤ b) : a.orNothing ≤ b.orNothing := ⟨hab.1, fun _ => rfl⟩

theorem le_orElse_left (a b : FirstSet) : a ≤ a.orElse b :=
  ⟨LookaheadSet.le_union_left .., fun h => by simp [orElse, h]⟩

theorem le_orElse_right (a b : FirstSet) : b ≤ a.orElse b :=
  ⟨LookaheadSet.le_union_right .., fun h => by simp [orElse, h]⟩

theorem set_le_predict (a : FirstSet) (f : LookaheadSet) : a.set ≤ a.predict f := by
  rw [predict]
  split
  · exact LookaheadSet.le_union_left ..
  · exact le_refl _

theorem follow_le_predict (h : a.nullable) : f ≤ a.predict f := by
  rw [predict, if_pos h]
  exact LookaheadSet.le_union_right ..

theorem predict_mono (hab : a ≤ b) (hfg : f ≤ g) : a.predict f ≤ b.predict g := by
  by_cases ha : a.nullable
  · rw [predict, predict, if_pos ha, if_pos (hab.2 ha)]
    exact LookaheadSet.union_mono hab.1 hfg
  · rw [predict, if_neg ha]
    exact hab.1.trans (set_le_predict ..)

/-- What a match that is followed by another one predicts. -/
theorem predict_andThen (a b : FirstSet) (f : LookaheadSet) :
    a.predict (b.predict f) ≤ (a.andThen b).predict f := by
  by_cases ha : a.nullable
  · by_cases hb : b.nullable
    · simp only [predict, andThen, ha, hb, if_true]
      refine LookaheadSet.union_le ?_ ?_
      · exact (LookaheadSet.le_union_left ..).trans (LookaheadSet.le_union_left ..)
      · exact LookaheadSet.union_mono (LookaheadSet.le_union_right ..) (le_refl _)
    · simp [predict, andThen, ha, hb]
  · simp [predict, andThen, ha]

/-! ### Sizes -/

/-- The number of symbols that a set lists, nothing included. -/
def size (first : FirstSet) : Nat := first.set.size + first.nullable.toNat

theorem size_strictMono : StrictMono size := by
  intro a b h
  have hSet := LookaheadSet.size_le_of_le h.le.1
  have hNullable := LookaheadSet.toNat_le_of_imp h.le.2
  refine lt_of_le_of_ne (Nat.add_le_add hSet hNullable) fun hEq => h.ne ?_
  rw [size, size] at hEq
  have hSetEq : a.set = b.set := LookaheadSet.eq_of_size_le h.le.1 (by omega)
  have hNullableEq : a.nullable = b.nullable :=
    LookaheadSet.eq_of_toNat_le h.le.2 (by omega)
  exact h.le.antisymm ⟨hSetEq.ge, by rw [hNullableEq]; exact id⟩

end FirstSet

/-! ### The sets of elements -/

section Elements

variable {rule rule' : String → FirstSet}

/-- What elements may start with grows with what rules may start with. -/
theorem first_mono (h : ∀ name, rule name ≤ rule' name) :
    (∀ expr : Expr, expr.first rule ≤ expr.first rule') ∧
    (∀ exprs, Alternative.sequenceFirst rule exprs ≤ Alternative.sequenceFirst rule' exprs) ∧
    ∀ alternatives, Alternative.alternativesFirst rule alternatives ≤
      Alternative.alternativesFirst rule' alternatives := by
  refine Expr.induction ?node ?token ?wildcard ?rule ?subrule ?action ?predicate ?nil ?cons
    ?none ?alternative
  case rule => exact fun _ _ _ name _ => h name.name
  case subrule =>
    intro id span repetition alternatives ih
    rw [Expr.first, Expr.first]
    cases repetition.maySkip
    · exact ih
    · exact FirstSet.orNothing_mono ih
  case cons => exact fun _ _ ihExpr ihExprs => FirstSet.andThen_mono ihExpr ihExprs
  case alternative => exact fun _ _ _ _ ihElements ih => FirstSet.orElse_mono ihElements ih
  all_goals
    intros
    exact le_refl _

end Elements

end TreeGrammar
