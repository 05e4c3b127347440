import Mathlib.Data.Set.Insert
import Mathlib.Order.Bounds.Defs
import TreeGrammar.Lookahead.InPlace
import TreeGrammar.Proofs.Lookahead.Least

/-!
# Sets that grow in place

A pass that changes sets in place is a sequence of changes, each of which adds something to one set
and tells whether it was missing. A pass that has not changed anything has therefore found that
nothing is missing anywhere. As long as no change adds what the least sets do not list, the passes
stay below the least sets; so they come to an end, and they end with the least sets.

## Main definitions

* `InPlace.Grows`: sets have grown, and this has been told
* `Adds`: a change adds what a set lists

## Main results

* `exists_repeatPass`: passes that make a bounded size grow come to an end
* `InPlace.Grows.eq_of_foldl`: where nothing has been told, no change has done anything
-/

namespace TreeGrammar

/-! ### Repeated passes -/

section Repeat

variable {α : Type} {pass : α → α × Bool} {x : α}

theorem repeatPass_of_changed (h : (pass x).2 = true) :
    repeatPass pass x = repeatPass pass (pass x).1 := by
  have : Nonempty α := ⟨x⟩
  rw [repeatPass, repeatM_eq_of_monadTail, repeatM.body]
  cases hPass : pass x with
  | mk next changed =>
    rw [hPass] at h
    obtain rfl : changed = true := h
    rfl

theorem repeatPass_of_unchanged (h : (pass x).2 = false) :
    repeatPass pass x = some (pass x).1 := by
  have : Nonempty α := ⟨x⟩
  rw [repeatPass, repeatM_eq_of_monadTail, repeatM.body]
  cases hPass : pass x with
  | mk next changed =>
    rw [hPass] at h
    obtain rfl : changed = false := h
    rfl

/-- Passes come to an end if each of them that changes something makes a bounded size grow. The last
one has changed nothing. -/
theorem exists_repeatPass {p : α → Prop} (size : α → Nat) {limit : Nat}
    (hKeep : ∀ x, p x → p (pass x).1)
    (hGrow : ∀ x, p x → (pass x).2 = true → size x < size (pass x).1)
    (hLimit : ∀ x, p x → size x ≤ limit) (hx : p x) :
    ∃ last, p last ∧ (pass last).2 = false ∧ repeatPass pass x = some (pass last).1 := by
  induction hRoom : limit - size x using Nat.strong_induction_on generalizing x with
  | _ room ih =>
    cases hChanged : (pass x).2 with
    | false => exact ⟨x, hx, hChanged, repeatPass_of_unchanged hChanged⟩
    | true =>
      have hSize := hGrow x hx hChanged
      have hNext := hLimit _ (hKeep x hx)
      rw [repeatPass_of_changed hChanged]
      exact ih _ (by omega) (hKeep x hx) rfl

end Repeat

/-! ### Changes of one set -/

section Lists

variable {α : Type} [PartialOrder α] {xs ys : List α} {i : Nat} {a b : α}

theorem forall₂_le_set (hi : xs[i]? = some a) (hLe : a ≤ b) :
    List.Forall₂ (· ≤ ·) xs (xs.set i b) := by
  refine List.forall₂_iff_get.2 ⟨(List.length_set).symm, fun j hj hj' => ?_⟩
  simp only [List.get_eq_getElem, List.getElem_set]
  split
  · next hEq =>
    subst hEq
    exact (List.getElem_of_getElem? hi).2 ▸ hLe
  · exact le_refl _

theorem forall₂_set_le (h : List.Forall₂ (· ≤ ·) xs ys) (hb : ∀ y, ys[i]? = some y → b ≤ y) :
    List.Forall₂ (· ≤ ·) (xs.set i b) ys := by
  have hLength : (xs.set i b).length = ys.length := by rw [List.length_set, h.length_eq]
  refine List.forall₂_iff_get.2 ⟨hLength, fun j hj hj' => ?_⟩
  simp only [List.get_eq_getElem, List.getElem_set]
  split
  · next hEq =>
    subst hEq
    exact hb _ (List.getElem?_eq_getElem hj')
  · exact (List.forall₂_iff_get.1 h).2 j (List.length_set ▸ hj) hj'

end Lists

/-- A change adds to a set what `b` lists, and tells whether some of it was missing. -/
structure Adds {α : Type} [PartialOrder α] (change : α → α × Bool) (b : α) : Prop where
  isLUB : ∀ a, IsLUB ({a, b} : Set α) (change a).1
  told_iff : ∀ a, (change a).2 = true ↔ ¬ b ≤ a

theorem LookaheadSet.isLUB_union (a b : LookaheadSet) :
    IsLUB ({a, b} : Set LookaheadSet) (a.union b) := by
  constructor
  · rintro c (rfl | rfl)
    · exact le_union_left ..
    · exact le_union_right ..
  · exact fun c hc => union_le (hc (Set.mem_insert _ _)) (hc (Set.mem_insert_of_mem _ rfl))

theorem LookaheadSet.absorb_adds (b : LookaheadSet) : Adds (·.absorb b) b where
  isLUB a := isLUB_union a b
  told_iff a := by
    rw [absorb, bne_iff_ne, ne_eq, not_iff_not]
    constructor
    · intro hShape
      simp only [Prod.mk.injEq] at hShape
      obtain ⟨hLabels, hAny, hEnd⟩ := hShape
      have hSize : (a.union b).size ≤ a.size := by rw [size, size, hLabels, hAny, hEnd]
      exact eq_of_size_le (le_union_left a b) hSize ▸ le_union_right a b
    · intro hLe
      rw [(union_le (le_refl a) hLe).antisymm (le_union_left a b)]

theorem FirstSet.absorb_adds (b : FirstSet) : Adds (·.absorb b) b where
  isLUB a := by
    constructor
    · rintro c (rfl | rfl)
      · exact le_orElse_left ..
      · exact le_orElse_right ..
    · intro c hc
      obtain ⟨ha, hb⟩ := And.intro (hc (Set.mem_insert _ _)) (hc (Set.mem_insert_of_mem _ rfl))
      exact ⟨LookaheadSet.union_le ha.1 hb.1, fun h => (Bool.or_eq_true_iff.1 h).elim ha.2 hb.2⟩
  told_iff a := by
    have hSet := (LookaheadSet.absorb_adds b.set).told_iff a.set
    rw [absorb, Bool.or_eq_true, hSet, le_def]
    cases a.nullable <;> cases b.nullable <;> simp

namespace Adds

variable {α : Type} [PartialOrder α] {change : α → α × Bool} {a b c : α}

theorem le_fst (h : Adds change b) : a ≤ (change a).1 := (h.isLUB a).1 (Set.mem_insert _ _)

theorem added_le_fst (h : Adds change b) : b ≤ (change a).1 :=
  (h.isLUB a).1 (Set.mem_insert_of_mem _ rfl)

theorem fst_le (h : Adds change b) (ha : a ≤ c) (hb : b ≤ c) : (change a).1 ≤ c := by
  refine (h.isLUB a).2 ?_
  rintro d (rfl | rfl)
  · exact ha
  · exact hb

/-- A set is changed if this is told, and only then. -/
theorem told_iff_ne (h : Adds change b) : (change a).2 = true ↔ (change a).1 ≠ a := by
  rw [h.told_iff, not_iff_not]
  exact ⟨fun hLe => (h.fst_le (le_refl a) hLe).antisymm h.le_fst, fun hEq => hEq ▸ h.added_le_fst⟩

end Adds

/-! ### Changes of lists of sets -/

namespace InPlace

variable {α : Type} [PartialOrder α]

/-- The sets have grown from one state to another one, and it is told if they have changed. -/
structure Grows (before after : InPlace α) : Prop where
  le : List.Forall₂ (· ≤ ·) before.sets after.sets
  changed_iff : after.changed = true ↔ before.changed = true ∨ before.sets ≠ after.sets

namespace Grows

variable {ι : Type} {s t u : InPlace α} {step : InPlace α → ι → InPlace α} {xs : List ι}

theorem refl (s : InPlace α) : Grows s s :=
  ⟨List.forall₂_same.2 fun _ _ => le_refl _, ⟨.inl, fun h => h.resolve_right fun hNe => hNe rfl⟩⟩

theorem trans (h : Grows s t) (h' : Grows t u) : Grows s u where
  le := forall₂_le_trans h.le h'.le
  changed_iff := by
    rw [h'.changed_iff, h.changed_iff, or_assoc]
    refine or_congr_right ⟨fun hNe hEq => ?_, fun hNe => ?_⟩
    · -- sets that grow and are the same at the end have been the same all the time
      have hBack : t.sets = s.sets := forall₂_le_antisymm (hEq ▸ h'.le) h.le
      rcases hNe with hNe | hNe
      · exact hNe hBack.symm
      · exact hNe (hBack.trans hEq)
    · by_cases hFirst : s.sets = t.sets
      · exact .inr (hFirst ▸ hNe)
      · exact .inl hFirst

/-- Where no change is told, there is none. -/
theorem eq_of_unchanged (h : Grows s t) (hUnchanged : t.changed = false) : t = s := by
  have hNot := mt h.changed_iff.2 (Bool.eq_false_iff.1 hUnchanged)
  rw [not_or, not_ne_iff, Bool.not_eq_true] at hNot
  obtain ⟨sSets, sChanged⟩ := s
  obtain ⟨tSets, tChanged⟩ := t
  obtain ⟨rfl, rfl⟩ := hNot
  exact congrArg _ hUnchanged

theorem foldl (h : ∀ s, ∀ x ∈ xs, Grows s (step s x)) (s : InPlace α) :
    Grows s (xs.foldl step s) := by
  induction xs generalizing s with
  | nil => exact refl s
  | cons x xs ih =>
    obtain ⟨hHead, hTail⟩ := forall_and.1 fun s => List.forall_mem_cons.1 (h s)
    exact (hHead s).trans (ih hTail _)

/-- If steps have told no change, then each of them leaves the state as it is. -/
theorem eq_of_foldl (h : ∀ s, ∀ x ∈ xs, Grows s (step s x))
    (hUnchanged : (xs.foldl step s).changed = false) : ∀ x ∈ xs, step s x = s := by
  induction xs with
  | nil => exact nofun
  | cons x xs ih =>
    obtain ⟨hHead, hTail⟩ := forall_and.1 fun s => List.forall_mem_cons.1 (h s)
    rw [List.foldl_cons] at hUnchanged
    have hRest : step s x = xs.foldl step (step s x) :=
      ((foldl hTail (step s x)).eq_of_unchanged hUnchanged).symm
    have hStep : step s x = s := (hHead s).eq_of_unchanged (hRest ▸ hUnchanged)
    rw [hStep] at hUnchanged
    exact List.forall_mem_cons.2 ⟨hStep, ih hTail hUnchanged⟩

end Grows

section Modify

variable {state : InPlace α} {change : α → α × Bool} {b : α} {ys : List α} {i : Nat}

theorem modify_grows (h : Adds change b) (state : InPlace α) (i : Nat) :
    Grows state (state.modify i change) := by
  rw [modify]
  split
  · next a ha =>
    refine ⟨forall₂_le_set ha h.le_fst, ?_⟩
    have hSet : state.sets ≠ state.sets.set i (change a).1 ↔ (change a).1 ≠ a := by
      obtain ⟨hi, rfl⟩ := List.getElem?_eq_some_iff.1 ha
      rw [not_iff_not]
      constructor
      · intro hEq
        have hGet := congrArg (·[i]?) hEq
        simp only [List.getElem?_set_self hi, ha, Option.some.injEq] at hGet
        exact hGet.symm
      · intro hEq
        rw [hEq, List.set_getElem_self]
    rw [hSet, ← h.told_iff_ne, ← Bool.or_eq_true]
  · exact Grows.refl state

/-- What stays below bounds is still below them after a change that adds no more than that. -/
theorem modify_le (h : Adds change b) (hState : List.Forall₂ (· ≤ ·) state.sets ys)
    (hb : ∀ y, ys[i]? = some y → b ≤ y) :
    List.Forall₂ (· ≤ ·) (state.modify i change).sets ys := by
  rw [modify]
  split
  · next a ha =>
    refine forall₂_set_le hState fun y hy => h.fst_le ?_ (hb y hy)
    obtain ⟨y', hy', hLe⟩ := exists_getElem?_of_forall₂ hState ha
    exact Option.some.inj (hy'.symm.trans hy) ▸ hLe
  · exact hState

/-- Nothing is missing where a change has done nothing. -/
theorem le_of_modify_eq (h : Adds change b) (hEq : state.modify i change = state) {a : α}
    (ha : state.sets[i]? = some a) : b ≤ a := by
  have hSets : state.sets.set i (change a).1 = state.sets := by
    rw [modify, ha] at hEq
    exact congrArg InPlace.sets hEq
  obtain ⟨hi, -⟩ := List.getElem?_eq_some_iff.1 ha
  have hGet := congrArg (·[i]?) hSets
  simp only [List.getElem?_set_self hi, ha, Option.some.injEq] at hGet
  exact hGet ▸ h.added_le_fst

end Modify

end InPlace

end TreeGrammar
