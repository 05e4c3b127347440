import TreeGrammar.Proofs.Lookahead.Prediction

/-!
# What derivations consume

A sequence of elements derives nodes at the start of a list of siblings and leaves the end of the
list. Only a sequence that may match nothing leaves the whole list.

## Main results

* `Derivation.suffix`: what is left is the end of the list
* `Derivation.nullable`: a sequence that consumes no node may match nothing
-/

namespace TreeGrammar

/-! ### Sizes of lists -/

namespace Tree

variable {tree : Tree} {siblings before after : List Tree}

theorem size_pos (tree : Tree) : 0 < tree.size := by
  cases tree with
  | node label text children =>
    rw [size]
    omega

/-- The children of a node are fewer nodes than a list with the node. -/
theorem sizes_children_lt (tree : Tree) (siblings : List Tree) :
    sizes tree.children < sizes (tree :: siblings) := by
  cases tree with
  | node label text inner =>
    have hChildren : (node label text inner).children = inner := rfl
    rw [hChildren, sizes, size]
    omega

theorem sizes_lt_cons (tree : Tree) (siblings : List Tree) :
    sizes siblings < sizes (tree :: siblings) := by
  have hPos := tree.size_pos
  rw [sizes]
  omega

/-- The end of a list has fewer nodes than the list, unless it is the whole list. -/
theorem sizes_lt_of_suffix (h : after <:+ before) (hNe : after ≠ before) :
    sizes after < sizes before := by
  induction before with
  | nil => exact absurd (List.suffix_nil.1 h) hNe
  | cons tree siblings ih =>
    -- an end that is not the whole list is an end of the list without its first node
    have hSiblings : after <:+ siblings := (List.suffix_cons_iff.1 h).resolve_left hNe
    have hLt := sizes_lt_cons tree siblings
    by_cases hEq : after = siblings
    · exact hEq ▸ hLt
    · exact Nat.lt_trans (ih hSiblings hEq) hLt

end Tree

/-- Two lists are equal if each of them is an end of the other one. -/
theorem eq_of_suffixes {α : Type} {xs ys : List α} (h : xs <:+ ys) (h' : ys <:+ xs) : xs = ys :=
  h.eq_of_length (Nat.le_antisymm h.length_le h'.length_le)

/-! ### What may match nothing -/

section Nullable

variable {first : String → FirstSet} {expr : Expr} {exprs : List Expr}
  {alternatives : List Alternative} {index id : Nat} {alternative : Alternative} {span : Span}
  {repetition : Repetition}

theorem FirstSet.nullable_andThen (a b : FirstSet) :
    (a.andThen b).nullable = (a.nullable && b.nullable) := by
  rw [andThen]
  cases hNullable : a.nullable with
  | true => simp
  | false => simp [hNullable]

/-- A sequence may match nothing if its elements may match nothing. -/
theorem nullable_cons : (Alternative.sequenceFirst first (expr :: exprs)).nullable ↔
    (expr.first first).nullable ∧ (Alternative.sequenceFirst first exprs).nullable := by
  rw [Alternative.sequenceFirst, FirstSet.nullable_andThen, Bool.and_eq_true]

/-- A group may match nothing if one of its alternatives may. -/
theorem nullable_subrule (hChosen : alternatives[index]? = some alternative)
    (h : (Alternative.sequenceFirst first alternative.elements).nullable) :
    ((Expr.subrule id span repetition alternatives).first first).nullable := by
  have hAlternatives : (Alternative.alternativesFirst first alternatives).nullable :=
    (sequenceFirst_le_alternativesFirst hChosen).2 h
  exact alternativesFirst_le_first.2 hAlternatives

/-- A group that may be left out may match nothing. -/
theorem nullable_of_maySkip (h : repetition.maySkip = true) :
    ((Expr.subrule id span repetition alternatives).first first).nullable := by
  rw [Expr.first, if_pos h]
  rfl

/-- The elements after a group may match nothing if these and the further rounds may. -/
theorem nullable_of_again
    (h : (Alternative.sequenceFirst first (repetition.again id span alternatives ++
      exprs)).nullable) : (Alternative.sequenceFirst first exprs).nullable := by
  rw [Repetition.again] at h
  split at h
  · exact (nullable_cons.1 h).2
  · exact h

end Nullable

/-! ### Derivations -/

namespace Derivation

variable {rules : Rules} {owner : Nat} {exprs : List Expr} {before after : List Tree}

/-- A derivation leaves the end of a list of siblings. -/
theorem suffix (derivation : Derivation rules owner exprs before after) : after <:+ before := by
  induction derivation with
  | done => exact List.suffix_rfl
  | token _ _ ih | wildcard _ ih => exact ih.trans (List.suffix_cons ..)
  | node _ _ _ _ ih => exact ih.trans (List.suffix_cons ..)
  | call _ _ _ _ _ ihBody ihLater => exact ihLater.trans ihBody
  | enter _ _ _ ihBody ihLater => exact ihLater.trans ihBody
  | leave _ _ ih | action _ ih | predicate _ ih => exact ih

/-- A sequence that consumes no node may match nothing. -/
theorem nullable (derivation : Derivation rules owner exprs before after) (h : after = before) :
    (Alternative.sequenceFirst rules.first exprs).nullable := by
  induction derivation with
  | done => rfl
  | token _ later _ | wildcard later _ | node _ _ later _ _ =>
    -- a node that is consumed is missing at the end
    have hLe := later.suffix.length_le
    rw [h, List.length_cons] at hLe
    omega
  | @call _ _ _ _ name _ _ _ _ _ _ called _ alternative hCallee hRule hChosen body later ihBody
      ihLater =>
    subst h
    have hMiddle := eq_of_suffixes body.suffix later.suffix
    have hBody : (Alternative.sequenceFirst rules.first alternative.elements).nullable :=
      ihBody hMiddle
    have hCalled : (rules.first name.name).nullable := by
      rw [Rules.first_eq hCallee hRule]
      exact (sequenceFirst_le_alternativesFirst hChosen).2 hBody
    exact nullable_cons.2 ⟨hCalled, ihLater hMiddle.symm⟩
  | enter hChosen body later ihBody ihLater =>
    subst h
    have hMiddle := eq_of_suffixes body.suffix later.suffix
    exact nullable_cons.2 ⟨nullable_subrule hChosen (ihBody hMiddle),
      nullable_of_again (ihLater hMiddle.symm)⟩
  | leave hSkip _ ih => exact nullable_cons.2 ⟨nullable_of_maySkip hSkip, ih h⟩
  | action _ ih => exact nullable_cons.2 ⟨rfl, ih h⟩
  | predicate _ ih => exact nullable_cons.2 ⟨rfl, ih h⟩

end Derivation

end TreeGrammar
