import TreeGrammar.Lookahead.Follow

/-!
# Induction on elements

Elements hold alternatives, and alternatives hold sequences of elements. What is proved about all of
them at once is proved by one induction, whose cases are the kinds of elements and the two ways in
which sequences and lists of alternatives are built.

## Main results

* `Expr.induction`: induction on elements, sequences and alternatives together
* `Rule.perm_occurrences`: the occurrences in a rule are its elements
-/

namespace TreeGrammar

section Induction

variable {p : Expr → Prop} {q : List Expr → Prop} {r : List Alternative → Prop}

/-- Induction on elements, sequences of elements and alternatives together. -/
theorem Expr.induction
    (node : ∀ id span label name children, q children → p (.node id span label name children))
    (token : ∀ id span label name, p (.token id span label name))
    (wildcard : ∀ id span label, p (.wildcard id span label))
    (rule : ∀ id span label name args, p (.rule id span label name args))
    (subrule : ∀ id span repetition alternatives, r alternatives →
      p (.subrule id span repetition alternatives))
    (action : ∀ id code, p (.action id code))
    (predicate : ∀ id code, p (.predicate id code))
    (nil : q [])
    (cons : ∀ expr exprs, p expr → q exprs → q (expr :: exprs))
    (none : r [])
    (alternative : ∀ guard elements span alternatives, q elements → r alternatives →
      r (.mk guard elements span :: alternatives)) :
    (∀ expr, p expr) ∧ (∀ exprs, q exprs) ∧ ∀ alternatives, r alternatives :=
  ⟨single, sequence, choice⟩
where
  single : ∀ expr, p expr
    | .node id span label name children => node id span label name children (sequence children)
    | .token id span label name => token id span label name
    | .wildcard id span label => wildcard id span label
    | .rule id span label name args => rule id span label name args
    | .subrule id span repetition alternatives =>
      subrule id span repetition alternatives (choice alternatives)
    | .action id code => action id code
    | .predicate id code => predicate id code
  sequence : ∀ exprs, q exprs
    | [] => nil
    | expr :: exprs => cons expr exprs (single expr) (sequence exprs)
  choice : ∀ alternatives, r alternatives
    | [] => none
    | .mk guard elements span :: alternatives =>
      alternative guard elements span alternatives (sequence elements) (choice alternatives)

end Induction

section Occurrences

variable (first : String → FirstSet)

/-- The occurrences in an element, a sequence or alternatives are the elements inside, in another
order. -/
theorem perm_occurrences :
    (∀ expr : Expr, ∀ follow,
      ((expr.occurrences first follow).map Occurrence.expr).Perm expr.postorder) ∧
    (∀ exprs, ∀ follow, ((Alternative.sequenceOccurrences first follow exprs).map
      Occurrence.expr).Perm (Expr.postorderList exprs)) ∧
    ∀ alternatives, ∀ follow, ((Alternative.alternativesOccurrences first follow alternatives).map
      Occurrence.expr).Perm (Expr.postorderAlternatives alternatives) := by
  refine Expr.induction ?node ?token ?wildcard ?rule ?subrule ?action ?predicate ?nil ?cons
    ?none ?alternative
  case node =>
    -- the element itself stands last among its elements, and first among the occurrences
    intro id span label name children ih follow
    rw [Expr.occurrences, Expr.postorder, List.map_cons]
    exact ((ih _).cons _).trans (List.perm_append_singleton _ _).symm
  case subrule =>
    intro id span repetition alternatives ih follow
    rw [Expr.occurrences, Expr.postorder, List.map_cons]
    exact ((ih _).cons _).trans (List.perm_append_singleton _ _).symm
  case cons =>
    intro expr exprs ihExpr ihExprs follow
    rw [Alternative.sequenceOccurrences, Expr.postorderList, List.map_append]
    exact (ihExpr _).append (ihExprs _)
  case alternative =>
    intro guard elements span alternatives ihElements ihAlternatives follow
    rw [Alternative.alternativesOccurrences, Expr.postorderAlternatives, List.map_append]
    exact (ihElements _).append (ihAlternatives _)
  all_goals
    intros
    simp [Expr.occurrences, Expr.postorder, Alternative.sequenceOccurrences, Expr.postorderList,
      Alternative.alternativesOccurrences, Expr.postorderAlternatives]

/-- The occurrences in the alternatives of a rule are the elements of the rule, in another order. -/
theorem Rule.perm_occurrences (rule : Rule) (follow : LookaheadSet) :
    ((Alternative.alternativesOccurrences first follow rule.alternatives).map
      Occurrence.expr).Perm rule.exprs :=
  (TreeGrammar.perm_occurrences first).2.2 rule.alternatives follow

end Occurrences

end TreeGrammar
