import Mathlib.Data.List.Flatten
import Mathlib.Data.List.Nodup
import Mathlib.Data.List.Perm.Basic
import TreeGrammar.Proofs.Grammar.Elements

/-!
# Elements as a forest

The elements of a grammar stand in a list, each after those inside it, and the place of an element
is its number. Such a list is made of whole trees: an element is held by at most one other element,
which has a larger number. Whoever follows the numbers from some trees to what they hold comes to an
end, and has met no element twice.

## Main definitions

* `Expr.held`: the elements that an element holds itself
* `Rules.roots`: the elements that no other element of a rule holds
* `IsForest`: elements are those of some trees, in their order
* `traverse`: the way from some elements to all elements inside them, by their numbers

## Main results

* `IsForest.getElem?_id`, `IsForest.held`: the numbers of elements and of those that they hold
* `IsForest.nodup_references`: no element is held twice
* `IsForest.traverse`: traversals end, and meet no element twice
-/

namespace TreeGrammar

/-! ### Elements that hold others -/

/-- The elements that an element holds itself, and not only through others. -/
def Expr.held : Expr → List Expr
  | node _ _ _ _ children => children
  | subrule _ _ _ alternatives => alternatives.flatMap Alternative.elements
  | token .. | wildcard .. | rule .. | action .. | predicate .. => []

/-- What is noted about an element. -/
def Expr.info (expr : Expr) : ElementInfo := ⟨expr.span, expr.label⟩

/-- An element may have a label. -/
def Expr.isLabelable : Expr → Bool
  | node .. | token .. | wildcard .. | rule .. => true
  | subrule .. | action .. | predicate .. => false

theorem Expr.isLabelable_of_label {expr : Expr} (h : expr.label.isSome) : expr.isLabelable := by
  cases expr with
  | node | token | wildcard | rule => rfl
  | subrule | action | predicate => cases h

/-- The elements of the alternatives of a rule. -/
def Rule.roots (rule : Rule) : List Expr := rule.alternatives.flatMap Alternative.elements

/-- The elements of the alternatives of all rules. -/
def Rules.roots (rules : Rules) : List Expr := rules.flatMap Rule.roots

namespace Expr

theorem postorderList_eq_flatMap (exprs : List Expr) :
    postorderList exprs = exprs.flatMap postorder := by
  induction exprs with
  | nil => rfl
  | cons expr exprs ih => rw [postorderList, ih, List.flatMap_cons]

theorem postorderList_append (exprs others : List Expr) :
    postorderList (exprs ++ others) = postorderList exprs ++ postorderList others := by
  simp only [postorderList_eq_flatMap, List.flatMap_append]

theorem postorderList_singleton (expr : Expr) : postorderList [expr] = expr.postorder := by
  rw [postorderList, postorderList, List.append_nil]

theorem postorderAlternatives_eq (alternatives : List Alternative) :
    postorderAlternatives alternatives =
      postorderList (alternatives.flatMap Alternative.elements) := by
  induction alternatives with
  | nil => rfl
  | cons alternative alternatives ih =>
    obtain ⟨guard, elements, span⟩ := alternative
    rw [postorderAlternatives, ih, List.flatMap_cons, postorderList_append, Alternative.elements]

/-- An element stands right after all elements inside it. -/
theorem postorder_eq (expr : Expr) : expr.postorder = postorderList expr.held ++ [expr] := by
  cases expr with
  | subrule id span repetition alternatives =>
    rw [postorder, held, postorderAlternatives_eq]
  | node => rfl
  | token | wildcard | rule | action | predicate => rfl

theorem mem_postorder_self (expr : Expr) : expr ∈ expr.postorder := by
  rw [postorder_eq]
  exact List.mem_append_right _ List.mem_cons_self

/-- What holds of an element if it holds of those that the element holds, holds of all elements. -/
theorem induction_held {p : Expr → Prop} (h : ∀ expr, (∀ other ∈ expr.held, p other) → p expr)
    (expr : Expr) : p expr := by
  have hAll : (∀ expr, p expr) ∧ (∀ exprs : List Expr, ∀ expr ∈ exprs, p expr) ∧
      ∀ alternatives : List Alternative,
        ∀ expr ∈ alternatives.flatMap Alternative.elements, p expr := by
    refine Expr.induction ?node ?token ?wildcard ?rule ?subrule ?action ?predicate ?nil ?cons
      ?none ?alternative
    case node => exact fun id span label name children ih => h _ ih
    case subrule => exact fun id span repetition alternatives ih => h _ ih
    case cons => exact fun expr exprs ih ihs => List.forall_mem_cons.2 ⟨ih, ihs⟩
    case alternative =>
      intro guard elements span alternatives ih ihs
      rw [List.flatMap_cons]
      exact List.forall_mem_append.2 ⟨ih, ihs⟩
    case nil => exact nofun
    case none => exact nofun
    -- the other elements hold nothing
    all_goals
      intros
      exact h _ nofun
  exact hAll.1 expr

/-- All that is inside an element stands where the element stands. -/
theorem postorder_sublist (tree : Expr) :
    ∀ expr ∈ tree.postorder, expr.postorder.Sublist tree.postorder := by
  induction tree using induction_held with
  | h tree ih =>
    intro expr hExpr
    rw [postorder_eq tree] at hExpr
    rcases List.mem_append.1 hExpr with hInside | hSelf
    · rw [postorderList_eq_flatMap] at hInside
      obtain ⟨other, hOther, hMem⟩ := List.mem_flatMap.1 hInside
      have hHeld : other.postorder.Sublist (postorderList tree.held) := by
        rw [postorderList_eq_flatMap]
        exact List.sublist_flatten_of_mem (List.mem_map_of_mem hOther)
      rw [postorder_eq tree]
      exact ((ih other hOther expr hMem).trans hHeld).trans (List.sublist_append_left _ _)
    · obtain rfl := List.mem_singleton.1 hSelf
      exact List.Sublist.refl _

theorem postorder_sublist_list {trees : List Expr} {expr : Expr}
    (h : expr ∈ postorderList trees) : expr.postorder.Sublist (postorderList trees) := by
  rw [postorderList_eq_flatMap] at h ⊢
  obtain ⟨tree, hTree, hMem⟩ := List.mem_flatMap.1 h
  exact (tree.postorder_sublist expr hMem).trans
    (List.sublist_flatten_of_mem (List.mem_map_of_mem hTree))

/-- The elements of a list of trees are the trees and all that is held by an element, if this holds
of each tree. -/
theorem perm_held_list {trees : List Expr}
    (h : ∀ tree ∈ trees, ([tree] ++ tree.postorder.flatMap held).Perm tree.postorder) :
    (trees ++ (postorderList trees).flatMap held).Perm (postorderList trees) := by
  induction trees with
  | nil => exact .nil
  | cons tree trees ih =>
    obtain ⟨hTree, hTrees⟩ := List.forall_mem_cons.1 h
    rw [postorderList, List.flatMap_append]
    -- the tree goes to what its elements hold, past the other trees
    have hMove : (tree :: trees ++ (tree.postorder.flatMap held ++
        (postorderList trees).flatMap held)).Perm
        ([tree] ++ tree.postorder.flatMap held ++
          (trees ++ (postorderList trees).flatMap held)) := by
      rw [List.cons_append, List.singleton_append, List.cons_append]
      refine .cons tree ?_
      rw [← List.append_assoc, ← List.append_assoc]
      exact (List.perm_append_comm).append_right _
    exact hMove.trans (hTree.append (ih hTrees))

/-- An element is the tree itself, or it is held by exactly one element of the tree. -/
theorem perm_held (tree : Expr) :
    ([tree] ++ tree.postorder.flatMap held).Perm tree.postorder := by
  induction tree using induction_held with
  | h tree ih =>
    rw [postorder_eq tree, List.flatMap_append, List.flatMap_singleton]
    exact List.perm_append_comm.trans
      ((List.perm_append_comm.trans (perm_held_list ih)).append_right [tree])

end Expr

theorem Rules.exprs_eq_postorderList (rules : Rules) :
    rules.exprs = Expr.postorderList rules.roots := by
  rw [Rules.exprs, Rules.roots, Expr.postorderList_eq_flatMap, List.flatMap_assoc]
  refine List.flatMap_congr fun rule _ => ?_
  rw [Rule.exprs, Expr.postorderAlternatives_eq, Expr.postorderList_eq_flatMap, Rule.roots]

/-! ### Forests -/

/-- Elements are those of some trees, one tree after the other, and the number of an element is its
place. -/
structure IsForest (elements trees : List Expr) : Prop where
  elements_eq : elements = Expr.postorderList trees
  ids : elements.map Expr.id = List.range elements.length

/-- The numbers that are met on the way from some elements, given by their numbers, to all that is
inside them. Nothing results if there is no element of a number, or if the way is longer than
`fuel`. -/
def traverse (elements : List Expr) : Nat → List Nat → Option (List Nat)
  | _, [] => some []
  | 0, _ :: _ => none
  | fuel + 1, index :: agenda => do
    let expr ← elements[index]?
    let met ← traverse elements fuel (expr.held.map Expr.id ++ agenda)
    return index :: met

namespace IsForest

variable {elements trees : List Expr} {expr other : Expr}

theorem nil : IsForest [] [] := ⟨rfl, rfl⟩

theorem nodup_ids (h : IsForest elements trees) : (elements.map Expr.id).Nodup :=
  h.ids ▸ List.nodup_range

/-- An element is found by its number. -/
theorem getElem?_id (h : IsForest elements trees) (hExpr : expr ∈ elements) :
    elements[expr.id]? = some expr := by
  obtain ⟨i, hi, rfl⟩ := List.getElem_of_mem hExpr
  have hId : elements[i].id = i := by
    have hMap : (elements.map Expr.id)[i]? = some i := by
      rw [h.ids, List.getElem?_range hi]
    rw [List.getElem?_map, List.getElem?_eq_getElem hi] at hMap
    exact Option.some.inj hMap
  rw [hId, List.getElem?_eq_getElem hi]

theorem postorder_sublist (h : IsForest elements trees) (hExpr : expr ∈ elements) :
    expr.postorder.Sublist elements := by
  rw [h.elements_eq] at hExpr ⊢
  exact Expr.postorder_sublist_list hExpr

/-- An element that is held is an element with a smaller number. -/
theorem held (h : IsForest elements trees) (hExpr : expr ∈ elements) (hOther : other ∈ expr.held) :
    other ∈ elements ∧ other.id < expr.id := by
  have hInside : other ∈ Expr.postorderList expr.held := by
    rw [Expr.postorderList_eq_flatMap]
    exact List.mem_flatMap.2 ⟨other, hOther, other.mem_postorder_self⟩
  have hSublist := h.postorder_sublist hExpr
  rw [Expr.postorder_eq] at hSublist
  refine ⟨hSublist.subset (List.mem_append_left _ hInside), ?_⟩
  -- the numbers of all elements increase, and the holder comes last
  have hIncreasing : (elements.map Expr.id).Pairwise (· < ·) := h.ids ▸ List.pairwise_lt_range
  have hPairwise := hIncreasing.sublist (hSublist.map Expr.id)
  rw [List.map_append] at hPairwise
  exact (List.pairwise_append.1 hPairwise).2.2 _ (List.mem_map_of_mem hInside) _
    (List.mem_map_of_mem (List.mem_singleton.2 rfl))

theorem mem_of_mem_trees (h : IsForest elements trees) (hExpr : expr ∈ trees) :
    expr ∈ elements := by
  rw [h.elements_eq, Expr.postorderList_eq_flatMap]
  exact List.mem_flatMap.2 ⟨expr, hExpr, expr.mem_postorder_self⟩

/-- The trees and what the elements hold are different elements. -/
theorem nodup_references (h : IsForest elements trees) :
    ((trees ++ elements.flatMap Expr.held).map Expr.id).Nodup := by
  have hPerm := Expr.perm_held_list fun tree (_ : tree ∈ trees) => tree.perm_held
  rw [← h.elements_eq] at hPerm
  exact (hPerm.map Expr.id).nodup_iff.2 h.nodup_ids

/-! ### Traversals -/

/-- A traversal goes through some elements, whatever comes after them, and meets what is inside
them. -/
theorem exists_traverse_list {exprs : List Expr}
    (h : ∀ expr ∈ exprs, ∃ met, met.Perm (expr.postorder.map Expr.id) ∧ ∀ fuel agenda,
      TreeGrammar.traverse elements (met.length + fuel) (expr.id :: agenda) =
        (TreeGrammar.traverse elements fuel agenda).map (met ++ ·)) :
    ∃ met, met.Perm ((Expr.postorderList exprs).map Expr.id) ∧ ∀ fuel agenda,
      TreeGrammar.traverse elements (met.length + fuel) (exprs.map Expr.id ++ agenda) =
        (TreeGrammar.traverse elements fuel agenda).map (met ++ ·) := by
  induction exprs with
  | nil =>
    refine ⟨[], .nil, fun fuel agenda => ?_⟩
    simp
  | cons expr exprs ih =>
    obtain ⟨hExpr, hExprs⟩ := List.forall_mem_cons.1 h
    obtain ⟨first, hFirst, hFirstRun⟩ := hExpr
    obtain ⟨others, hOthers, hOthersRun⟩ := ih hExprs
    refine ⟨first ++ others, ?_, fun fuel agenda => ?_⟩
    · rw [Expr.postorderList, List.map_append]
      exact hFirst.append hOthers
    · rw [List.length_append, Nat.add_assoc, List.map_cons, List.cons_append, hFirstRun,
        hOthersRun, Option.map_map]
      refine Option.map_congr fun met _ => ?_
      rw [Function.comp_apply, List.append_assoc]

/-- A traversal that comes to an element goes through all elements inside it. -/
theorem exists_traverse (h : IsForest elements trees) (expr : Expr) (hExpr : expr ∈ elements) :
    ∃ met, met.Perm (expr.postorder.map Expr.id) ∧ ∀ fuel agenda,
      TreeGrammar.traverse elements (met.length + fuel) (expr.id :: agenda) =
        (TreeGrammar.traverse elements fuel agenda).map (met ++ ·) := by
  induction expr using Expr.induction_held with
  | h expr ih =>
    obtain ⟨met, hMet, hRun⟩ := exists_traverse_list fun other hOther =>
      ih other hOther (h.held hExpr hOther).1
    refine ⟨expr.id :: met, ?_, fun fuel agenda => ?_⟩
    · rw [Expr.postorder_eq, List.map_append]
      exact (hMet.cons _).trans (List.perm_append_singleton _ _).symm
    · rw [List.length_cons, Nat.add_right_comm, TreeGrammar.traverse, h.getElem?_id hExpr]
      simp only [Option.bind_eq_bind, Option.bind_some, hRun, Option.pure_def]
      cases TreeGrammar.traverse elements fuel agenda <;> rfl

/-- All that is inside some of the trees stands in their order. -/
theorem sublist_of_trees (h : IsForest elements trees) {starts : List Expr}
    (hStarts : starts.Sublist trees) : (Expr.postorderList starts).Sublist elements := by
  rw [h.elements_eq, Expr.postorderList_eq_flatMap, Expr.postorderList_eq_flatMap]
  exact hStarts.flatMap _

/-- A traversal from elements that have nothing in common comes to an end after at most as many
steps as there are elements, and it meets no element twice. -/
theorem traverse (h : IsForest elements trees) {starts : List Expr}
    (hStarts : (Expr.postorderList starts).Sublist elements) :
    ∃ met, TreeGrammar.traverse elements elements.length (starts.map Expr.id) = some met ∧
      met.Nodup := by
  have hMem : ∀ expr ∈ starts, expr ∈ elements := fun expr hExpr =>
    hStarts.subset (Expr.postorderList_eq_flatMap starts ▸
      List.mem_flatMap.2 ⟨expr, hExpr, expr.mem_postorder_self⟩)
  obtain ⟨met, hMet, hRun⟩ := exists_traverse_list fun expr hExpr =>
    h.exists_traverse expr (hMem expr hExpr)
  have hNodup : met.Nodup := hMet.nodup_iff.2 (h.nodup_ids.sublist (hStarts.map Expr.id))
  have hLength : met.length ≤ elements.length := by
    rw [hMet.length_eq, List.length_map]
    exact hStarts.length_le
  refine ⟨met, ?_, hNodup⟩
  have hEnd := hRun (elements.length - met.length) []
  rw [Nat.add_sub_of_le hLength, List.append_nil] at hEnd
  rw [hEnd]
  cases elements.length - met.length <;> simp [TreeGrammar.traverse]

end IsForest

end TreeGrammar
