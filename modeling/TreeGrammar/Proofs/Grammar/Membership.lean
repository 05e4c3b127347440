import TreeGrammar.Grammar.Reference
import TreeGrammar.Proofs.Analysis.Scopes
import TreeGrammar.Proofs.Grammar.Derivation

/-!
# Elements of a rule

Elements belong to a rule together with all calls and all code inside them. What comes after a round
of a repeated group is not written in the rule as it stands, but it belongs to the rule in this
sense.

## Main definitions

* `Rule.HasElements`, `Rule.HasAlternatives`: elements and alternatives belong to a rule
* `Alternative.All`: all elements of a sequence have a property, those inside others too

## Main results

* `Rule.hasElements_again`: what comes after a round belongs to the rule
* `Rules.mem_callees_of_call`: a rule calls the rules that its elements name
-/

namespace TreeGrammar

/-- The calls and the code in a sequence of elements belong to a rule. -/
structure Rule.HasElements (rule : Rule) (exprs : List Expr) : Prop where
  calls : ∀ expr ∈ Expr.postorderList exprs, ∀ name, expr.called? = some name → name ∈ rule.calls
  code : ∀ fragment ∈ Alternative.sequenceFragments exprs, fragment ∈ rule.fragments

/-- The calls and the code in alternatives belong to a rule. -/
structure Rule.HasAlternatives (rule : Rule) (alternatives : List Alternative) : Prop where
  calls : ∀ expr ∈ Expr.postorderAlternatives alternatives, ∀ name, expr.called? = some name →
    name ∈ rule.calls
  guards : ∀ guard ∈ Alternative.guards alternatives, guard ∈ rule.fragments
  code : ∀ fragment ∈ Alternative.alternativesFragments alternatives, fragment ∈ rule.fragments

namespace Rule

variable {rule : Rule} {expr : Expr} {exprs exprs' : List Expr} {alternatives : List Alternative}
  {id : Nat} {span : Span} {repetition : Repetition}

theorem hasAlternatives_self (rule : Rule) : rule.HasAlternatives rule.alternatives := by
  refine ⟨fun expr hExpr name hName => ?_, fun _ h => List.mem_append_left _ h,
    fun _ h => List.mem_append_right _ h⟩
  exact List.mem_filterMap.2 ⟨expr, hExpr, hName⟩

theorem HasElements.nil : rule.HasElements [] := ⟨nofun, nofun⟩

theorem hasElements_cons : rule.HasElements (expr :: exprs) ↔
    ((∀ inner ∈ expr.postorder, ∀ name, inner.called? = some name → name ∈ rule.calls) ∧
      ∀ fragment ∈ expr.fragments, fragment ∈ rule.fragments) ∧ rule.HasElements exprs := by
  constructor
  · rintro ⟨hCalls, hCode⟩
    obtain ⟨hExprCalls, hCalls⟩ := List.forall_mem_append.1 hCalls
    obtain ⟨hExprCode, hCode⟩ := List.forall_mem_append.1 hCode
    exact ⟨⟨hExprCalls, hExprCode⟩, hCalls, hCode⟩
  · rintro ⟨⟨hExprCalls, hExprCode⟩, hCalls, hCode⟩
    exact ⟨List.forall_mem_append.2 ⟨hExprCalls, hCalls⟩,
      List.forall_mem_append.2 ⟨hExprCode, hCode⟩⟩

theorem HasElements.append (h : rule.HasElements exprs) (h' : rule.HasElements exprs') :
    rule.HasElements (exprs ++ exprs') := by
  induction exprs with
  | nil => exact h'
  | cons expr exprs ih =>
    obtain ⟨hExpr, hExprs⟩ := hasElements_cons.1 h
    exact hasElements_cons.2 ⟨hExpr, ih hExprs⟩

theorem HasElements.later (h : rule.HasElements (expr :: exprs)) : rule.HasElements exprs :=
  (hasElements_cons.1 h).2

theorem hasElements_node {label : Option Ident} {name : Ident} {children : List Expr}
    (h : rule.HasElements (.node id span label name children :: exprs)) :
    rule.HasElements children := by
  obtain ⟨⟨hCalls, hCode⟩, -⟩ := hasElements_cons.1 h
  exact ⟨(List.forall_mem_append.1 hCalls).1, hCode⟩

theorem mem_calls_of_hasElements {label : Option Ident} {name : Ident} {args : Option Fragment}
    (h : rule.HasElements (.rule id span label name args :: exprs)) : name.name ∈ rule.calls :=
  (hasElements_cons.1 h).1.1 _ (List.mem_singleton_self _) name.name rfl

theorem mem_fragments_of_hasElements (h : rule.HasElements (expr :: exprs)) {code : Fragment}
    (hCode : code ∈ expr.fragments) : code ∈ rule.fragments :=
  (hasElements_cons.1 h).1.2 code hCode

theorem hasAlternatives_subrule
    (h : rule.HasElements (.subrule id span repetition alternatives :: exprs)) :
    rule.HasAlternatives alternatives := by
  obtain ⟨⟨hCalls, hCode⟩, -⟩ := hasElements_cons.1 h
  obtain ⟨hGuards, hCode⟩ := List.forall_mem_append.1 hCode
  exact ⟨(List.forall_mem_append.1 hCalls).1, hGuards, hCode⟩

/-- What comes after a round of a group belongs to the rule of the group. -/
theorem hasElements_again
    (h : rule.HasElements (.subrule id span repetition alternatives :: exprs)) :
    rule.HasElements (.subrule id span .star alternatives :: exprs) := by
  obtain ⟨⟨hCalls, hCode⟩, hExprs⟩ := hasElements_cons.1 h
  obtain ⟨hInner, -⟩ := List.forall_mem_append.1 hCalls
  refine hasElements_cons.2 ⟨⟨List.forall_mem_append.2 ⟨hInner, ?_⟩, hCode⟩, hExprs⟩
  -- the group itself calls nothing
  exact List.forall_mem_singleton.2 nofun

/-- What may come after a round of a group, the group once more or nothing of it, belongs to the rule
of the group. -/
theorem hasElements_afterRound
    (h : rule.HasElements (.subrule id span repetition alternatives :: exprs)) :
    rule.HasElements (repetition.again id span alternatives ++ exprs) := by
  rw [Repetition.again]
  split
  · exact hasElements_again h
  · exact h.later

theorem HasAlternatives.elements (h : rule.HasAlternatives alternatives) {index : Nat}
    {alternative : Alternative} (hChosen : alternatives[index]? = some alternative) :
    rule.HasElements alternative.elements := by
  refine ⟨fun expr hExpr => h.calls expr ?_, fun fragment hFragment => h.code fragment ?_⟩
  · exact Alternative.subset_of_collects (fun _ _ _ _ => rfl) hChosen hExpr
  · exact Alternative.subset_of_collects (fun _ _ _ _ => rfl) hChosen hFragment

theorem HasAlternatives.guard (h : rule.HasAlternatives alternatives) {index : Nat}
    {alternative : Alternative} (hChosen : alternatives[index]? = some alternative)
    {guard : Fragment} (hGuard : alternative.guard = some guard) : guard ∈ rule.fragments :=
  h.guards guard (List.mem_filterMap.2 ⟨alternative, List.mem_of_getElem? hChosen, hGuard⟩)

end Rule

/-! ### Properties of all elements -/

/-- All elements of a sequence have a property, and so have the elements inside them. -/
def Alternative.All (p : Expr → Prop) (exprs : List Expr) : Prop :=
  ∀ expr ∈ Expr.postorderList exprs, p expr

namespace Alternative.All

variable {p : Expr → Prop} {expr : Expr} {exprs : List Expr} {alternatives : List Alternative}
  {alternative : Alternative} {id index : Nat} {span : Span} {repetition : Repetition}

theorem head (h : All p (expr :: exprs)) : p expr := by
  have hExpr := (List.forall_mem_append.1 h).1
  -- an element comes after the elements inside it
  cases expr with
  | node | subrule => exact hExpr _ (List.mem_append_right _ (List.mem_singleton_self _))
  | _ => exact hExpr _ (List.mem_singleton_self _)

theorem later (h : All p (expr :: exprs)) : All p exprs := (List.forall_mem_append.1 h).2

theorem children {label : Option Ident} {name : Ident} {children : List Expr}
    (h : All p (.node id span label name children :: exprs)) : All p children :=
  (List.forall_mem_append.1 (List.forall_mem_append.1 h).1).1

theorem of_alternatives (h : ∀ expr ∈ Expr.postorderAlternatives alternatives, p expr)
    (hChosen : alternatives[index]? = some alternative) : All p alternative.elements :=
  fun expr hExpr => h expr (subset_of_collects (fun _ _ _ _ => rfl) hChosen hExpr)

theorem elements (h : All p (.subrule id span repetition alternatives :: exprs))
    (hChosen : alternatives[index]? = some alternative) : All p alternative.elements :=
  of_alternatives (List.forall_mem_append.1 (List.forall_mem_append.1 h).1).1 hChosen

/-- The group that may come after a round of a group has the property if it has it as an element. -/
theorem star (h : All p (.subrule id span repetition alternatives :: exprs))
    (hStar : p (.subrule id span .star alternatives)) :
    All p (.subrule id span .star alternatives :: exprs) := by
  obtain ⟨hGroup, hExprs⟩ := List.forall_mem_append.1 h
  obtain ⟨hInner, -⟩ := List.forall_mem_append.1 hGroup
  have hThis : ∀ expr ∈ [Expr.subrule id span .star alternatives], p expr :=
    List.forall_mem_singleton.2 hStar
  exact List.forall_mem_append.2 ⟨List.forall_mem_append.2 ⟨hInner, hThis⟩, hExprs⟩

/-- What comes after a round of a group has the property. -/
theorem again (h : All p (.subrule id span repetition alternatives :: exprs))
    (hStar : repetition.isRepeat = true → p (.subrule id span .star alternatives)) :
    All p (repetition.again id span alternatives ++ exprs) := by
  rw [Repetition.again]
  split
  · next hRepeat => exact h.star (hStar hRepeat)
  · exact h.later

/-- The elements of the alternatives of a rule have the property if all elements of the rules have
it. -/
theorem of_rules {rules : Rules} (h : ∀ expr ∈ rules.exprs, p expr) {number : Nat} {rule : Rule}
    (hRule : rules[number]? = some rule) (hChosen : rule.alternatives[index]? = some alternative) :
    All p alternative.elements := by
  refine of_alternatives (fun expr hExpr => h expr ?_) hChosen
  exact List.mem_flatMap.2 ⟨rule, List.mem_of_getElem? hRule, hExpr⟩

end Alternative.All

/-! ### Calls of a rule -/

/-- The numbers of the rules with some of the names that a rule has. -/
theorem Rules.mem_callees_iff {rules : Rules} {graph : CallGraph} (names : Rule → List String)
    (hGraph : graph.edges = rules.map fun rule =>
      (List.range rules.length).filter (· ∈ (names rule).filterMap rules.index?))
    {caller callee : Nat} : callee ∈ graph.callees caller ↔ ∃ rule name,
      rules[caller]? = some rule ∧ name ∈ names rule ∧ rules.index? name = some callee := by
  rw [CallGraph.callees, hGraph, List.getElem?_map]
  cases hRule : rules[caller]? with
  | none => simp
  | some rule =>
    simp only [Option.map_some, Option.getD_some, List.mem_filter, List.mem_range,
      decide_eq_true_eq, List.mem_filterMap, Option.some.injEq, exists_and_left, exists_eq_left']
    refine and_iff_right_of_imp ?_
    rintro ⟨name, -, hCallee⟩
    obtain ⟨called, hGet, -⟩ := getElem?_of_index? hCallee
    exact (List.getElem?_eq_some_iff.1 hGet).1

/-- A rule calls the rules that its elements name. -/
theorem Rules.mem_callees_of_call {rules : Rules} {caller callee : Nat} {rule : Rule}
    {name : String} (hRule : rules[caller]? = some rule) (hCall : name ∈ rule.calls)
    (hCallee : rules.index? name = some callee) : callee ∈ rules.callGraph.callees caller :=
  (mem_callees_iff Rule.calls rfl).2 ⟨rule, name, hRule, hCall, hCallee⟩

end TreeGrammar
