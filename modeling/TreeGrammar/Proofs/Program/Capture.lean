import TreeGrammar.Proofs.Grammar.Forest
import TreeGrammar.Proofs.Program.Statements

/-!
# Names that hide procedures

Parameters, labels and the value of a rule are names of the function for its alternatives, where
procedures of other rules are called. The analysis does not compare these names with each other. So
a label may hide a procedure that is called later, or the value at the end.

## Main definitions

* `Expr.bound`, `Expr.calls`: the labels that an element binds for later ones, and the rules that it
  calls
* `Rule.KeepsNames`: no name that a rule binds is the name of something that it uses later
* `Statement.FreeWhen`: when the calls in statements are free

## Main results

* `Expr.Built.freeWhen`: the calls in the statements of an element are free if the element keeps
  names
* `Grammar.Checked.free_iff_keepsNames`: the names that a procedure uses are free if its rule keeps
  names
* `uses_free_iff`: this, for generated code
* `Hidden.not_free`: a grammar whose code calls a label
-/

namespace TreeGrammar

open Host (Token)

/-! ### Names in elements -/

/-- The names of the rules that are called inside an element. -/
def Expr.calls (expr : Expr) : List String := expr.postorder.filterMap Expr.called?

/-- The names of the rules that are called inside the elements of a sequence. -/
def Expr.listCalls (exprs : List Expr) : List String :=
  (Expr.postorderList exprs).filterMap Expr.called?

mutual

/-- The labels that an element binds for the elements after it: its own one, and for a node those
of its children. -/
def Expr.bound : Expr → List String
  | .node _ _ label _ children => (label.map Ident.name).toList ++ Expr.listBound children
  | .token _ _ label _ | .wildcard _ _ label | .rule _ _ label .. => (label.map Ident.name).toList
  | .subrule .. | .action .. | .predicate .. => []

/-- The labels that the elements of a sequence bind for the elements after them. -/
def Expr.listBound : List Expr → List String
  | [] => []
  | expr :: exprs => expr.bound ++ Expr.listBound exprs

end

/-- No element of a sequence calls a rule whose name is a label that an earlier element binds. -/
def Alternative.KeepsNames (elements : List Expr) : Prop :=
  elements.Pairwise fun first later => ∀ label ∈ first.bound, label ∉ later.calls

/-- The sequences in an element keep names, and no rule that is called among the children of a node
has the name of the label of the node. The elements inside these sequences are left out. -/
def Expr.KeepsNames : Expr → Prop
  | .node _ _ label _ children =>
    (∀ name ∈ label.map Ident.name, name ∉ Expr.listCalls children) ∧
      Alternative.KeepsNames children
  | .subrule _ _ _ alternatives =>
    ∀ alternative ∈ alternatives, Alternative.KeepsNames alternative.elements
  | _ => True

/-- No name that a rule binds is the name of something that is used where the name is in scope. -/
structure Rule.KeepsNames (rule : Rule) : Prop where
  /-- No rule that is called has the name of a parameter. -/
  params : ∀ name ∈ rule.paramNames, Host.identifierOf name ∉ rule.calls
  /-- No rule that is called has the name of the value. -/
  value : ∀ returns ∈ rule.returns, returns.name.name ∉ rule.calls
  /-- No rule that is called in an alternative has the name of an earlier label. -/
  alternatives : ∀ alternative ∈ rule.alternatives, Alternative.KeepsNames alternative.elements
  /-- The elements inside the alternatives keep names. -/
  elements : ∀ expr ∈ rule.exprs, expr.KeepsNames
  /-- The value does not have the name of a label that is still in scope at the end, where there is
  nothing to choose between alternatives. -/
  last : ∀ elements span, rule.alternatives = [.mk none elements span] →
    ∀ returns ∈ rule.returns, returns.name.name ∉ Expr.listBound elements

namespace Expr

theorem keepsNames_node {id : Nat} {span : Span} {label : Option Ident} {name : Ident}
    {children : List Expr} : (Expr.node id span label name children).KeepsNames ↔
      (∀ name ∈ label.map Ident.name, name ∉ Expr.listCalls children) ∧
        Alternative.KeepsNames children := Iff.rfl

theorem keepsNames_subrule {id : Nat} {span : Span} {repetition : Repetition}
    {alternatives : List Alternative} :
    (Expr.subrule id span repetition alternatives).KeepsNames ↔
      ∀ alternative ∈ alternatives, Alternative.KeepsNames alternative.elements := Iff.rfl

theorem listCalls_cons (expr : Expr) (exprs : List Expr) :
    listCalls (expr :: exprs) = expr.calls ++ listCalls exprs := List.filterMap_append

theorem mem_listCalls {exprs : List Expr} {name : String} :
    name ∈ Expr.listCalls exprs ↔ ∃ expr ∈ exprs, name ∈ expr.calls := by
  induction exprs with
  | nil => simp [listCalls, postorderList]
  | cons expr exprs ih =>
    rw [listCalls_cons, List.mem_append, ih]
    simp only [List.mem_cons, exists_eq_or_imp]

end Expr

theorem Alternative.keepsNames_cons {expr : Expr} {exprs : List Expr} :
    Alternative.KeepsNames (expr :: exprs) ↔
      (∀ label ∈ expr.bound, label ∉ Expr.listCalls exprs) ∧ Alternative.KeepsNames exprs := by
  rw [KeepsNames, List.pairwise_cons]
  refine and_congr_left fun _ => ⟨fun h label hLabel hMem => ?_, ?_⟩
  · obtain ⟨later, hLater, hCall⟩ := Expr.mem_listCalls.1 hMem
    exact h later hLater label hLabel hCall
  · intro h later hLater label hLabel hMem
    exact h label hLabel (Expr.mem_listCalls.2 ⟨later, hLater, hMem⟩)

/-! ### Different names -/

/-- No name that a rule binds is the name of a rule that it calls, and no label is the name of its
value. -/
structure Rule.NamesDiffer (rule : Rule) : Prop where
  params : ∀ name ∈ rule.paramNames, Host.identifierOf name ∉ rule.calls
  value : ∀ returns ∈ rule.returns, returns.name.name ∉ rule.calls
  labels : ∀ expr ∈ rule.exprs, ∀ label ∈ expr.label, label.name ∉ rule.calls ∧
    ∀ returns ∈ rule.returns, label.name ≠ returns.name.name

/-- A label that an element binds is that of an element inside it. -/
theorem Expr.exists_label_of_mem_bound {name : String} :
    (∀ expr : Expr, name ∈ expr.bound →
      ∃ inner ∈ expr.postorder, ∃ label ∈ inner.label, label.name = name) ∧
    (∀ exprs : List Expr, name ∈ Expr.listBound exprs →
      ∃ inner ∈ Expr.postorderList exprs, ∃ label ∈ inner.label, label.name = name) ∧
    ∀ _ : List Alternative, True := by
  have hOwn : ∀ expr : Expr, name ∈ (expr.label.map Ident.name).toList →
      ∃ inner ∈ expr.postorder, ∃ label ∈ inner.label, label.name = name := by
    intro expr hName
    obtain ⟨label, hLabel, hName⟩ := Option.map_eq_some_iff.1 (Option.mem_toList.1 hName)
    exact ⟨expr, expr.mem_postorder_self, label, hLabel, hName⟩
  -- only a node passes on what its children bind: what is bound in a subrule stays there
  refine Expr.induction ?node ?token ?wildcard ?rule ?subrule ?action ?predicate ?nil ?cons
    ?none ?alternative
  case node =>
    intro id span label tree children ih hName
    rcases List.mem_append.1 hName with hName | hName
    · exact hOwn _ hName
    · obtain ⟨inner, hInner, hLabel⟩ := ih hName
      exact ⟨inner, List.mem_append_left _ hInner, hLabel⟩
  case token => exact fun id span label tree hName => hOwn _ hName
  case wildcard => exact fun id span label hName => hOwn _ hName
  case rule => exact fun id span label tree args hName => hOwn _ hName
  case subrule => exact fun id span repetition alternatives _ hName => absurd hName List.not_mem_nil
  case action => exact fun id code hName => absurd hName List.not_mem_nil
  case predicate => exact fun id code hName => absurd hName List.not_mem_nil
  case nil => exact fun hName => absurd hName List.not_mem_nil
  case cons =>
    intro expr exprs ihExpr ihExprs hName
    rcases List.mem_append.1 hName with hName | hName
    · obtain ⟨inner, hInner, hLabel⟩ := ihExpr hName
      exact ⟨inner, List.mem_append_left _ hInner, hLabel⟩
    · obtain ⟨inner, hInner, hLabel⟩ := ihExprs hName
      exact ⟨inner, List.mem_append_right _ hInner, hLabel⟩
  case none => trivial
  case alternative => exact fun guard elements span alternatives _ _ => trivial

theorem Expr.postorderList_subset {alternatives : List Alternative} {alternative : Alternative}
    (h : alternative ∈ alternatives) :
    Expr.postorderList alternative.elements ⊆ Expr.postorderAlternatives alternatives := by
  rw [postorderAlternatives_eq, postorderList_eq_flatMap, postorderList_eq_flatMap]
  intro inner hInner
  obtain ⟨expr, hExpr, hMem⟩ := List.mem_flatMap.1 hInner
  exact List.mem_flatMap.2 ⟨expr, List.mem_flatMap.2 ⟨alternative, h, hExpr⟩, hMem⟩

namespace Rule

variable {rule : Rule}

/-- The sequences of a rule with different names keep names. -/
theorem NamesDiffer.sequence (h : rule.NamesDiffer) {elements : List Expr}
    (hElements : Expr.postorderList elements ⊆ rule.exprs) : Alternative.KeepsNames elements := by
  have hInside : ∀ expr ∈ elements, expr.postorder ⊆ rule.exprs := by
    intro expr hExpr inner hInner
    refine hElements ?_
    rw [Expr.postorderList_eq_flatMap]
    exact List.mem_flatMap.2 ⟨expr, hExpr, hInner⟩
  refine List.pairwise_of_forall_mem_list fun first hFirst later hLater label hLabel hCall => ?_
  obtain ⟨inner, hInner, label, hMem, rfl⟩ := Expr.exists_label_of_mem_bound.1 first hLabel
  have hNot := (h.labels inner (hInside first hFirst hInner) label hMem).1
  exact hNot (List.filterMap_subset _ (hInside later hLater) hCall)

/-- A rule whose names are all different keeps names. -/
theorem NamesDiffer.keepsNames (h : rule.NamesDiffer) : rule.KeepsNames where
  params := h.params
  value := h.value
  alternatives _ hAlternative := h.sequence (Expr.postorderList_subset hAlternative)
  elements expr hExpr := by
    have hInside : expr.postorder ⊆ rule.exprs := by
      rw [exprs, Expr.postorderAlternatives_eq] at hExpr ⊢
      exact (Expr.postorder_sublist_list hExpr).subset
    cases expr with
    | node id span label name children =>
      have hChildren : Expr.postorderList children ⊆ rule.exprs :=
        List.Subset.trans (List.subset_append_left ..) hInside
      refine ⟨fun name hName hCall => ?_, h.sequence hChildren⟩
      obtain ⟨ident, hLabel, rfl⟩ := Option.map_eq_some_iff.1 hName
      exact (h.labels _ hExpr ident hLabel).1 (List.filterMap_subset _ hChildren hCall)
    | subrule id span repetition alternatives =>
      intro alternative hAlternative
      exact h.sequence (List.Subset.trans (Expr.postorderList_subset hAlternative)
        (List.Subset.trans (List.subset_append_left ..) hInside))
    | token | wildcard | rule | action | predicate => trivial
  last elements span hAlternatives returns hReturns hMem := by
    obtain ⟨inner, hInner, label, hLabel, hName⟩ := Expr.exists_label_of_mem_bound.2.1 _ hMem
    have hInside : inner ∈ rule.exprs := by
      rw [exprs, hAlternatives]
      exact List.mem_append_left _ hInner
    exact (h.labels inner hInside label hLabel).2 returns hReturns hName

end Rule

/-! ### Calls in statements -/

/-- Statements bind the given labels for later ones. Their calls are free if and only if no name in
scope before them is one of the given calls, and the condition holds. -/
structure Statement.FreeWhen (statements : List Statement) (bound calls : List String)
    (condition : Prop) : Prop where
  bound_eq : listBound statements = bound
  free_iff : ∀ scope, (∀ use ∈ listCalls scope statements, use.IsFree) ↔
    (∀ name ∈ scope, name ∉ calls) ∧ condition

namespace Statement.FreeWhen

variable {statements later : List Statement} {bound bound' calls calls' : List String}
  {condition condition' : Prop}

theorem congr (h : FreeWhen statements bound calls condition) (hBound : bound = bound')
    (hCalls : calls = calls') (hCondition : condition ↔ condition') :
    FreeWhen statements bound' calls' condition' := by
  subst hBound hCalls
  exact ⟨h.bound_eq, fun scope => (h.free_iff scope).trans (and_congr_right fun _ => hCondition)⟩

theorem nil : FreeWhen [] [] [] True :=
  ⟨rfl, fun scope => by simp [listCalls]⟩

theorem bind (label : Option String) (value : List Token) :
    FreeWhen [.bind label value] label.toList [] True :=
  ⟨by simp [listBound, Statement.bound], fun scope => by simp [listCalls, Statement.calls]⟩

theorem other (tokens : List Token) : FreeWhen [.other tokens] [] [] True :=
  ⟨by simp [listBound, Statement.bound], fun scope => by simp [listCalls, Statement.calls]⟩

theorem call (label : Option String) (rule : String) (arguments : List (List Token)) :
    FreeWhen [.call label rule arguments] label.toList [rule] True := by
  refine ⟨by simp [listBound, Statement.bound], fun scope => ?_⟩
  simp only [listCalls, Statement.calls, List.append_nil, List.mem_singleton, forall_eq, Use.IsFree,
    and_true]
  exact ⟨fun h name hName hEq => h (hEq ▸ hName), fun h hMem => h rule hMem rfl⟩

/-- What a block binds is not in scope after it. -/
theorem block (h : FreeWhen statements bound calls condition) (opening : List Token) :
    FreeWhen [.block opening statements] [] calls condition := by
  refine ⟨by simp [listBound, Statement.bound], fun scope => ?_⟩
  rw [listCalls, listCalls, List.append_nil, Statement.calls]
  exact h.free_iff scope

/-- What statements bind is in scope in later ones. -/
theorem append (h : FreeWhen statements bound calls condition)
    (hLater : FreeWhen later bound' calls' condition') :
    FreeWhen (statements ++ later) (bound ++ bound') (calls ++ calls')
      (condition ∧ condition' ∧ ∀ name ∈ bound, name ∉ calls') := by
  refine ⟨?_, fun scope => ?_⟩
  · rw [listBound_append, h.bound_eq, hLater.bound_eq]
  · rw [listCalls_append, List.forall_mem_append, h.free_iff, hLater.free_iff, h.bound_eq,
      List.forall_mem_append]
    simp only [List.mem_append, not_or, forall_and]
    tauto

/-- Statements after which, or before which, something else stands. -/
theorem between (h : FreeWhen statements bound calls condition) (before after : List Token) :
    FreeWhen ([.other before] ++ statements ++ [.other after]) bound calls condition := by
  refine (((other before).append h).append (other after)).congr ?_ ?_ ?_
  · simp
  · simp
  · simp

/-- The label of a node is in scope among the children of the node. -/
theorem node (h : FreeWhen statements bound calls condition) (label : Option String)
    (value before between after : List Token) :
    FreeWhen ([.other before] ++ label.toList.map (fun label => .bind (some label) value) ++
      [.other between] ++ statements ++ [.other after]) (label.toList ++ bound) calls
      ((∀ name ∈ label, name ∉ calls) ∧ condition) := by
  have hLabel : FreeWhen (label.toList.map fun label => .bind (some label) value) label.toList []
      True := by
    cases label with
    | none => exact nil
    | some label => exact bind (some label) value
  have hNode := ((((other before).append hLabel).append (other between)).append h).append
    (other after)
  refine hNode.congr ?_ ?_ ?_
  · simp
  · simp
  · simp [and_comm]

/-- A choice binds nothing, however often its arms are tried. -/
theorem choice (h : FreeWhen statements bound calls condition) (kind : ChoiceKind) :
    FreeWhen [kind.statement statements] [] calls condition := by
  cases kind with
  | once | optional | star => exact h.block _
  | plus counter =>
    have hLoop := (h.append (other (variableTokens (counterVariable counter) ++
      phrase "+= 1 ;"))).block (phrase "loop")
    have hCounted := ((other (phrase "let mut" ++ variableTokens (counterVariable counter) ++
      phrase "= 0usize ;")).append hLoop).block []
    exact hCounted.congr rfl (by simp) (by simp)

end Statement.FreeWhen

/-! ### Calls in elements -/

section Built

variable {context : BuildContext} {rule : String}

/-- What is to be shown about the statements of a sequence. -/
def Alternative.FreeWhenKept (context : BuildContext) (rule : String) (exprs : List Expr) : Prop :=
  ∀ {cursor : CursorVariable} {steps : List Step}, Alternative.Built context cursor exprs steps →
    Statement.FreeWhen (Step.listStatements rule steps) (Expr.listBound exprs)
      (Expr.listCalls exprs)
      (Alternative.KeepsNames exprs ∧ ∀ inner ∈ Expr.postorderList exprs, inner.KeepsNames)

/-- The calls in arms are free if the alternatives keep names. -/
theorem Alternative.BuiltArms.freeWhen {alternatives : List Alternative}
    (h : ∀ alternative ∈ alternatives, FreeWhenKept context rule alternative.elements)
    {cursor : CursorVariable} {predictions : List LookaheadSet} {arms : List Arm}
    (hArms : BuiltArms context cursor predictions alternatives arms) (opening : List Token) :
    Statement.FreeWhen (Arm.listStatements rule opening arms) []
      ((Expr.postorderAlternatives alternatives).filterMap Expr.called?)
      ((∀ alternative ∈ alternatives, KeepsNames alternative.elements) ∧
        ∀ inner ∈ Expr.postorderAlternatives alternatives, inner.KeepsNames) := by
  induction alternatives generalizing predictions arms opening with
  | nil =>
    cases hArms
    exact Statement.FreeWhen.nil.congr rfl rfl (by simp [Expr.postorderAlternatives])
  | cons alternative alternatives ih =>
    obtain ⟨hFirst, hOthers⟩ := List.forall_mem_cons.1 h
    cases hArms with
    | cons hSteps hArms =>
      -- an arm is a block, so that its labels are not in scope in the arms after it
      refine (((hFirst hSteps).block _).append (ih hOthers hArms (phrase "else"))).congr rfl ?_ ?_
      · rw [Expr.postorderAlternatives, List.filterMap_append, Expr.listCalls]
        rfl
      · rw [Expr.postorderAlternatives]
        simp only [List.forall_mem_cons, List.forall_mem_append, elements]
        tauto

/-- The calls in the statements of an element are free if the element keeps names. -/
theorem Expr.Built.freeWhen :
    (∀ (expr : Expr) {cursor : CursorVariable} {step : Step}, Expr.Built context cursor expr step →
      Statement.FreeWhen (step.statements rule) expr.bound expr.calls
        (∀ inner ∈ expr.postorder, inner.KeepsNames)) ∧
    (∀ exprs, Alternative.FreeWhenKept context rule exprs) ∧
    ∀ (alternatives : List Alternative), ∀ alternative ∈ alternatives,
      Alternative.FreeWhenKept context rule alternative.elements := by
  -- the condition of a sequence is that of all its parts, in the order in which they are visited
  refine Expr.induction ?node ?token ?wildcard ?rule ?subrule ?action ?predicate ?nil ?cons
    ?none ?alternative
  case node =>
    intro id span label name children ih cursor step hStep
    cases hStep with
    | node hCursor hMoved hChildren =>
      rw [Step.statements]
      refine ((ih hChildren).node _ _ _ _ _).congr rfl ?_ ?_
      · simp [Expr.calls, Expr.postorder, Expr.listCalls, Expr.called?]
      · simp only [Expr.postorder, List.forall_mem_append, List.forall_mem_singleton,
          Expr.keepsNames_node]
        tauto
  case token =>
    intro id span label name cursor step hStep
    cases hStep
    exact (Statement.FreeWhen.bind _ _).congr rfl rfl (by simp [Expr.postorder, Expr.KeepsNames])
  case wildcard =>
    intro id span label cursor step hStep
    cases hStep
    exact (Statement.FreeWhen.bind _ _).congr rfl rfl (by simp [Expr.postorder, Expr.KeepsNames])
  case rule =>
    intro id span label name args cursor step hStep
    cases hStep
    exact ((Statement.FreeWhen.other _).append (.call _ name.name _)).congr rfl rfl
      (by simp [Expr.postorder, Expr.KeepsNames])
  case subrule =>
    intro id span repetition alternatives ih cursor step hStep
    cases hStep with
    | choice hNeed hDecision hArms =>
      rw [Step.statements]
      refine (((Alternative.BuiltArms.freeWhen ih hArms []).between _ _).choice _).congr rfl ?_ ?_
      · simp [Expr.calls, Expr.postorder, Expr.called?]
      · simp only [Expr.postorder, List.forall_mem_append, List.forall_mem_singleton,
          Expr.keepsNames_subrule]
        tauto
    | block hDecision hElements =>
      rw [Step.statements]
      refine ((ih _ (List.mem_singleton_self _) hElements).block []).congr rfl ?_ ?_
      · simp [Expr.calls, Expr.postorder, Expr.postorderAlternatives, Expr.listCalls, Expr.called?,
          Alternative.elements]
      · simp only [Expr.postorder, Expr.postorderAlternatives, List.forall_mem_append,
          List.forall_mem_singleton, Expr.keepsNames_subrule,
          Alternative.elements]
        tauto
  case action =>
    intro id code cursor step hStep
    cases hStep
    exact (Statement.FreeWhen.other _).congr rfl rfl (by simp [Expr.postorder, Expr.KeepsNames])
  case predicate =>
    intro id code cursor step hStep
    cases hStep
    exact (Statement.FreeWhen.other _).congr rfl rfl (by simp [Expr.postorder, Expr.KeepsNames])
  case nil =>
    intro cursor steps hSteps
    cases hSteps
    exact Statement.FreeWhen.nil.congr rfl rfl
      (by simp [Expr.postorderList, Alternative.KeepsNames])
  case cons =>
    intro expr exprs ihExpr ihExprs cursor steps hSteps
    cases hSteps with
    | cons hStep hSteps =>
      refine ((ihExpr hStep).append (ihExprs hSteps)).congr rfl ?_ ?_
      · rw [Expr.listCalls_cons]
      · have hInner : (∀ inner ∈ Expr.postorderList (expr :: exprs), inner.KeepsNames) ↔ _ :=
          List.forall_mem_append
        rw [Alternative.keepsNames_cons, hInner]
        tauto
  case none => exact fun _ h => absurd h List.not_mem_nil
  case alternative =>
    intro guard elements span alternatives ihElements ihAlternatives
    exact List.forall_mem_cons.2 ⟨ihElements, ihAlternatives⟩

/-- The calls in the statements of a rule are free if its alternatives keep names. Labels are in
scope at the end where there is nothing to choose between alternatives. -/
theorem Rule.Built.freeWhen {definition : Rule} {steps : List Step}
    (h : definition.Built context steps) (rule : String) :
    ∃ bound, Statement.FreeWhen (Step.listStatements rule steps) bound definition.calls
        ((∀ alternative ∈ definition.alternatives,
          Alternative.KeepsNames alternative.elements) ∧
            ∀ expr ∈ definition.exprs, expr.KeepsNames) ∧
      ∀ name, name ∉ bound ↔ ∀ elements span,
        definition.alternatives = [.mk none elements span] → name ∉ Expr.listBound elements := by
  cases h with
  | choice hNeed hDecision hArms =>
    -- all labels are bound in arms, and none is in scope after these
    refine ⟨[], ?_, fun name => ⟨fun _ elements span hAlternatives => ?_, fun _ => ?_⟩⟩
    · rw [Step.listStatements, Step.listStatements, List.append_nil, Step.statements]
      exact ((Alternative.BuiltArms.freeWhen (Expr.Built.freeWhen.2.2 _) hArms []).between _
        _).choice _
    · rw [hAlternatives] at hNeed
      cases hNeed
    · exact List.not_mem_nil
  | sequence hDecision hAlternatives hElements =>
    refine ⟨_, (Expr.Built.freeWhen.2.1 _ hElements).congr rfl ?_ ?_, fun name => ?_⟩
    · simp [Rule.calls, Rule.exprs, hAlternatives, Expr.postorderAlternatives, Expr.listCalls]
    · simp [Rule.exprs, hAlternatives, Expr.postorderAlternatives, Alternative.elements]
    · simp [hAlternatives]

end Built

/-- The names that a procedure of a checked grammar uses are free if and only if its rule keeps
names. -/
theorem Grammar.Checked.free_iff_keepsNames {grammar : Grammar} (h : grammar.Checked) {index : Nat}
    {rule : Rule} (hRule : grammar.rules[index]? = some rule) :
    (∀ use ∈ (grammar.procedure index rule).uses, use.IsFree) ↔ rule.KeepsNames := by
  obtain ⟨bound, hCalls, hLast⟩ := (h.built hRule).freeWhen rule.name.name
  have hBound : Statement.listBound (grammar.procedure index rule).statements = bound :=
    hCalls.bound_eq
  have hFree := hCalls.free_iff
    (rule.paramNames.map Host.identifierOf ++ rule.returns.toList.map (·.name.name))
  simp only [List.forall_mem_append, List.forall_mem_map, Option.mem_toList] at hFree
  rw [Procedure.uses, List.forall_mem_append, hBound]
  simp only [List.forall_mem_map, Option.mem_toList, Use.IsFree]
  constructor
  · rintro ⟨hUses, hValue⟩
    obtain ⟨⟨hParams, hReturns⟩, hAlternatives, hElements⟩ := hFree.1 hUses
    exact ⟨hParams, hReturns, hAlternatives, hElements, fun elements span hOne returns hMem =>
      (hLast _).1 (hValue returns hMem) elements span hOne⟩
  · intro hKeeps
    refine ⟨hFree.2 ⟨⟨hKeeps.params, hKeeps.value⟩, hKeeps.alternatives, hKeeps.elements⟩,
      fun returns hMem => (hLast _).2 fun elements span hOne => ?_⟩
    exact hKeeps.last elements span hOne returns hMem

/-- In the generated code of an accepted grammar, the names that the function for the alternatives of
a rule uses are free if and only if the rule keeps names: no parameter, no value and no label before
it hides a rule that is called, and no label that is in scope at the end hides the value. -/
theorem uses_free_iff {source : List Char} {options : Options} {grammar : Grammar}
    (hAccepted : (analyse source options).accepted? = some grammar) :
    (∀ (index : Nat) (rule : Rule), grammar.rules[index]? = some rule →
      ∃ procedure, grammar.program.procedures[index]? = some procedure ∧
        procedure.alternatives = phrase "fn" ++ [.word procedure.alternativesName] ++
          procedure.matchHead ++ [.braces (procedure.declaration ++
            Statement.listTokens procedure.statements ++
            callTokens (phrase "Ok") [procedure.value])] ∧
        ((∀ use ∈ procedure.uses, use.IsFree) ↔ rule.KeepsNames)) ∧
    ∀ compilation code, compile source options = .ok compilation →
      compilation.code = some code → ∃ before, code = Token.print (phrase "pub mod" ++
        [.word grammar.program.name,
          .braces (before ++ grammar.program.functions.flatMap Prod.snd)]) := by
  have hChecked := Grammar.checked_of_accepted hAccepted
  refine ⟨fun index rule hRule => ?_, fun compilation code hCompile hCode => ?_⟩
  · refine ⟨grammar.procedure index rule, ?_, Procedure.alternatives_eq _,
      hChecked.free_iff_keepsNames hRule⟩
    rw [Grammar.getElem?_procedures, hRule, Option.map_some]
  · obtain ⟨before, hModule⟩ := grammar.program.moduleTokens_eq
    exact ⟨before, hModule ▸ code_eq_of_accepted hAccepted hCompile hCode⟩

namespace Sample

/-- The names that the functions of the small grammar use are free. -/
theorem uses_free_iff_sample :
    ∃ grammar : Grammar, (analyse source {}).accepted? = some grammar ∧
      (∀ (index : Nat) (rule : Rule), grammar.rules[index]? = some rule →
        ∃ procedure, grammar.program.procedures[index]? = some procedure ∧
          procedure.alternatives = phrase "fn" ++ [.word procedure.alternativesName] ++
            procedure.matchHead ++ [.braces (procedure.declaration ++
              Statement.listTokens procedure.statements ++
              callTokens (phrase "Ok") [procedure.value])] ∧
          ((∀ use ∈ procedure.uses, use.IsFree) ↔ rule.KeepsNames)) ∧
      ∀ compilation code, compile source {} = .ok compilation →
        compilation.code = some code → ∃ before, code = Token.print (phrase "pub mod" ++
          [.word grammar.program.name,
            .braces (before ++ grammar.program.functions.flatMap Prod.snd)]) :=
  ⟨_, accepted, TreeGrammar.uses_free_iff accepted⟩

end Sample

/-! ### A label that is called -/

namespace Hidden

/-- The text `a:q=. q;q:.;`. -/
def source : List Char := ['a', ':', 'q', '=', '.', ' ', 'q', ';', 'q', ':', '.', ';']

/-- The label `q`. -/
def label : Ident := ⟨"q", Sample.place 2⟩

/-- The rule `a`, at which walks start. -/
def caller : Rule where
  name := ⟨"a", Sample.place 0⟩
  isPublic := false
  attributes := []
  params := none
  returns := none
  alternatives := [.mk none [.wildcard 0 (Sample.place 2) (some label),
    .rule 1 (Sample.place 6) none ⟨"q", Sample.place 6⟩ none] (Sample.place 2)]

/-- The rule `q`. -/
def callee : Rule where
  name := ⟨"q", Sample.place 8⟩
  isPublic := false
  attributes := []
  params := none
  returns := none
  alternatives := [.mk none [.wildcard 2 (Sample.place 10) none] (Sample.place 10)]

/-- The rules. -/
def rules : Rules := [caller, callee]

/-- The grammar as it is read. -/
def written : SourceGrammar where
  rules
  elements := rules.exprs
  infos := rules.exprs.map fun expr => ⟨expr.span, expr.label⟩

/-- The grammar that the analysis makes of the text. -/
def grammar : Grammar where
  name := ⟨"tree_grammar", Span.start⟩
  options := {}
  tokens := []
  prelude := []
  rules
  decisions := []
  scopes := []

theorem parse_source : SourceGrammar.parse source = ([], written) := by
  with_unfolding_all rfl

/-- The grammar is accepted. -/
theorem accepted : (analyse source {}).accepted? = some grammar := by
  have hClean : written.IsClean {} := by decide +kernel
  have hDecisions : rules.decisions rules.first rules.follows = [] := by decide +kernel
  have hScopes : rules.scopes = [] := by decide +kernel
  exact (analyse_of_isClean parse_source rfl hClean hDecisions hScopes).1

theorem isReadable_analyse : (analyse source {}).isReadable := by
  rw [analyse, parse_source]
  simp only [SourceGrammar.analyse]
  decide +kernel

/-- The grammar is accepted and code is generated for it, in which the label `q` hides the procedure
of the rule `q` where it is called. -/
theorem not_free :
    ∃ compilation, compile source {} = .ok compilation ∧
      (analyse source {}).accepted? = some grammar ∧
      compilation.code = some (Token.print grammar.program.moduleTokens) ∧
      ∃ procedure ∈ grammar.program.procedures,
        procedure.statements.map Statement.tokens =
          [phrase "let q = walker . wildcard" ++
              [.parens (phrase "cursor ," ++ [.string "a"])] ++ phrase "? ;",
            [], phrase "q" ++ [.parens (phrase "walker , state , cursor , frame")] ++
              phrase "? ;"] ∧
        procedure.uses = [⟨"q", ["q"]⟩] ∧ ¬ ∀ use ∈ procedure.uses, use.IsFree := by
  have hReadable : grammar.isReadable := by decide +kernel
  have hErrors : grammar.lexicalErrors = [] := by decide +kernel
  have hVariants : (grammar.program.procedures.filterMap Procedure.variant).find?
      (!isVariantName ·) = none := by decide +kernel
  obtain ⟨compilation, hCompile, hCode⟩ := exists_code_of_accepted accepted isReadable_analyse
    hReadable hErrors hVariants rfl
  have hUses : (grammar.procedure 0 caller).uses = [⟨"q", ["q"]⟩] := by with_unfolding_all rfl
  refine ⟨compilation, hCompile, accepted, hCode, grammar.procedure 0 caller, ?_, ?_, hUses, ?_⟩
  · exact List.mem_of_getElem? (@Grammar.getElem?_procedures grammar 0)
  · with_unfolding_all rfl
  · rw [hUses]
    intro hFree
    exact hFree _ (List.mem_singleton_self _) (List.mem_singleton_self _)

end Hidden

end TreeGrammar
