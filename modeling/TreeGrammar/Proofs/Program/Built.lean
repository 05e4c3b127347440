import TreeGrammar.Program.Build
import TreeGrammar.Proofs.Grammar.Elements
import TreeGrammar.Proofs.Walk.Effects

/-!
# Steps that are built from elements

The steps of a procedure are built from the elements of a rule, with numbers for the variables that
no name stands for. What matters about them is stated as a relation between elements and steps in
which these numbers do not occur: only that the cursor over the children of a node is none of the
cursors around it.

## Main definitions

* `Expr.Built`, `Alternative.Built`, `Alternative.BuiltArms`: a step, steps and arms that stand for
  an element, for a sequence and for alternatives
* `Rule.Built`: steps that stand for a rule
* `Expr.Decided`: a place where a choice has to be made has a decision

## Main results

* `Rule.built_steps`: the steps of a rule are built from its alternatives
-/

namespace TreeGrammar

/-! ### Steps that stand for elements -/

/-- The repetition for which a choice stands. -/
def ChoiceKind.repetition : ChoiceKind → Repetition
  | once => .once
  | optional => .optional
  | star => .star
  | plus _ => .plus

theorem ChoiceKind.maySkip_repetition (kind : ChoiceKind) :
    kind.repetition.maySkip = kind.maySkip := by
  cases kind <;> rfl

theorem ChoiceKind.isRepeat_repetition (kind : ChoiceKind) :
    kind.repetition.isRepeat = kind.isRepeat := by
  cases kind <;> rfl

/-- The attributes to which the arguments of a call refer. -/
def BuildContext.argumentAccesses (context : BuildContext) :
    Option Fragment → List AttributeAccess
  | none => []
  | some args => context.accesses args

mutual

/-- A step on a cursor stands for an element. -/
inductive Expr.Built (context : BuildContext) : CursorVariable → Expr → Step → Prop where
  | node {cursor : CursorVariable} {id : Nat} {span : Span} {label : Option Ident} {name : Ident}
      {children : List Expr} {tree number : Nat} {steps : List Step}
      (hCursor : cursor ≠ .children number) (hMoved : cursor ∉ Step.listMoved steps)
      (hChildren : Alternative.Built context (.children number) children steps) :
      Expr.Built context cursor (.node id span label name children)
        (.node cursor (label.map Ident.name) name.name tree number steps)
  | token {cursor : CursorVariable} {id : Nat} {span : Span} {label : Option Ident}
      {name : Ident} : Expr.Built context cursor (.token id span label name)
        (.token cursor (label.map Ident.name) name.name)
  | wildcard {cursor : CursorVariable} {id : Nat} {span : Span} {label : Option Ident} :
      Expr.Built context cursor (.wildcard id span label)
        (.wildcard cursor (label.map Ident.name))
  | call {cursor : CursorVariable} {id : Nat} {span : Span} {label : Option Ident} {name : Ident}
      {args : Option Fragment} {arguments : Arguments}
      (hSource : arguments.source = args)
      (hAccesses : arguments.accesses = context.argumentAccesses args) :
      Expr.Built context cursor (.rule id span label name args)
        (.call cursor (label.map Ident.name) name.name arguments)
  | choice {cursor : CursorVariable} {id : Nat} {span : Span} {kind : ChoiceKind}
      {alternatives : List Alternative} {decision : Decision} {arms : List Arm}
      (hNeed : kind.repetition = .once → Alternative.needDecision alternatives = true)
      (hDecision : context.decisionAt? (.subrule id) = some decision)
      (hArms : Alternative.BuiltArms context cursor (decision.candidates.map (·.prediction))
        alternatives arms) :
      Expr.Built context cursor (.subrule id span kind.repetition alternatives)
        (.choice cursor kind decision arms)
  | block {cursor : CursorVariable} {id : Nat} {span inner : Span} {elements : List Expr}
      {steps : List Step} (hDecision : context.decisionAt? (.subrule id) = none)
      (hElements : Alternative.Built context cursor elements steps) :
      Expr.Built context cursor (.subrule id span .once [.mk none elements inner]) (.block steps)
  | action {cursor : CursorVariable} {id : Nat} {code : Fragment} :
      Expr.Built context cursor (.action id code) (.action (context.code code))
  | predicate {cursor : CursorVariable} {id : Nat} {code : Fragment} :
      Expr.Built context cursor (.predicate id code)
        (.predicate cursor (context.code code) code.trimmed)

/-- Steps on a cursor stand for a sequence of elements. -/
inductive Alternative.Built (context : BuildContext) :
    CursorVariable → List Expr → List Step → Prop where
  | nil {cursor : CursorVariable} : Alternative.Built context cursor [] []
  | cons {cursor : CursorVariable} {expr : Expr} {exprs : List Expr} {step : Step}
      {steps : List Step} (hStep : Expr.Built context cursor expr step)
      (hSteps : Alternative.Built context cursor exprs steps) :
      Alternative.Built context cursor (expr :: exprs) (step :: steps)

/-- Arms stand for alternatives with the given predictions. -/
inductive Alternative.BuiltArms (context : BuildContext) :
    CursorVariable → List LookaheadSet → List Alternative → List Arm → Prop where
  | nil {cursor : CursorVariable} : Alternative.BuiltArms context cursor [] [] []
  | cons {cursor : CursorVariable} {prediction : LookaheadSet} {predictions : List LookaheadSet}
      {guard : Option Fragment} {elements : List Expr} {span : Span}
      {alternatives : List Alternative} {steps : List Step} {arms : List Arm}
      (hSteps : Alternative.Built context cursor elements steps)
      (hArms : Alternative.BuiltArms context cursor predictions alternatives arms) :
      Alternative.BuiltArms context cursor (prediction :: predictions)
        (.mk guard elements span :: alternatives)
        (.mk prediction (guard.map context.code) steps :: arms)

end

/-- Steps on the cursor of a procedure stand for a rule. -/
inductive Rule.Built (context : BuildContext) (rule : Rule) : List Step → Prop where
  | choice {decision : Decision} {arms : List Arm}
      (hNeed : Alternative.needDecision rule.alternatives = true)
      (hDecision : context.decisionAt? (.rule context.rule) = some decision)
      (hArms : Alternative.BuiltArms context .given (decision.candidates.map (·.prediction))
        rule.alternatives arms) : Rule.Built context rule [.choice .given .once decision arms]
  | sequence {elements : List Expr} {span : Span} {steps : List Step}
      (hDecision : context.decisionAt? (.rule context.rule) = none)
      (hAlternatives : rule.alternatives = [.mk none elements span])
      (hElements : Alternative.Built context .given elements steps) : Rule.Built context rule steps

theorem Rule.alternatives_zero {rule : Rule} {alternative : Alternative}
    (h : rule.alternatives = [alternative]) : rule.alternatives[0]? = some alternative := by
  rw [h]
  rfl

/-- The choice that is tried after a round stands for the group that may be left out then. -/
theorem Expr.Built.again {context : BuildContext} {cursor : CursorVariable} {id : Nat}
    {alternatives : List Alternative} {decision : Decision} {arms : List Arm}
    (hDecision : context.decisionAt? (.subrule id) = some decision)
    (hArms : Alternative.BuiltArms context cursor (decision.candidates.map (·.prediction))
      alternatives arms) (span : Span) :
    Expr.Built context cursor (.subrule id span .star alternatives)
      (.choice cursor .star decision arms) :=
  @Expr.Built.choice context cursor id span .star alternatives decision arms nofun hDecision hArms

namespace Alternative

variable {context : BuildContext} {cursor : CursorVariable} {predictions : List LookaheadSet}
  {alternatives : List Alternative} {arms : List Arm}

theorem Built.append {exprs exprs' : List Expr} {steps steps' : List Step}
    (h : Built context cursor exprs steps) (h' : Built context cursor exprs' steps') :
    Built context cursor (exprs ++ exprs') (steps ++ steps') := by
  induction exprs generalizing steps with
  | nil => cases h; exact h'
  | cons expr exprs ih =>
    cases h with
    | cons hStep hSteps => exact .cons hStep (ih hSteps)

/-- The arm that stands for an alternative. -/
theorem BuiltArms.arm (h : BuiltArms context cursor predictions alternatives arms) {index : Nat}
    {alternative : Alternative} (hChosen : alternatives[index]? = some alternative) :
    ∃ prediction steps, predictions[index]? = some prediction ∧
      arms[index]? = some (.mk prediction (alternative.guard.map context.code) steps) ∧
      Built context cursor alternative.elements steps := by
  induction alternatives generalizing predictions arms index with
  | nil => cases hChosen
  | cons head alternatives ih =>
    cases h with
    | @cons _ prediction predictions guard elements span _ steps arms hSteps hArms =>
      cases index with
      | zero =>
        obtain rfl : .mk guard elements span = alternative := Option.some.inj hChosen
        exact ⟨prediction, steps, rfl, rfl, hSteps⟩
      | succ index => exact ih hArms hChosen

/-- The alternative for which an arm stands. -/
theorem BuiltArms.alternative (h : BuiltArms context cursor predictions alternatives arms)
    {index : Nat} {prediction : LookaheadSet} {guard : Option Code} {steps : List Step}
    (hArm : arms[index]? = some (.mk prediction guard steps)) :
    ∃ alternative, alternatives[index]? = some alternative ∧
      predictions[index]? = some prediction ∧ guard = alternative.guard.map context.code ∧
      Built context cursor alternative.elements steps := by
  induction alternatives generalizing predictions arms index with
  | nil => cases h; cases hArm
  | cons head alternatives ih =>
    cases h with
    | @cons _ prediction' predictions guard' elements span _ steps' arms hSteps hArms =>
      cases index with
      | zero =>
        obtain ⟨rfl, rfl, rfl⟩ := Arm.mk.inj (Option.some.inj hArm)
        exact ⟨.mk guard' elements span, rfl, rfl, rfl, hSteps⟩
      | succ index => exact ih hArms hArm

end Alternative

/-! ### The code in steps -/

@[simp] theorem BuildContext.source_bind (context : BuildContext) (fragment : Fragment) :
    (context.bind fragment).source = fragment := rfl

section Code

variable {context : BuildContext} {cursor : CursorVariable}

/-- What is to be shown about the code in the steps of a sequence. -/
def Alternative.KeepsCode (context : BuildContext) (exprs : List Expr) : Prop :=
  ∀ {cursor : CursorVariable} {steps : List Step}, Alternative.Built context cursor exprs steps →
    (Step.listFragments steps).Perm ((Alternative.sequenceFragments exprs).map context.bind)

theorem Alternative.guards_cons (guard : Option Fragment) (elements : List Expr) (span : Span)
    (alternatives : List Alternative) :
    guards (.mk guard elements span :: alternatives) = guard.toList ++ guards alternatives := by
  cases guard <;> rfl

/-- The code of one alternative without a guard is that of its elements. -/
theorem Alternative.fragments_singleton (elements : List Expr) (span : Span) :
    guards [.mk none elements span] ++ alternativesFragments [.mk none elements span] =
      sequenceFragments elements := by
  rw [alternativesFragments, alternativesFragments, List.append_nil]
  rfl

theorem BuildContext.guard_fragments (guard : Option Fragment) :
    (guard.map context.code).toList.map Code.toBoundFragment = guard.toList.map context.bind := by
  cases guard <;> rfl

/-- The code in arms is that of the alternatives: their guards and the code of their elements. -/
theorem Alternative.BuiltArms.perm_fragments {alternatives : List Alternative}
    (h : ∀ alternative ∈ alternatives, KeepsCode context alternative.elements)
    {predictions : List LookaheadSet} {arms : List Arm}
    (hArms : BuiltArms context cursor predictions alternatives arms) :
    (Arm.listFragments arms).Perm
      ((guards alternatives ++ alternativesFragments alternatives).map context.bind) := by
  induction alternatives generalizing predictions arms with
  | nil =>
    cases hArms
    exact .nil
  | cons alternative alternatives ih =>
    obtain ⟨hElements, hOthers⟩ := List.forall_mem_cons.1 h
    cases hArms with
    | cons hSteps hArms =>
      have hLater := ih hOthers hArms
      rw [List.map_append] at hLater
      rw [Arm.listFragments, BuildContext.guard_fragments, guards_cons, alternativesFragments,
        List.map_append, List.map_append, List.map_append, List.append_assoc, List.append_assoc]
      -- the code of the first alternative is met before the guards of the others
      refine List.Perm.append_left _ ?_
      exact ((hElements hSteps).append hLater).trans (List.perm_append_comm_assoc ..)

/-- The code in the step of an element is the code of the element, each piece once. -/
theorem Expr.Built.perm_fragments :
    (∀ (expr : Expr) {cursor : CursorVariable} {step : Step}, Expr.Built context cursor expr step →
      step.fragments.Perm (expr.fragments.map context.bind)) ∧
    (∀ exprs, Alternative.KeepsCode context exprs) ∧
    ∀ (alternatives : List Alternative), ∀ alternative ∈ alternatives,
      Alternative.KeepsCode context alternative.elements := by
  refine Expr.induction ?node ?token ?wildcard ?rule ?subrule ?action ?predicate ?nil ?cons
    ?none ?alternative
  case node =>
    intro id span label name children ih cursor step hStep
    cases hStep with
    | node hCursor hMoved hChildren => exact ih hChildren
  case token =>
    intro id span label name cursor step hStep
    cases hStep
    exact .nil
  case wildcard =>
    intro id span label cursor step hStep
    cases hStep
    exact .nil
  case rule =>
    intro id span label name args cursor step hStep
    cases hStep with
    | call hSource hAccesses =>
      rw [Step.fragments, Arguments.fragment, hSource, hAccesses, Expr.fragments]
      cases args <;> exact .refl _
  case subrule =>
    intro id span repetition alternatives ih cursor step hStep
    cases hStep with
    | choice hNeed hDecision hArms => exact hArms.perm_fragments ih
    | block hDecision hElements =>
      rw [Step.fragments, Expr.fragments, Alternative.fragments_singleton]
      exact ih _ (List.mem_singleton_self _) hElements
  case action =>
    intro id code cursor step hStep
    cases hStep
    exact .refl _
  case predicate =>
    intro id code cursor step hStep
    cases hStep
    exact .refl _
  case nil =>
    intro cursor steps hSteps
    cases hSteps
    exact .nil
  case cons =>
    intro expr exprs ihExpr ihExprs cursor steps hSteps
    cases hSteps with
    | cons hStep hSteps =>
      rw [Step.listFragments, Alternative.sequenceFragments, List.map_append]
      -- the later steps are emitted first
      exact ((ihExprs hSteps).append (ihExpr hStep)).trans List.perm_append_comm
  case none => exact fun _ h => absurd h List.not_mem_nil
  case alternative =>
    intro guard elements span alternatives ihElements ihAlternatives
    exact List.forall_mem_cons.2 ⟨ihElements, ihAlternatives⟩

/-- The code in the steps of a rule is the code of the rule, each piece once. -/
theorem Rule.Built.perm_fragments {rule : Rule} {steps : List Step} (h : rule.Built context steps) :
    (Step.listFragments steps).Perm (rule.fragments.map context.bind) := by
  cases h with
  | choice hNeed hDecision hArms =>
    exact hArms.perm_fragments (Expr.Built.perm_fragments.2.2 _)
  | sequence hDecision hAlternatives hElements =>
    rw [Rule.fragments, hAlternatives, Alternative.fragments_singleton]
    exact Expr.Built.perm_fragments.2.1 _ hElements

/-- What is bound in the steps of a rule is a piece of its code. -/
theorem Rule.Built.exists_fragment {rule : Rule} {steps : List Step} (h : rule.Built context steps)
    {bound : BoundFragment} (hBound : bound ∈ Step.listFragments steps) :
    ∃ code ∈ rule.fragments, context.bind code = bound :=
  List.mem_map.1 (h.perm_fragments.mem_iff.1 hBound)

end Code

/-! ### The steps that are built -/

/-- Alternatives have a decision with one candidate for each of them if there is something to
choose, and no decision otherwise. -/
def Alternative.Decided (decision? : Option Decision) (repetition : Repetition)
    (alternatives : List Alternative) : Prop :=
  match decision? with
  | some decision => decision.candidates.length = alternatives.length ∧
      (repetition = .once → Alternative.needDecision alternatives = true)
  | none => repetition = .once ∧ ∃ elements span, alternatives = [.mk none elements span]

/-- The alternatives of a group are decided. -/
def Expr.Decided (context : BuildContext) : Expr → Prop
  | .subrule id _ repetition alternatives =>
    Alternative.Decided (context.decisionAt? (.subrule id)) repetition alternatives
  | _ => True

/-- The number of the node over whose children a cursor runs, zero for the cursor of the
procedure. -/
def CursorVariable.number : CursorVariable → Nat
  | given => 0
  | children number => number

/-- Steps that are built from elements have numbers between two bounds: they move no cursors but
the given one and those of nodes inside. -/
structure Fresh (last last' : Nat) (cursor : CursorVariable) (moved : List CursorVariable) :
    Prop where
  le : last ≤ last'
  above : ∀ other ∈ moved, other = cursor ∨ last < other.number

namespace Fresh

variable {a b c : Nat} {cursor : CursorVariable} {xs ys : List CursorVariable}

theorem nil (h : a ≤ b) (cursor : CursorVariable) : Fresh a b cursor [] := ⟨h, nofun⟩

theorem singleton (h : a ≤ b) (cursor : CursorVariable) : Fresh a b cursor [cursor] :=
  ⟨h, fun _ hOther => .inl (List.mem_singleton.1 hOther)⟩

theorem weaken (h : Fresh b c cursor xs) (hLe : a ≤ b) : Fresh a c cursor xs :=
  ⟨Nat.le_trans hLe h.le, fun other hOther => (h.above other hOther).imp_right (Nat.lt_of_le_of_lt hLe)⟩

theorem append (hxs : Fresh a b cursor xs) (hys : Fresh b c cursor ys) :
    Fresh a c cursor (xs ++ ys) := by
  refine ⟨Nat.le_trans hxs.le hys.le, fun other hOther => ?_⟩
  rcases List.mem_append.1 hOther with h | h
  · exact hxs.above other h
  · exact (hys.weaken hxs.le).above other h

theorem append' (hxs : Fresh a b cursor xs) (hys : Fresh b c cursor ys) :
    Fresh a c cursor (ys ++ xs) := by
  refine ⟨Nat.le_trans hxs.le hys.le, fun other hOther => ?_⟩
  exact (hxs.append hys).above other (List.mem_append.2 (List.mem_append.1 hOther).symm)

/-- A node takes the next two numbers, the second one for the cursor over its children. -/
theorem node (h : Fresh (a + 2) b (.children (a + 2)) xs) (cursor : CursorVariable) :
    Fresh a b cursor (cursor :: .children (a + 2) :: xs) := by
  have hNumber : a < (CursorVariable.children (a + 2)).number := Nat.lt_add_of_pos_right Nat.two_pos
  refine ⟨Nat.le_trans (Nat.le_add_right a 2) h.le, fun other hOther => ?_⟩
  rcases List.mem_cons.1 hOther with rfl | hOther
  · exact .inl rfl
  · rcases List.mem_cons.1 hOther with rfl | hOther
    · exact .inr hNumber
    · rcases h.above other hOther with rfl | hAbove
      · exact .inr hNumber
      · exact .inr (by omega)

/-- A cursor is not moved where the children of a later node are matched. -/
theorem not_mem {number : Nat} (h : Fresh b c (.children number) xs) (hLe : cursor.number ≤ b)
    (hNumber : cursor.number < number) : cursor ∉ xs := by
  intro hMem
  rcases h.above cursor hMem with rfl | hLt
  · exact Nat.lt_irrefl _ hNumber
  · omega

end Fresh

section Build

variable (context : BuildContext)

theorem Repetition.choiceKind_spec (repetition : Repetition) (last : Nat) :
    (repetition.choiceKind.run last).1.repetition = repetition ∧
      last ≤ (repetition.choiceKind.run last).2 := by
  cases repetition with
  | plus => exact ⟨rfl, Nat.le_succ last⟩
  | _ => exact ⟨rfl, Nat.le_refl last⟩

theorem le_mapM_freshNumber {α : Type} (values : List α) (last : Nat) :
    last ≤ ((values.mapM fun _ => freshNumber : StateM Nat (List Nat)).run last).2 := by
  induction values generalizing last with
  | nil => exact Nat.le_refl last
  | cons value values ih =>
    rw [List.mapM_cons]
    exact Nat.le_trans (Nat.le_succ last) (ih (last + 1))

theorem BuildContext.arguments_spec (args : Option Fragment) (last : Nat) :
    ((context.arguments args).run last).1.source = args ∧
      ((context.arguments args).run last).1.accesses = context.argumentAccesses args ∧
      last ≤ ((context.arguments args).run last).2 := by
  cases args with
  | none => exact ⟨rfl, rfl, Nat.le_refl last⟩
  | some fragment =>
    rw [BuildContext.arguments]
    by_cases hEmpty : (context.accesses fragment).isEmpty
    · simp only [hEmpty, if_true]
      exact ⟨rfl, rfl, Nat.le_refl last⟩
    · simp only [hEmpty]
      exact ⟨rfl, rfl, le_mapM_freshNumber _ last⟩

variable {context}

/-- What is to be shown about the steps of a sequence. -/
def Alternative.BuildsSteps (context : BuildContext) (exprs : List Expr) : Prop :=
  (∀ expr ∈ Expr.postorderList exprs, expr.Decided context) →
    ∀ (cursor : CursorVariable) (last : Nat), cursor.number ≤ last →
      Alternative.Built context cursor exprs ((Alternative.steps context cursor exprs).run last).1 ∧
        Fresh last ((Alternative.steps context cursor exprs).run last).2 cursor
          (Step.listMoved ((Alternative.steps context cursor exprs).run last).1)

theorem Alternative.arms_nil (cursor : CursorVariable) (alternatives : List Alternative) :
    arms context cursor [] alternatives = pure [] := by
  rw [arms]
  intro _ _ _ _ _ _ hPredictions
  cases hPredictions

theorem Alternative.arms_of_nil (cursor : CursorVariable) (predictions : List LookaheadSet) :
    arms context cursor predictions [] = pure [] := by
  rw [arms]
  intro _ _ _ _ _ _ _ hAlternatives
  cases hAlternatives

theorem Alternative.built_arms {alternatives : List Alternative}
    (h : ∀ alternative ∈ alternatives, Alternative.BuildsSteps context alternative.elements)
    (hDecided : ∀ expr ∈ Expr.postorderAlternatives alternatives, expr.Decided context)
    {predictions : List LookaheadSet} (hLength : predictions.length = alternatives.length)
    (cursor : CursorVariable) (last : Nat) (hLast : cursor.number ≤ last) :
    Alternative.BuiltArms context cursor predictions alternatives
        ((Alternative.arms context cursor predictions alternatives).run last).1 ∧
      Fresh last ((Alternative.arms context cursor predictions alternatives).run last).2 cursor
        (Arm.listMoved ((Alternative.arms context cursor predictions alternatives).run last).1) := by
  induction alternatives generalizing predictions last with
  | nil =>
    obtain rfl := List.length_eq_zero_iff.1 hLength
    rw [Alternative.arms_nil]
    exact ⟨.nil, .nil (Nat.le_refl last) cursor⟩
  | cons alternative alternatives ih =>
    obtain ⟨guard, elements, span⟩ := alternative
    obtain ⟨hElements, hAlternatives⟩ := List.forall_mem_append.1 hDecided
    obtain ⟨hSteps, hOthers⟩ := List.forall_mem_cons.1 h
    cases predictions with
    | nil => cases hLength
    | cons prediction predictions =>
      obtain ⟨hBuilt, hFresh⟩ := hSteps hElements cursor last hLast
      obtain ⟨hArms, hFreshArms⟩ := ih hOthers hAlternatives (Nat.succ.inj hLength) _
        (Nat.le_trans hLast hFresh.le)
      rw [Alternative.arms]
      exact ⟨.cons hBuilt hArms, hFresh.append hFreshArms⟩

theorem Alternative.sequences_singleton (cursor : CursorVariable) (guard : Option Fragment)
    (elements : List Expr) (span : Span) :
    Alternative.sequences context cursor [.mk guard elements span] =
      Alternative.steps context cursor elements := by
  rw [Alternative.sequences, Alternative.sequences]
  simp only [pure_bind, List.append_nil, bind_pure]

/-- The steps that are built from elements stand for them. -/
theorem built_steps :
    (∀ expr : Expr, (∀ inner ∈ expr.postorder, inner.Decided context) →
      ∀ (cursor : CursorVariable) (last : Nat), cursor.number ≤ last →
        Expr.Built context cursor expr ((expr.step context cursor).run last).1 ∧
          Fresh last ((expr.step context cursor).run last).2 cursor
            ((expr.step context cursor).run last).1.moved) ∧
    (∀ exprs, Alternative.BuildsSteps context exprs) ∧
    ∀ (alternatives : List Alternative), ∀ alternative ∈ alternatives,
      Alternative.BuildsSteps context alternative.elements := by
  refine Expr.induction ?node ?token ?wildcard ?rule ?subrule ?action ?predicate ?nil ?cons
    ?none ?alternative
  case node =>
    intro id span label name children ih hDecided cursor last hLast
    obtain ⟨hChildren, -⟩ := List.forall_mem_append.1 hDecided
    obtain ⟨hBuilt, hFresh⟩ := ih hChildren (.children (last + 2)) (last + 2) (Nat.le_refl _)
    have hLt : cursor.number < last + 2 := by omega
    have hNot := hFresh.not_mem (Nat.le_of_lt hLt) hLt
    have hNe : cursor ≠ .children (last + 2) := by
      rintro rfl
      exact Nat.lt_irrefl _ hLt
    rw [Expr.step]
    exact ⟨.node hNe hNot hBuilt, hFresh.node cursor⟩
  case token =>
    intro id span label name _ cursor last _
    rw [Expr.step]
    exact ⟨.token, .singleton (Nat.le_refl last) cursor⟩
  case wildcard =>
    intro id span label _ cursor last _
    rw [Expr.step]
    exact ⟨.wildcard, .singleton (Nat.le_refl last) cursor⟩
  case rule =>
    intro id span label name args _ cursor last _
    obtain ⟨hSource, hAccesses, hLe⟩ := context.arguments_spec args last
    rw [Expr.step]
    exact ⟨.call hSource hAccesses, .singleton hLe cursor⟩
  case subrule =>
    intro id span repetition alternatives ih hDecided cursor last hLast
    obtain ⟨hInner, hThis⟩ := List.forall_mem_append.1 hDecided
    have hDecided : Alternative.Decided (context.decisionAt? (.subrule id)) repetition
      alternatives := hThis _ (List.mem_singleton_self _)
    rw [Expr.step]
    cases hDecision : context.decisionAt? (.subrule id) with
    | some decision =>
      rw [hDecision] at hDecided
      obtain ⟨hLength, hNeed⟩ := hDecided
      obtain ⟨hKind, hLe⟩ := repetition.choiceKind_spec last
      obtain ⟨hArms, hFresh⟩ := Alternative.built_arms ih hInner
        ((List.length_map _).trans hLength) cursor _ (Nat.le_trans hLast hLe)
      have hBuilt : Expr.Built context cursor
          (.subrule id span (repetition.choiceKind.run last).1.repetition alternatives)
          (.choice cursor (repetition.choiceKind.run last).1 decision _) :=
        .choice (hKind.symm ▸ hNeed) hDecision hArms
      rw [hKind] at hBuilt
      exact ⟨hBuilt, hFresh.weaken hLe⟩
    | none =>
      rw [hDecision] at hDecided
      obtain ⟨rfl, elements, inner, rfl⟩ := hDecided
      obtain ⟨hElements, -⟩ := List.forall_mem_append.1 hInner
      obtain ⟨hBuilt, hFresh⟩ := ih _ List.mem_cons_self hElements cursor last hLast
      simp only [Alternative.sequences_singleton]
      exact ⟨.block hDecision hBuilt, hFresh⟩
  case action =>
    intro id code _ cursor last _
    rw [Expr.step]
    exact ⟨.action, .nil (Nat.le_refl last) cursor⟩
  case predicate =>
    intro id code _ cursor last _
    rw [Expr.step]
    exact ⟨.predicate, .nil (Nat.le_refl last) cursor⟩
  case nil =>
    intro _ cursor last _
    rw [Alternative.steps]
    exact ⟨.nil, .nil (Nat.le_refl last) cursor⟩
  case cons =>
    intro expr exprs ihExpr ihExprs hDecided cursor last hLast
    obtain ⟨hExpr, hExprs⟩ := List.forall_mem_append.1 hDecided
    -- the later elements take their numbers first
    obtain ⟨hLater, hFreshLater⟩ := ihExprs hExprs cursor last hLast
    obtain ⟨hStep, hFresh⟩ := ihExpr hExpr cursor _ (Nat.le_trans hLast hFreshLater.le)
    rw [Alternative.steps]
    exact ⟨.cons hStep hLater, hFreshLater.append' hFresh⟩
  case none => exact fun _ h => absurd h List.not_mem_nil
  case alternative =>
    intro guard elements span alternatives ihElements ihAlternatives
    exact List.forall_mem_cons.2 ⟨ihElements, ihAlternatives⟩

/-- The steps of a rule stand for the rule. -/
theorem Rule.built_steps {rule : Rule}
    (hDecided : Alternative.Decided (context.decisionAt? (.rule context.rule)) .once
      rule.alternatives) (hInner : ∀ expr ∈ rule.exprs, expr.Decided context) :
    rule.Built context (rule.steps context) := by
  rw [Rule.steps]
  cases hDecision : context.decisionAt? (.rule context.rule) with
  | some decision =>
    rw [hDecision] at hDecided
    obtain ⟨hLength, hNeed⟩ := hDecided
    have hPredictions : (decision.candidates.map (·.prediction)).length =
        rule.alternatives.length := (List.length_map _).trans hLength
    have hArms := Alternative.built_arms (TreeGrammar.built_steps.2.2 _) hInner hPredictions .given
      0 (Nat.le_refl 0)
    exact .choice (hNeed rfl) hDecision hArms.1
  | none =>
    rw [hDecision] at hDecided
    obtain ⟨-, elements, span, hAlternatives⟩ := hDecided
    rw [Rule.exprs, hAlternatives] at hInner
    obtain ⟨hElements, -⟩ := List.forall_mem_append.1 hInner
    have hBuilt := TreeGrammar.built_steps.2.1 elements hElements .given 0 (Nat.le_refl 0)
    simp only [hAlternatives, Alternative.sequences_singleton]
    exact .sequence hDecision hAlternatives hBuilt.1

end Build

end TreeGrammar
