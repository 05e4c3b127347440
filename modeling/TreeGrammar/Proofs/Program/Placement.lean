import TreeGrammar.Proofs.Program.Procedures
import TreeGrammar.Proofs.Program.Variants

/-!
# Steps in their places

The step of an element depends on where the element stands only through the cursor on which the step
works and through the number after which its variables are numbered. The steps of a rule are
described without a counter: each is the template of its element in its place.

## Main definitions

* `Expr.variableCount`: the number of the variables of an element
* `Expr.stepAt`, `Rule.stepsAt`: the step of an element in a place, and the steps of a rule
* `Expr.template`, `Step.place`: the step of an element by itself, and a step that is put in a place
* `Step.IsOn`: every step works on the cursor of the innermost node around it
* `Step.variables`: the numbered variables of a step

## Main results

* `Expr.stepAt_eq_place`: the step of an element is its template in its place
* `Rule.areOn_stepsAt`: the steps of a rule work on the cursors of the nodes around them
* `Rule.areNumbered_stepsAt`, `AreNumbered.nodup`: the variables of a rule are different
* `Rule.steps_eq`: the steps of a rule, if nothing is wrong with its code
-/

namespace TreeGrammar

/-! ### Elements in their places -/

namespace BuildContext

variable (context : BuildContext)

/-- The number of variables that hold the arguments of a call. There are none if the arguments refer
to no attributes, or if they are no expressions. -/
def argumentCount : Option Fragment → Nat
  | none => 0
  | some fragment =>
    match Host.readArguments fragment.boundText with
    | .error _ => 0
    | .ok values => if (context.accesses fragment).isEmpty then 0 else values.length

/-- The arguments of a call, whose variables have the numbers after the given one. -/
def argumentsAt (last : Nat) : Option Fragment → Arguments
  | none => {}
  | some fragment =>
    match Host.readArguments fragment.boundText with
    | .error _ => {}
    | .ok values =>
      let accesses := context.accesses fragment
      { source := fragment, accesses, values
        temporaries := if accesses.isEmpty then [] else List.range' (last + 1) values.length }

theorem temporaries_argumentsAt (last : Nat) (args : Option Fragment) :
    (context.argumentsAt last args).temporaries =
      List.range' (last + 1) (context.argumentCount args) := by
  cases args with
  | none => rfl
  | some fragment =>
    dsimp only [argumentsAt, argumentCount]
    cases Host.readArguments fragment.boundText with
    | error => rfl
    | ok values =>
      dsimp only
      split <;> rfl

end BuildContext

namespace Repetition

/-- The number of variables that count the rounds of a repetition. -/
def counterCount : Repetition → Nat
  | plus => 1
  | _ => 0

/-- The kind of the choice at a repetition, whose counter has the number after the given one. -/
def kindAt (last : Nat) : Repetition → ChoiceKind
  | once => .once
  | optional => .optional
  | star => .star
  | plus => .plus (last + 1)

end Repetition

mutual

/-- The number of variables of an element. -/
def Expr.variableCount (context : BuildContext) : Expr → Nat
  | .node _ _ _ _ children => 2 + Alternative.variableCount context children
  | .rule _ _ _ _ args => context.argumentCount args
  | .subrule id _ repetition alternatives =>
    match context.decisionAt? (.subrule id) with
    | some decision => repetition.counterCount +
      Alternative.armsCount context (decision.candidates.map (·.prediction)) alternatives
    | none => Alternative.allCount context alternatives
  | .token .. | .wildcard .. | .action .. | .predicate .. => 0

/-- The number of variables of a sequence. -/
def Alternative.variableCount (context : BuildContext) : List Expr → Nat
  | [] => 0
  | expr :: exprs => Alternative.variableCount context exprs + expr.variableCount context

/-- The number of variables of alternatives one after the other. -/
def Alternative.allCount (context : BuildContext) : List Alternative → Nat
  | [] => 0
  | .mk _ elements _ :: alternatives =>
    Alternative.variableCount context elements + Alternative.allCount context alternatives

/-- The number of variables of alternatives with the given predictions. -/
def Alternative.armsCount (context : BuildContext) :
    List LookaheadSet → List Alternative → Nat
  | _ :: predictions, .mk _ elements _ :: alternatives =>
    Alternative.variableCount context elements +
      Alternative.armsCount context predictions alternatives
  | _, _ => 0

end

mutual

/-- The step of an element on a cursor. Its variables have the numbers after the given one. -/
def Expr.stepAt (context : BuildContext) (cursor : CursorVariable) (last : Nat) : Expr → Step
  | .node _ _ label name children =>
    .node cursor (label.map Ident.name) name.name (last + 1) (last + 2)
      (Alternative.stepsAt context (.children (last + 2)) (last + 2) children)
  | .token _ _ label name => .token cursor (label.map Ident.name) name.name
  | .wildcard _ _ label => .wildcard cursor (label.map Ident.name)
  | .rule _ _ label name args =>
    .call cursor (label.map Ident.name) name.name (context.argumentsAt last args)
  | .subrule id _ repetition alternatives =>
    match context.decisionAt? (.subrule id) with
    | some decision =>
      .choice cursor (repetition.kindAt last) decision
        (Alternative.armsAt context cursor (last + repetition.counterCount)
          (decision.candidates.map (·.prediction)) alternatives)
    | none => .block (Alternative.allAt context cursor last alternatives)
  | .action _ code => .action (context.code code)
  | .predicate _ code => .predicate cursor (context.code code) code.trimmed

/-- The steps of a sequence on a cursor. The variables of the last element are numbered first. -/
def Alternative.stepsAt (context : BuildContext) (cursor : CursorVariable) (last : Nat) :
    List Expr → List Step
  | [] => []
  | expr :: exprs =>
    expr.stepAt context cursor (last + Alternative.variableCount context exprs) ::
      Alternative.stepsAt context cursor last exprs

/-- The steps of alternatives one after the other. -/
def Alternative.allAt (context : BuildContext) (cursor : CursorVariable) (last : Nat) :
    List Alternative → List Step
  | [] => []
  | .mk _ elements _ :: alternatives =>
    Alternative.stepsAt context cursor last elements ++
      Alternative.allAt context cursor (last + Alternative.variableCount context elements)
        alternatives

/-- The arms of alternatives with the given predictions. -/
def Alternative.armsAt (context : BuildContext) (cursor : CursorVariable) (last : Nat) :
    List LookaheadSet → List Alternative → List Arm
  | prediction :: predictions, .mk guard elements _ :: alternatives =>
    .mk prediction (guard.map context.code)
        (Alternative.stepsAt context cursor last elements) ::
      Alternative.armsAt context cursor (last + Alternative.variableCount context elements)
        predictions alternatives
  | _, _ => []

end

/-- The steps of a rule. -/
def Rule.stepsAt (context : BuildContext) (rule : Rule) : List Step :=
  match context.decisionAt? (.rule context.rule) with
  | some decision => [.choice .given .once decision (Alternative.armsAt context .given 0
      (decision.candidates.map (·.prediction)) rule.alternatives)]
  | none => Alternative.allAt context .given 0 rule.alternatives

/-- The number of variables of a rule. -/
def Rule.variableCount (context : BuildContext) (rule : Rule) : Nat :=
  match context.decisionAt? (.rule context.rule) with
  | some decision => Alternative.armsCount context (decision.candidates.map (·.prediction))
      rule.alternatives
  | none => Alternative.allCount context rule.alternatives

/-- The step of an element by itself. -/
def Expr.template (context : BuildContext) (expr : Expr) : Step := expr.stepAt context .given 0

/-- For each element of a sequence the number after which its variables are numbered. -/
def Alternative.lasts (context : BuildContext) (last : Nat) : List Expr → List Nat
  | [] => []
  | _ :: exprs =>
    (last + Alternative.variableCount context exprs) :: Alternative.lasts context last exprs

/-! ### Templates -/

/-- The cursor of a template where the template is put. -/
def CursorVariable.place (inner cursor : CursorVariable) (last : Nat) : CursorVariable :=
  match inner with
  | given => cursor
  | children number => .children (last + number)

/-- The arguments in a template where the template is put. -/
def Arguments.place (arguments : Arguments) (last : Nat) : Arguments :=
  { arguments with temporaries := arguments.temporaries.map (last + ·) }

/-- The kind of a choice in a template where the template is put. -/
def ChoiceKind.place (kind : ChoiceKind) (last : Nat) : ChoiceKind :=
  match kind with
  | plus counter => .plus (last + counter)
  | kind => kind

mutual

/-- A template is put in its place: it works on the given cursor, and its variables are numbered
after the given number. Nothing else changes. -/
def Step.place (cursor : CursorVariable) (last : Nat) : Step → Step
  | .token inner label name => .token (inner.place cursor last) label name
  | .wildcard inner label => .wildcard (inner.place cursor last) label
  | .node inner label name node children steps =>
    .node (inner.place cursor last) label name (last + node) (last + children)
      (Step.listPlace cursor last steps)
  | .call inner label rule arguments =>
    .call (inner.place cursor last) label rule (arguments.place last)
  | .action code => .action code
  | .predicate inner code text => .predicate (inner.place cursor last) code text
  | .block steps => .block (Step.listPlace cursor last steps)
  | .choice inner kind decision arms =>
    .choice (inner.place cursor last) (kind.place last) decision (Arm.listPlace cursor last arms)

/-- Templates are put in their places. -/
def Step.listPlace (cursor : CursorVariable) (last : Nat) : List Step → List Step
  | [] => []
  | step :: steps => step.place cursor last :: Step.listPlace cursor last steps

/-- The steps of arms are put in their places. -/
def Arm.listPlace (cursor : CursorVariable) (last : Nat) : List Arm → List Arm
  | [] => []
  | .mk prediction guard steps :: arms =>
    .mk prediction guard (Step.listPlace cursor last steps) :: Arm.listPlace cursor last arms

end

theorem Step.listPlace_append (cursor : CursorVariable) (last : Nat) (steps more : List Step) :
    listPlace cursor last (steps ++ more) =
      listPlace cursor last steps ++ listPlace cursor last more := by
  induction steps with
  | nil => rfl
  | cons step steps ih => rw [List.cons_append, listPlace, listPlace, ih, List.cons_append]

section Place

variable (context : BuildContext) (cursor : CursorVariable) (start : Nat)

theorem Repetition.kindAt_place (repetition : Repetition) (last : Nat) :
    repetition.kindAt (start + last) = (repetition.kindAt last).place start := by
  cases repetition <;> rfl

theorem BuildContext.argumentsAt_place (args : Option Fragment) (last : Nat) :
    context.argumentsAt (start + last) args = (context.argumentsAt last args).place start := by
  have hNumbers (count : Nat) : List.range' (start + last + 1) count =
      (List.range' (last + 1) count).map (start + ·) := by
    rw [List.map_add_range', Nat.add_assoc]
  cases args with
  | none => rfl
  | some fragment =>
    dsimp only [argumentsAt]
    cases Host.readArguments fragment.boundText with
    | error => rfl
    | ok values =>
      dsimp only [Arguments.place]
      rw [hNumbers]
      split <;> rfl

/-- What stands in a place is the same up to its numbers. -/
theorem stepAt_place :
    (∀ (expr : Expr) inner last,
      expr.stepAt context (inner.place cursor start) (start + last) =
        (expr.stepAt context inner last).place cursor start) ∧
    (∀ exprs inner last,
      Alternative.stepsAt context (inner.place cursor start) (start + last) exprs =
        Step.listPlace cursor start (Alternative.stepsAt context inner last exprs)) ∧
    ∀ alternatives inner last,
      Alternative.allAt context (inner.place cursor start) (start + last) alternatives =
        Step.listPlace cursor start (Alternative.allAt context inner last alternatives) ∧
      ∀ predictions,
        Alternative.armsAt context (inner.place cursor start) (start + last) predictions
          alternatives =
        Arm.listPlace cursor start
          (Alternative.armsAt context inner last predictions alternatives) := by
  refine Expr.induction ?node ?token ?wildcard ?rule ?subrule ?action ?predicate ?nil ?cons
    ?none ?alternative
  case node =>
    intro id span label name children ih inner last
    -- the children of the node have a cursor of their own, whose number is moved as well
    have hChildren := ih (.children (last + 2)) (last + 2)
    rw [Expr.stepAt, Expr.stepAt, Step.place, ← hChildren]
    rfl
  case token | wildcard | action | predicate => intros; rfl
  case rule =>
    intro id span label name args inner last
    rw [Expr.stepAt, Expr.stepAt, Step.place, context.argumentsAt_place]
  case subrule =>
    intro id span repetition alternatives ih inner last
    rw [Expr.stepAt, Expr.stepAt]
    cases context.decisionAt? (.subrule id) with
    | none =>
      dsimp only
      rw [Step.place, (ih inner last).1]
    | some decision =>
      dsimp only
      rw [Step.place, repetition.kindAt_place, Nat.add_assoc, (ih inner _).2]
  case nil => intros; rfl
  case cons =>
    intro expr exprs ihExpr ihExprs inner last
    rw [Alternative.stepsAt, Alternative.stepsAt, Step.listPlace, Nat.add_assoc, ihExpr, ihExprs]
  case none =>
    intro inner last
    refine ⟨rfl, fun predictions => ?_⟩
    cases predictions <;> rfl
  case alternative =>
    intro guard elements span alternatives ihElements ihAlternatives inner last
    refine ⟨?_, fun predictions => ?_⟩
    · rw [Alternative.allAt, Alternative.allAt, Step.listPlace_append, Nat.add_assoc, ihElements,
        (ihAlternatives inner _).1]
    · cases predictions with
      | nil => rfl
      | cons prediction predictions =>
        rw [Alternative.armsAt, Alternative.armsAt, Arm.listPlace, Nat.add_assoc, ihElements,
          (ihAlternatives inner _).2]

/-- The step of an element is its template in its place. -/
theorem Expr.stepAt_eq_place (expr : Expr) (last : Nat) :
    expr.stepAt context cursor last = (expr.template context).place cursor last :=
  (stepAt_place context cursor last).1 expr .given 0

theorem Alternative.stepsAt_eq_place (exprs : List Expr) (last : Nat) :
    stepsAt context cursor last exprs =
      List.zipWith (fun expr number => (expr.template context).place cursor number) exprs
        (lasts context last exprs) := by
  induction exprs with
  | nil => rfl
  | cons expr exprs ih =>
    rw [stepsAt, lasts, List.zipWith_cons_cons, expr.stepAt_eq_place, ih]

end Place

/-! ### Cursors -/

mutual

/-- A step works on a cursor, and the steps inside a node work on the cursor over its children. -/
def Step.IsOn (cursor : CursorVariable) : Step → Prop
  | .token inner .. | .wildcard inner _ | .call inner .. | .predicate inner .. => inner = cursor
  | .node inner _ _ _ children steps => inner = cursor ∧ Step.AreOn (.children children) steps
  | .action _ => True
  | .block steps => Step.AreOn cursor steps
  | .choice inner _ _ arms => inner = cursor ∧ Arm.AreOn cursor arms

/-- Steps work on a cursor, apart from those inside nodes. -/
def Step.AreOn (cursor : CursorVariable) : List Step → Prop
  | [] => True
  | step :: steps => step.IsOn cursor ∧ Step.AreOn cursor steps

/-- The steps of arms work on a cursor, apart from those inside nodes. -/
def Arm.AreOn (cursor : CursorVariable) : List Arm → Prop
  | [] => True
  | .mk _ _ steps :: arms => Step.AreOn cursor steps ∧ Arm.AreOn cursor arms

end

theorem Step.areOn_append {cursor : CursorVariable} {steps more : List Step}
    (h : AreOn cursor steps) (hMore : AreOn cursor more) : AreOn cursor (steps ++ more) := by
  induction steps with
  | nil => exact hMore
  | cons step steps ih => exact ⟨h.1, ih h.2⟩

/-- Elements work on the cursor of the innermost node around them. -/
theorem isOn_stepAt (context : BuildContext) :
    (∀ (expr : Expr) cursor last, (expr.stepAt context cursor last).IsOn cursor) ∧
    (∀ exprs cursor last, Step.AreOn cursor (Alternative.stepsAt context cursor last exprs)) ∧
    ∀ alternatives cursor last,
      Step.AreOn cursor (Alternative.allAt context cursor last alternatives) ∧
      ∀ predictions,
        Arm.AreOn cursor (Alternative.armsAt context cursor last predictions alternatives) := by
  refine Expr.induction ?node ?token ?wildcard ?rule ?subrule ?action ?predicate ?nil ?cons
    ?none ?alternative
  case node => exact fun id span label name children ih cursor last => ⟨rfl, ih _ _⟩
  case token | wildcard | rule | predicate => intros; rfl
  case subrule =>
    intro id span repetition alternatives ih cursor last
    rw [Expr.stepAt]
    split
    · exact ⟨rfl, (ih cursor _).2 _⟩
    · exact (ih cursor last).1
  case action | nil => intros; trivial
  case cons => exact fun expr exprs ihExpr ihExprs cursor last => ⟨ihExpr _ _, ihExprs _ _⟩
  case none =>
    intro cursor last
    refine ⟨trivial, fun predictions => ?_⟩
    cases predictions <;> trivial
  case alternative =>
    intro guard elements span alternatives ihElements ihAlternatives cursor last
    refine ⟨Step.areOn_append (ihElements _ _) (ihAlternatives _ _).1, fun predictions => ?_⟩
    cases predictions with
    | nil => trivial
    | cons prediction predictions => exact ⟨ihElements _ _, (ihAlternatives _ _).2 _⟩

/-- The steps of a rule work on the cursor that the procedure is given, apart from those inside
nodes. -/
theorem Rule.areOn_stepsAt (context : BuildContext) (rule : Rule) :
    Step.AreOn .given (rule.stepsAt context) := by
  have hAlternatives := (isOn_stepAt context).2.2 rule.alternatives .given 0
  rw [stepsAt]
  split
  · exact ⟨⟨rfl, hAlternatives.2 _⟩, trivial⟩
  · exact hAlternatives.1

/-! ### Variables -/

/-- A variable that no name of the grammar stands for. -/
inductive FreshVariable where
  | node (number : Nat)
  | cursor (number : Nat)
  | counter (number : Nat)
  | argument (number : Nat)
  deriving DecidableEq, Repr

namespace FreshVariable

/-- The number of the variable. -/
def number : FreshVariable → Nat
  | node number | cursor number | counter number | argument number => number

/-- The name of the variable. -/
def name : FreshVariable → String
  | node number => nodeVariable number
  | cursor number => (CursorVariable.children number).name
  | counter number => counterVariable number
  | argument number => argumentVariable number

theorem exists_numbered (fresh : FreshVariable) :
    ∃ kind, fresh.name = numbered kind fresh.number := by
  cases fresh <;> exact ⟨_, rfl⟩

/-- Variables with different numbers have different names, whatever they stand for. -/
theorem number_eq {a b : FreshVariable} (h : a.name = b.name) : a.number = b.number := by
  have hEnd (kind : String) : ¬ EndsInDigit ("__" ++ kind ++ "_") := by
    rintro ⟨c, hLast, hDigit⟩
    have hText : ("__" ++ kind ++ "_").toList = ("__" ++ kind).toList ++ ['_'] :=
      String.toList_append ..
    rw [hText, List.getLast?_concat] at hLast
    obtain rfl := Option.some.inj hLast
    cases hDigit
  obtain ⟨kind, hName⟩ := a.exists_numbered
  obtain ⟨kind', hName'⟩ := b.exists_numbered
  rw [hName, hName'] at h
  exact number_inj (hEnd kind) (hEnd kind') h

end FreshVariable

/-- The variable that counts the rounds of a choice. -/
def ChoiceKind.variables : ChoiceKind → List FreshVariable
  | plus counter => [.counter counter]
  | _ => []

mutual

/-- The variables of a step that no names of the grammar stand for. -/
def Step.variables : Step → List FreshVariable
  | .node _ _ _ node children steps =>
    .node node :: .cursor children :: Step.listVariables steps
  | .call _ _ _ arguments => arguments.temporaries.map .argument
  | .block steps => Step.listVariables steps
  | .choice _ kind _ arms => kind.variables ++ Arm.listVariables arms
  | .token .. | .wildcard .. | .action .. | .predicate .. => []

/-- The variables of steps. -/
def Step.listVariables : List Step → List FreshVariable
  | [] => []
  | step :: steps => step.variables ++ Step.listVariables steps

/-- The variables of the steps of arms. -/
def Arm.listVariables : List Arm → List FreshVariable
  | [] => []
  | .mk _ _ steps :: arms => Step.listVariables steps ++ Arm.listVariables arms

end

theorem Step.listVariables_append (steps more : List Step) :
    listVariables (steps ++ more) = listVariables steps ++ listVariables more := by
  induction steps with
  | nil => rfl
  | cons step steps ih =>
    rw [List.cons_append, listVariables, listVariables, ih, List.append_assoc]

/-- The numbers of some variables are those after a number. -/
def AreNumbered (last count : Nat) (names : List FreshVariable) : Prop :=
  (names.map FreshVariable.number).Perm (List.range' (last + 1) count)

namespace AreNumbered

variable {last count more : Nat} {xs ys : List FreshVariable}

theorem append (hxs : AreNumbered last count xs) (hys : AreNumbered (last + count) more ys) :
    AreNumbered last (count + more) (xs ++ ys) := by
  rw [AreNumbered, List.map_append, ← List.range'_append_1, Nat.add_right_comm]
  exact List.Perm.append hxs hys

/-- The order of variables does not matter. -/
theorem append' (hxs : AreNumbered (last + count) more xs) (hys : AreNumbered last count ys) :
    AreNumbered last (count + more) (xs ++ ys) := by
  rw [AreNumbered, List.map_append]
  refine List.perm_append_comm.trans ?_
  rw [← List.map_append]
  exact hys.append hxs

theorem cons {fresh : FreshVariable} (hFirst : fresh.number = last + 1)
    (h : AreNumbered (last + 1) count xs) : AreNumbered last (1 + count) (fresh :: xs) := by
  have hOne : AreNumbered last 1 [fresh] := .of_eq (congrArg (fun number => [number]) hFirst)
  exact hOne.append h

/-- Numbered variables have different names. -/
theorem nodup (h : AreNumbered last count xs) : (xs.map FreshVariable.name).Nodup := by
  have hNumbers : (xs.map FreshVariable.number).Nodup := h.nodup_iff.2 List.nodup_range'
  refine List.pairwise_map.2 ((List.pairwise_map.1 hNumbers).imp fun hNe hName => hNe ?_)
  exact FreshVariable.number_eq hName

end AreNumbered

theorem Repetition.areNumbered_kindAt (repetition : Repetition) (last : Nat) :
    AreNumbered last repetition.counterCount (repetition.kindAt last).variables := by
  cases repetition <;> exact .refl _

theorem BuildContext.areNumbered_argumentsAt (context : BuildContext) (args : Option Fragment)
    (last : Nat) : AreNumbered last (context.argumentCount args)
      ((context.argumentsAt last args).temporaries.map .argument) := by
  rw [temporaries_argumentsAt, AreNumbered, List.map_map]
  exact .of_eq (List.map_id _)

/-- The variables of elements have the numbers after the one that is given. -/
theorem areNumbered_stepAt (context : BuildContext) :
    (∀ (expr : Expr) cursor last, AreNumbered last (expr.variableCount context)
      (expr.stepAt context cursor last).variables) ∧
    (∀ exprs cursor last, AreNumbered last (Alternative.variableCount context exprs)
      (Step.listVariables (Alternative.stepsAt context cursor last exprs))) ∧
    ∀ alternatives cursor last,
      AreNumbered last (Alternative.allCount context alternatives)
        (Step.listVariables (Alternative.allAt context cursor last alternatives)) ∧
      ∀ predictions, AreNumbered last (Alternative.armsCount context predictions alternatives)
        (Arm.listVariables
          (Alternative.armsAt context cursor last predictions alternatives)) := by
  refine Expr.induction ?node ?token ?wildcard ?rule ?subrule ?action ?predicate ?nil ?cons
    ?none ?alternative
  case node =>
    intro id span label name children ih cursor last
    have hChildren := ih (.children (last + 2)) (last + 2)
    have hCursor : AreNumbered (last + 1) _ (.cursor (last + 2) :: _) := hChildren.cons rfl
    have hNode : AreNumbered last _ (.node (last + 1) :: _) := hCursor.cons rfl
    rwa [← Nat.add_assoc] at hNode
  case token | wildcard | action | predicate | nil => intros; exact .refl _
  case rule =>
    exact fun id span label name args cursor last => context.areNumbered_argumentsAt args last
  case subrule =>
    intro id span repetition alternatives ih cursor last
    rw [Expr.variableCount, Expr.stepAt]
    cases context.decisionAt? (.subrule id) with
    | none => exact (ih cursor last).1
    | some decision => exact (repetition.areNumbered_kindAt last).append ((ih cursor _).2 _)
  case cons =>
    intro expr exprs ihExpr ihExprs cursor last
    rw [Alternative.variableCount, Alternative.stepsAt, Step.listVariables]
    exact (ihExpr _ _).append' (ihExprs _ _)
  case none =>
    intro cursor last
    refine ⟨.refl _, fun predictions => ?_⟩
    cases predictions <;> exact .refl _
  case alternative =>
    intro guard elements span alternatives ihElements ihAlternatives cursor last
    refine ⟨?_, fun predictions => ?_⟩
    · rw [Alternative.allCount, Alternative.allAt, Step.listVariables_append]
      exact (ihElements _ _).append (ihAlternatives _ _).1
    · cases predictions with
      | nil => exact .refl _
      | cons prediction predictions =>
        rw [Alternative.armsCount, Alternative.armsAt, Arm.listVariables]
        exact (ihElements _ _).append ((ihAlternatives _ _).2 _)

/-- The variables of a rule have the first numbers. -/
theorem Rule.areNumbered_stepsAt (context : BuildContext) (rule : Rule) :
    AreNumbered 0 (rule.variableCount context) (Step.listVariables (rule.stepsAt context)) := by
  have hAlternatives := (areNumbered_stepAt context).2.2 rule.alternatives .given 0
  rw [variableCount, stepsAt]
  cases context.decisionAt? (.rule context.rule) with
  | none => exact hAlternatives.1
  | some decision =>
    have hArms := hAlternatives.2 (decision.candidates.map (·.prediction))
    simpa [Step.listVariables, Step.variables, ChoiceKind.variables] using hArms

/-! ### Steps with numbers from a counter -/

theorem run_bind {σ α β : Type} (x : StateM σ α) (f : α → StateM σ β) (s : σ) :
    (x >>= f).run s = (f (x.run s).1).run (x.run s).2 := rfl

theorem run_pure {σ α : Type} (a : α) (s : σ) : (pure a : StateM σ α).run s = (a, s) := rfl

theorem run_freshNumber (last : Nat) : freshNumber.run last = (last + 1, last + 1) := rfl

/-- Values are numbered one after the other, if the supply of numbers only goes up. -/
theorem run_mapM_next {σ α : Type} {next : StateM σ Nat} {state : Nat → σ}
    (h : ∀ last, next.run (state last) = (last + 1, state (last + 1))) (values : List α)
    (last : Nat) : (values.mapM fun _ => next).run (state last) =
      (List.range' (last + 1) values.length, state (last + values.length)) := by
  induction values generalizing last with
  | nil => rfl
  | cons value values ih =>
    rw [List.mapM_cons, run_bind, h, run_bind, ih, run_pure, List.length_cons, List.range'_succ,
      Nat.add_comm values.length, ← Nat.add_assoc]

section Counter

variable (context : BuildContext)

theorem Repetition.run_choiceKind (repetition : Repetition) (last : Nat) :
    repetition.choiceKind.run last =
      (repetition.kindAt last, last + repetition.counterCount) := by
  cases repetition <;> rfl

theorem BuildContext.run_arguments {args : Option Fragment}
    (h : ∀ fragment ∈ args, (Host.readArguments fragment.boundText).isOk) (last : Nat) :
    (context.arguments args).run last =
      (context.argumentsAt last args, last + context.argumentCount args) := by
  cases args with
  | none => rfl
  | some fragment =>
    have hRead := h fragment rfl
    dsimp only [argumentsAt, argumentCount]
    rw [arguments]
    cases hValues : Host.readArguments fragment.boundText with
    | error =>
      rw [hValues] at hRead
      cases hRead
    | ok values =>
      dsimp only [Except.toOption, Option.getD]
      split
      · rfl
      · rw [run_bind, run_mapM_next run_freshNumber, run_pure]

theorem Expr.isOk_of_lexicalErrors {id : Nat} {span : Span} {label : Option Ident} {name : Ident}
    {args : Option Fragment} (h : (Expr.rule id span label name args).lexicalErrors = []) :
    ∀ fragment ∈ args, (Host.readArguments fragment.boundText).isOk := by
  rintro fragment hFragment
  obtain rfl := Option.mem_def.1 hFragment
  rw [lexicalErrors] at h
  by_contra hNot
  rw [if_neg hNot] at h
  cases h

variable {context}

/-- The steps that a counter numbers are those in their places, if nothing is wrong with the
arguments of calls. -/
theorem run_step :
    (∀ expr : Expr, (∀ inner ∈ expr.postorder, inner.lexicalErrors = []) → ∀ cursor last,
      (expr.step context cursor).run last =
        (expr.stepAt context cursor last, last + expr.variableCount context)) ∧
    (∀ exprs, (∀ inner ∈ Expr.postorderList exprs, inner.lexicalErrors = []) → ∀ cursor last,
      (Alternative.steps context cursor exprs).run last =
        (Alternative.stepsAt context cursor last exprs,
          last + Alternative.variableCount context exprs)) ∧
    ∀ alternatives, (∀ inner ∈ Expr.postorderAlternatives alternatives,
        inner.lexicalErrors = []) → ∀ cursor last,
      (Alternative.sequences context cursor alternatives).run last =
        (Alternative.allAt context cursor last alternatives,
          last + Alternative.allCount context alternatives) ∧
      ∀ predictions, (Alternative.arms context cursor predictions alternatives).run last =
        (Alternative.armsAt context cursor last predictions alternatives,
          last + Alternative.armsCount context predictions alternatives) := by
  -- the counter goes on where the part in front has left it, so the numbers of variables add up
  refine Expr.induction ?node ?token ?wildcard ?rule ?subrule ?action ?predicate ?nil ?cons
    ?none ?alternative
  case node =>
    intro id span label name children ih h cursor last
    have hChildren := ih (List.forall_mem_append.1 h).1 (.children (last + 2)) (last + 2)
    rw [Nat.add_assoc] at hChildren
    rw [Expr.step, run_bind, run_freshNumber, run_bind, run_freshNumber, run_bind, hChildren]
    rfl
  case token | wildcard | action | predicate =>
    intros
    rw [Expr.step]
    rfl
  case rule =>
    intro id span label name args h cursor last
    have hRead := Expr.isOk_of_lexicalErrors (h _ (List.mem_singleton_self _))
    rw [Expr.step, run_bind, context.run_arguments hRead]
    rfl
  case subrule =>
    intro id span repetition alternatives ih h cursor last
    have hInner := (List.forall_mem_append.1 h).1
    rw [Expr.step, Expr.stepAt, Expr.variableCount]
    cases context.decisionAt? (.subrule id) with
    | none =>
      dsimp only
      rw [run_bind, (ih hInner cursor last).1]
      rfl
    | some decision =>
      dsimp only
      rw [run_bind, repetition.run_choiceKind, run_bind, (ih hInner cursor _).2, Nat.add_assoc]
      rfl
  case nil =>
    intros
    rw [Alternative.steps]
    rfl
  case cons =>
    intro expr exprs ihExpr ihExprs h cursor last
    obtain ⟨hExpr, hExprs⟩ := List.forall_mem_append.1 h
    rw [Alternative.steps, run_bind, ihExprs hExprs, run_bind, ihExpr hExpr, Nat.add_assoc]
    rfl
  case none =>
    intro _ cursor last
    refine ⟨?_, fun predictions => ?_⟩
    · rw [Alternative.sequences]
      rfl
    · rw [Alternative.arms_of_nil]
      cases predictions <;> rfl
  case alternative =>
    intro guard elements span alternatives ihElements ihAlternatives h cursor last
    obtain ⟨hElements, hAlternatives⟩ := List.forall_mem_append.1 h
    refine ⟨?_, fun predictions => ?_⟩
    · rw [Alternative.sequences, run_bind, ihElements hElements, run_bind,
        (ihAlternatives hAlternatives cursor _).1, Nat.add_assoc]
      rfl
    · cases predictions with
      | nil =>
        rw [Alternative.arms_nil]
        rfl
      | cons prediction predictions =>
        rw [Alternative.arms, run_bind, ihElements hElements, run_bind,
          (ihAlternatives hAlternatives cursor _).2, Nat.add_assoc]
        rfl

end Counter

/-- If nothing is wrong with the code of a rule, then its steps are those in their places. -/
theorem Rule.steps_eq (context : BuildContext) {rule : Rule} (h : rule.lexicalErrors = []) :
    rule.steps context = rule.stepsAt context := by
  have hExprs : ∀ inner ∈ rule.exprs, inner.lexicalErrors = [] :=
    List.flatMap_eq_nil_iff.1 (List.append_eq_nil_iff.1 h).2
  have hAlternatives := (@run_step context).2.2 rule.alternatives hExprs .given 0
  rw [steps, stepsAt]
  cases context.decisionAt? (.rule context.rule) with
  | none =>
    dsimp only
    rw [hAlternatives.1]
  | some decision =>
    dsimp only
    rw [run_bind, hAlternatives.2, run_pure]

end TreeGrammar
