import TreeGrammar.Program.Emission
import TreeGrammar.Proofs.Program.Placement

/-!
# Emitted code as the code of steps

Code that is emitted from right to left, in front of the code that follows it, is the code of the
elements one after the other. Each element has the code of its step in its place, whatever follows
it. A step never begins where attributes are borrowed.

## Main definitions

* `Step.emitted`, `Step.listEmitted`: the code of a step, and of steps one after the other
* `Emitted.Released`: no step begins in a group in which attributes are borrowed

## Main results

* `Alternative.run_emit`: emitted code is the code of the steps in their places
* `Step.listWritten_listEmitted`: the code of steps as it is written
* `Step.released_listEmitted`: attributes are released before a step begins
* `Grammar.emission_direct`: emission from right to left and the code of the program
-/

namespace TreeGrammar

open Host (Token)
open Emission (current fresh withCursor)

/-! ### The code of steps -/

/-- The statement that evaluates the arguments of a call, if they refer to attributes. -/
def Arguments.emitted (arguments : Arguments) : List Emitted :=
  if arguments.accesses.isEmpty then []
  else
    [.tokens (callTokens (phrase "let")
        (arguments.temporaries.map fun number => variableTokens (argumentVariable number)) ++
        phrase "="),
      .group .brace [.guards .shared arguments.accesses, .tokens (callTokens [] arguments.values)],
      .tokens (phrase ";")]

mutual

/-- The code of a step. -/
def Step.emitted (rule : String) : Step → List Emitted
  | .token cursor label name =>
    [.step, .tokens (bindTokens label (callTokens (phrase "walker . expect")
      [cursor.tokens, stringTokens rule, stringTokens name] ++ phrase "?"))]
  | .wildcard cursor label =>
    [.step, .tokens (bindTokens label
      (callTokens (phrase "walker . wildcard") [cursor.tokens, stringTokens rule] ++ phrase "?"))]
  | .node cursor label name node children steps =>
    Emitted.expectNode rule cursor name node ++ Emitted.bindNode label node ++
      Emitted.childCursor node children ++ Step.listEmitted rule steps ++
      Emitted.endCheck rule children
  | .call cursor label called arguments =>
    .step :: arguments.emitted ++ [.tokens (bindTokens label (callTokens [.word called]
      ([phrase "walker", phrase "state", cursor.tokens, phrase "frame"] ++ arguments.passed) ++
      phrase "?"))]
  | .action code => [.step, code.emitStatement]
  | .predicate cursor code text =>
    [.step, .tokens (phrase "if !"), .group .parenthesis [code.emitCondition],
      .group .brace [.tokens (callTokens (phrase "return Err")
        [callTokens (phrase "walker . failed_predicate")
          [cursor.tokens, stringTokens rule, stringTokens text]] ++ phrase ";")]]
  | .block steps => [.step, .group .brace (Step.listEmitted rule steps)]
  | .choice cursor kind decision arms =>
    decision.emitChoice rule cursor kind (Arm.listEmitted rule arms)

/-- The code of steps one after the other. -/
def Step.listEmitted (rule : String) : List Step → List Emitted
  | [] => []
  | step :: steps => step.emitted rule ++ Step.listEmitted rule steps

/-- The code of arms, each a conditional statement. -/
def Arm.listEmitted (rule : String) : List Arm → List (List Emitted)
  | [] => []
  | .mk prediction guard steps :: arms =>
    prediction.emitArm guard (Step.listEmitted rule steps) :: Arm.listEmitted rule arms

end

theorem Step.listEmitted_eq_flatMap (rule : String) (steps : List Step) :
    listEmitted rule steps = steps.flatMap (emitted rule) := by
  induction steps with
  | nil => rfl
  | cons step steps ih => rw [listEmitted, ih, List.flatMap_cons]

theorem Step.listEmitted_append (rule : String) (steps more : List Step) :
    listEmitted rule (steps ++ more) = listEmitted rule steps ++ listEmitted rule more := by
  simp only [listEmitted_eq_flatMap, List.flatMap_append]

/-! ### Emission from right to left -/

/-- The elements of a sequence are visited from the last one to the first. -/
theorem Alternative.emit_eq_foldlM (context : BuildContext) (rule : String) (exprs : List Expr)
    (success : List Emitted) : emit context rule exprs success =
      exprs.reverse.foldlM (fun later expr => expr.emit context rule later) success := by
  rw [List.foldlM_reverse]
  induction exprs with
  | nil =>
    rw [emit]
    rfl
  | cons expr exprs ih => rw [emit, List.foldrM_cons, ih]

theorem Emission.run_current (cursor : CursorVariable) (last : Nat) :
    current.run ⟨cursor, last⟩ = (cursor, ⟨cursor, last⟩) := rfl

theorem Emission.run_fresh (cursor : CursorVariable) (last : Nat) :
    fresh.run ⟨cursor, last⟩ = (last + 1, ⟨cursor, last + 1⟩) := rfl

/-- The cursor around some code is the same before and after it. -/
theorem Emission.run_withCursor {α : Type} {cursor inner : CursorVariable} {last later : Nat}
    {code : StateM Emission α} {result : α}
    (h : code.run ⟨inner, last⟩ = (result, ⟨inner, later⟩)) :
    (withCursor inner code).run ⟨cursor, last⟩ = (result, ⟨cursor, later⟩) := by
  have hRun : (withCursor inner code).run ⟨cursor, last⟩ =
      ((code.run ⟨inner, last⟩).1, { (code.run ⟨inner, last⟩).2 with cursor }) := rfl
  rw [hRun, h]

section Run

variable (context : BuildContext)

theorem Repetition.run_emitKind (repetition : Repetition) (cursor : CursorVariable) (last : Nat) :
    repetition.emitKind.run ⟨cursor, last⟩ =
      (repetition.kindAt last, ⟨cursor, last + repetition.counterCount⟩) := by
  cases repetition <;> rfl

theorem BuildContext.run_emitArguments (args : Option Fragment) (cursor : CursorVariable)
    (last : Nat) :
    (context.emitArguments args).run ⟨cursor, last⟩ =
      (((context.argumentsAt last args).emitted, (context.argumentsAt last args).passed),
        ⟨cursor, last + context.argumentCount args⟩) := by
  cases args with
  | none => rfl
  | some fragment =>
    dsimp only [argumentsAt, argumentCount]
    rw [emitArguments]
    cases Host.readArguments fragment.boundText with
    | error => rfl
    | ok values =>
      by_cases hEmpty : (context.accesses fragment).isEmpty
      · simp only [Arguments.emitted, Arguments.passed, hEmpty, if_true]
        rfl
      · simp only [Arguments.emitted, Arguments.passed, hEmpty]
        rw [if_neg Bool.false_ne_true, run_bind, run_mapM_next (Emission.run_fresh cursor)]
        rfl

theorem Alternative.emitArms_nil (rule : String) (alternatives : List Alternative) :
    emitArms context rule [] alternatives = pure [] := by
  rw [emitArms]
  intro _ _ _ _ _ _ hPredictions
  cases hPredictions

theorem Alternative.emitArms_of_nil (rule : String) (predictions : List LookaheadSet) :
    emitArms context rule predictions [] = pure [] := by
  rw [emitArms]
  intro _ _ _ _ _ _ _ hAlternatives
  cases hAlternatives

/-- Emitted code is the code of the steps in their places, in front of the code that follows it. The
cursor is the same afterwards. -/
theorem run_emit (rule : String) :
    (∀ (expr : Expr) success cursor last,
      (expr.emit context rule success).run ⟨cursor, last⟩ =
        ((expr.stepAt context cursor last).emitted rule ++ success,
          ⟨cursor, last + expr.variableCount context⟩)) ∧
    (∀ exprs success cursor last,
      (Alternative.emit context rule exprs success).run ⟨cursor, last⟩ =
        (Step.listEmitted rule (Alternative.stepsAt context cursor last exprs) ++ success,
          ⟨cursor, last + Alternative.variableCount context exprs⟩)) ∧
    ∀ alternatives cursor last,
      (Alternative.emitAll context rule alternatives).run ⟨cursor, last⟩ =
        (Step.listEmitted rule (Alternative.allAt context cursor last alternatives),
          ⟨cursor, last + Alternative.allCount context alternatives⟩) ∧
      ∀ predictions,
        (Alternative.emitArms context rule predictions alternatives).run ⟨cursor, last⟩ =
          (Arm.listEmitted rule
              (Alternative.armsAt context cursor last predictions alternatives),
            ⟨cursor, last + Alternative.armsCount context predictions alternatives⟩) := by
  refine Expr.induction ?node ?token ?wildcard ?rule ?subrule ?action ?predicate ?nil ?cons
    ?none ?alternative
  case node =>
    intro id span label name children ih success cursor last
    -- the code behind the node is put behind the check that no child is left
    have hChildren := ih (Emitted.endCheck rule (last + 2) ++ success) (.children (last + 2))
      (last + 2)
    rw [Nat.add_assoc last 2] at hChildren
    rw [Expr.emit, run_bind, Emission.run_current, run_bind, Emission.run_fresh, run_bind,
      Emission.run_fresh, run_bind, Emission.run_withCursor hChildren, run_pure, Expr.stepAt,
      Step.emitted]
    simp only [List.append_assoc]
    rfl
  case token | wildcard | action | predicate =>
    intros
    rw [Expr.emit, Expr.stepAt, Step.emitted]
    rfl
  case rule =>
    intro id span label name args success cursor last
    rw [Expr.emit, run_bind, Emission.run_current, run_bind, context.run_emitArguments, run_pure,
      Expr.stepAt, Step.emitted]
    rfl
  case subrule =>
    intro id span repetition alternatives ih success cursor last
    rw [Expr.emit, Expr.stepAt, Expr.variableCount]
    cases context.decisionAt? (.subrule id) with
    | none =>
      dsimp only
      rw [run_bind, (ih cursor last).1, run_pure, Step.emitted]
    | some decision =>
      dsimp only
      rw [run_bind, Emission.run_current, run_bind, repetition.run_emitKind, run_bind,
        (ih cursor _).2, run_pure, Nat.add_assoc, Step.emitted]
  case nil =>
    intros
    rw [Alternative.emit]
    rfl
  case cons =>
    intro expr exprs ihExpr ihExprs success cursor last
    rw [Alternative.emit, run_bind, ihExprs, ihExpr, Nat.add_assoc, Alternative.stepsAt,
      Step.listEmitted, List.append_assoc, Alternative.variableCount]
  case none =>
    intro cursor last
    refine ⟨?_, fun predictions => ?_⟩
    · rw [Alternative.emitAll]
      rfl
    · rw [Alternative.emitArms_of_nil]
      cases predictions <;> rfl
  case alternative =>
    intro guard elements span alternatives ihElements ihAlternatives cursor last
    refine ⟨?_, fun predictions => ?_⟩
    · rw [Alternative.emitAll, run_bind, ihElements, run_bind, (ihAlternatives cursor _).1,
        run_pure, List.append_nil, Nat.add_assoc, Alternative.allAt, Step.listEmitted_append,
        Alternative.allCount]
    · cases predictions with
      | nil =>
        rw [Alternative.emitArms_nil]
        rfl
      | cons prediction predictions =>
        rw [Alternative.emitArms, run_bind, ihElements, run_bind, (ihAlternatives cursor _).2,
          run_pure, List.append_nil, Nat.add_assoc, Alternative.armsAt, Arm.listEmitted,
          Alternative.armsCount]

theorem Expr.run_emit (rule : String) (expr : Expr) (success : List Emitted)
    (cursor : CursorVariable) (last : Nat) :
    (expr.emit context rule success).run ⟨cursor, last⟩ =
      (((expr.template context).place cursor last).emitted rule ++ success,
        ⟨cursor, last + expr.variableCount context⟩) := by
  rw [(TreeGrammar.run_emit context rule).1, stepAt_eq_place]

/-- The code of a sequence is that of its elements in order, each in its place, in front of the code
that follows. -/
theorem Alternative.run_emit (rule : String) (exprs : List Expr) (success : List Emitted)
    (cursor : CursorVariable) (last : Nat) :
    (Alternative.emit context rule exprs success).run ⟨cursor, last⟩ =
      ((List.zipWith (fun expr number => ((expr.template context).place cursor number).emitted rule)
          exprs (lasts context last exprs)).flatten ++ success,
        ⟨cursor, last + variableCount context exprs⟩) := by
  rw [(TreeGrammar.run_emit context rule).2.1, stepsAt_eq_place, Step.listEmitted_eq_flatMap,
    List.flatMap_def, List.map_zipWith]

/-- The code of a rule is the code of its steps. -/
theorem Rule.run_emit (rule : Rule) :
    (rule.emit context).run {} = (Step.listEmitted rule.name.name (rule.stepsAt context),
      ⟨.given, rule.variableCount context⟩) := by
  obtain ⟨hAll, hArms⟩ :=
    (TreeGrammar.run_emit context rule.name.name).2.2 rule.alternatives .given 0
  rw [Nat.zero_add] at hAll
  rw [emit, stepsAt, variableCount]
  cases context.decisionAt? (.rule context.rule) with
  | none => exact hAll
  | some decision =>
    dsimp only
    rw [run_bind, Emission.run_current, run_bind, hArms, run_pure, Nat.zero_add,
      Step.listEmitted, Step.listEmitted, List.append_nil, Step.emitted]

end Run

/-! ### Code as it is written -/

namespace Emitted

theorem listWritten_append (code more : List Emitted) :
    listWritten (code ++ more) = listWritten code ++ listWritten more := by
  induction code with
  | nil => rfl
  | cons first code ih => rw [List.cons_append, listWritten, listWritten, ih, List.append_assoc]

theorem listWritten_separated (separator : String) (codes : List (List Emitted)) :
    listWritten (separated separator codes) =
      TreeGrammar.separated separator (codes.map listWritten) := by
  induction codes with
  | nil => rfl
  | cons code codes ih =>
    cases codes with
    | nil => rfl
    | cons next codes =>
      rw [List.map_cons, List.map_cons, TreeGrammar.separated, ← List.map_cons, ← ih, separated,
        listWritten_append, listWritten, written, List.append_assoc]

end Emitted

open Emitted (listWritten written)

theorem ChoiceKind.listWritten_emitWrap (kind : ChoiceKind) (dispatch : List Emitted) :
    listWritten (kind.emitWrap dispatch) = kind.wrap (listWritten dispatch) := by
  cases kind with
  | once | optional => rfl
  | star => simp [emitWrap, wrap, blockTokens, listWritten, written, Host.Token.braces]
  | plus counter =>
    simp [emitWrap, wrap, blockTokens, listWritten, written, Host.Token.braces,
      Emitted.listWritten_append]

mutual

/-- The code of a step is the step as it is written. -/
theorem Step.listWritten_emitted (rule : String) :
    ∀ step : Step, listWritten (step.emitted rule) = step.tokens rule
  | .token .. | .wildcard .. => List.append_nil _
  | .node cursor label name node children steps => by
    have hSteps := Step.listWritten_listEmitted rule steps
    rw [Step.emitted]
    unfold Step.tokens
    simp only [Emitted.listWritten_append, hSteps]
    cases label <;> simp [Emitted.expectNode, Emitted.bindNode, Emitted.childCursor,
      Emitted.endCheck, listWritten, written]
  | .call cursor label called arguments => by
    rw [Step.emitted]
    unfold Step.tokens
    by_cases hEmpty : arguments.accesses.isEmpty <;>
      simp [listWritten, written, Arguments.emitted, Arguments.evaluation, hEmpty,
        Host.Token.braces]
  | .action code => by
    rw [Step.emitted]
    unfold Step.tokens
    simp [listWritten, written, Code.emitStatement, Code.statement, Host.Token.braces]
  | .predicate cursor code text => by
    rw [Step.emitted]
    unfold Step.tokens
    simp [listWritten, written, Code.emitCondition, Code.condition, Host.Token.braces,
      Host.Token.parens]
  | .block steps => by
    rw [Step.emitted]
    unfold Step.tokens
    simp [listWritten, written, Step.listWritten_listEmitted rule steps, Host.Token.braces]
  | .choice cursor kind decision arms => by
    rw [Step.emitted, Decision.emitChoice, listWritten, ChoiceKind.listWritten_emitWrap]
    unfold Step.tokens
    simp [listWritten, written, Emitted.listWritten_append, Emitted.listWritten_separated,
      Arm.listWritten_listEmitted rule arms]

/-- The code of steps is the steps as they are written. -/
theorem Step.listWritten_listEmitted (rule : String) :
    ∀ steps, listWritten (Step.listEmitted rule steps) = Step.listTokens rule steps
  | [] => rfl
  | step :: steps => by
    rw [Step.listEmitted, Emitted.listWritten_append, Step.listWritten_emitted rule step,
      Step.listWritten_listEmitted rule steps, Step.listTokens]

/-- The code of arms is the arms as they are written. -/
theorem Arm.listWritten_listEmitted (rule : String) :
    ∀ arms, (Arm.listEmitted rule arms).map listWritten = Arm.listTokens rule arms
  | [] => rfl
  | .mk prediction guard steps :: arms => by
    have hSteps := Step.listWritten_listEmitted rule steps
    rw [Arm.listEmitted, List.map_cons, Arm.listWritten_listEmitted rule arms,
      Arm.listTokens.eq_def rule (_ :: _)]
    cases guard <;> simp [LookaheadSet.emitArm, LookaheadSet.emitCondition, listWritten, written,
      Code.emitCondition, Code.condition, hSteps, Host.Token.braces, Host.Token.parens]

end

/-! ### Borrowed attributes -/

/-- Attributes are borrowed from here on. -/
def Emitted.Borrows : Emitted → Prop
  | .guards .. => True
  | .tokens _ | .step | .group .. => False

mutual

/-- A step begins in the code. -/
def Emitted.HasStep : Emitted → Prop
  | .step => True
  | .tokens _ | .guards .. => False
  | .group _ body => Emitted.ListHasStep body

/-- A step begins in the code. -/
def Emitted.ListHasStep : List Emitted → Prop
  | [] => False
  | code :: rest => code.HasStep ∨ Emitted.ListHasStep rest

end

mutual

/-- No step begins in a group in which attributes are borrowed. -/
def Emitted.Releases : Emitted → Prop
  | .group _ body => Emitted.ListReleases body ∧
      ((∃ code ∈ body, code.Borrows) → ¬ Emitted.ListHasStep body)
  | .tokens _ | .step | .guards .. => True

/-- No step begins in a group in which attributes are borrowed. -/
def Emitted.ListReleases : List Emitted → Prop
  | [] => True
  | code :: rest => code.Releases ∧ Emitted.ListReleases rest

end

namespace Emitted

/-- No step begins in a group in which attributes are borrowed, wherever the code stands. -/
structure Released (code : List Emitted) : Prop where
  releases : ListReleases code
  unborrowed : ∀ part ∈ code, ¬ part.Borrows

variable {code more : List Emitted}

theorem Released.nil : Released [] := ⟨trivial, fun _ h => absurd h List.not_mem_nil⟩

theorem Released.append (h : Released code) (hMore : Released more) : Released (code ++ more) := by
  refine ⟨?_, List.forall_mem_append.2 ⟨h.unborrowed, hMore.unborrowed⟩⟩
  have hCode := h.releases
  clear h
  induction code with
  | nil => exact hMore.releases
  | cons first code ih => exact ⟨hCode.1, ih hCode.2⟩

theorem Released.tokens (list : List Token) : Released [.tokens list] :=
  ⟨⟨trivial, trivial⟩, List.forall_mem_singleton.2 id⟩

theorem Released.step : Released [.step] := ⟨⟨trivial, trivial⟩, List.forall_mem_singleton.2 id⟩

theorem Released.group (h : Released code) (delimiter : Host.Delimiter) :
    Released [.group delimiter code] := by
  refine ⟨⟨⟨h.releases, ?_⟩, trivial⟩, List.forall_mem_singleton.2 id⟩
  rintro ⟨part, hPart, hBorrows⟩
  exact absurd hBorrows (h.unborrowed part hPart)

/-- Attributes may be borrowed in a group in which no step begins. -/
theorem Released.borrowing (h : ListReleases code) (hStep : ¬ ListHasStep code)
    (delimiter : Host.Delimiter) : Released [.group delimiter code] :=
  ⟨⟨⟨h, fun _ => hStep⟩, trivial⟩, List.forall_mem_singleton.2 id⟩

theorem Released.separated {codes : List (List Emitted)} (h : ∀ code ∈ codes, Released code)
    (separator : String) : Released (separated separator codes) := by
  induction codes with
  | nil => exact .nil
  | cons code codes ih =>
    obtain ⟨hCode, hCodes⟩ := List.forall_mem_cons.1 h
    cases codes with
    | nil => exact hCode
    | cons next codes => exact hCode.append ((Released.tokens _).append (ih hCodes))

end Emitted

open Emitted (Released)

theorem Code.released_emitCondition (code : Code) : Released [code.emitCondition] := by
  refine .borrowing ?_ ?_ _ <;> simp [Emitted.ListReleases, Emitted.Releases, Emitted.ListHasStep,
    Emitted.HasStep, Emitted.Borrows]

theorem Code.released_emitStatement (code : Code) : Released [code.emitStatement] := by
  refine .borrowing ?_ ?_ _ <;> simp [Emitted.ListReleases, Emitted.Releases, Emitted.ListHasStep,
    Emitted.HasStep, Emitted.Borrows]

theorem Arguments.released_emitted (arguments : Arguments) : Released arguments.emitted := by
  rw [emitted]
  split
  · exact .nil
  · refine (Released.tokens _).append (Released.append (.borrowing ?_ ?_ _) (.tokens _)) <;>
      simp [Emitted.ListReleases, Emitted.Releases, Emitted.ListHasStep, Emitted.HasStep]

theorem LookaheadSet.released_emitArm (prediction : LookaheadSet) (guard : Option Code)
    {body : List Emitted} (h : Released body) : Released (prediction.emitArm guard body) := by
  have hCondition : Released (prediction.emitCondition guard) := by
    cases guard with
    | none => exact .tokens _
    | some code => exact (Released.tokens _).append (code.released_emitCondition.group _)
  exact ((Released.tokens _).append hCondition).append (h.group _)

theorem ChoiceKind.released_emitWrap (kind : ChoiceKind) {dispatch : List Emitted}
    (h : Released dispatch) : Released (kind.emitWrap dispatch) := by
  cases kind with
  | once | optional => exact h.group _
  | star => exact (Released.tokens _).append (h.group _)
  | plus counter =>
    have hLoop := h.append (.tokens (variableTokens (counterVariable counter) ++ phrase "+= 1 ;"))
    exact ((Released.tokens _).append ((Released.tokens _).append (hLoop.group _))).group _

mutual

/-- No attribute is borrowed where a step begins in the code of a step. -/
theorem Step.released_emitted (rule : String) : ∀ step : Step, Released (step.emitted rule)
  | .token .. | .wildcard .. => Released.step.append (.tokens _)
  | .node cursor label name node children steps => by
    have hBind : Released (Emitted.bindNode label node) := by
      cases label with
      | none => exact .nil
      | some label => exact .tokens _
    have hNode : Released (Emitted.expectNode rule cursor name node) :=
      Released.step.append (.tokens _)
    have hEnd : Released (Emitted.endCheck rule children) := Released.step.append (.tokens _)
    rw [Step.emitted]
    exact (((hNode.append hBind).append (.tokens _)).append
      (Step.released_listEmitted rule steps)).append hEnd
  | .call cursor label called arguments => by
    rw [Step.emitted]
    exact (Released.step.append arguments.released_emitted).append (.tokens _)
  | .action code => by
    rw [Step.emitted]
    exact Released.step.append code.released_emitStatement
  | .predicate cursor code text => by
    rw [Step.emitted]
    exact Released.step.append ((Released.tokens _).append
      ((code.released_emitCondition.group _).append ((Released.tokens _).group _)))
  | .block steps => by
    rw [Step.emitted]
    exact Released.step.append ((Step.released_listEmitted rule steps).group _)
  | .choice cursor kind decision arms => by
    have hArms := Released.separated (Arm.released_listEmitted rule arms) "else"
    rw [Step.emitted]
    exact Released.step.append (kind.released_emitWrap
      (((Released.tokens _).append hArms).append (.tokens _)))

/-- No attribute is borrowed where a step begins in the code of steps. -/
theorem Step.released_listEmitted (rule : String) :
    ∀ steps, Released (Step.listEmitted rule steps)
  | [] => .nil
  | step :: steps =>
    (Step.released_emitted rule step).append (Step.released_listEmitted rule steps)

/-- No attribute is borrowed where a step begins in the code of arms. -/
theorem Arm.released_listEmitted (rule : String) :
    ∀ arms, ∀ code ∈ Arm.listEmitted rule arms, Released code
  | [] => fun _ h => absurd h List.not_mem_nil
  | .mk prediction guard steps :: arms =>
    List.forall_mem_cons.2 ⟨prediction.released_emitArm guard
      (Step.released_listEmitted rule steps), Arm.released_listEmitted rule arms⟩

end

/-- The code of a step begins with its mark. -/
theorem Step.head?_emitted (rule : String) (step : Step) :
    (step.emitted rule).head? = some .step := by
  cases step <;> rfl

/-! ### Emission as a whole -/

namespace Grammar

/-- The code of a node match in front of other code: the node is expected on the cursor around it
and bound to its label, a cursor over its children is made, the code of the children works on that
cursor, and the end of the children is required. -/
theorem run_emit_node (context : BuildContext) (rule : String) (id : Nat) (span : Span)
    (label : Option Ident) (name : Ident) (children : List Expr) (success : List Emitted)
    (cursor : CursorVariable) (last : Nat) :
    ((Expr.node id span label name children).emit context rule success).run ⟨cursor, last⟩ =
      (Emitted.expectNode rule cursor name.name (last + 1) ++
          Emitted.bindNode (label.map Ident.name) (last + 1) ++
          Emitted.childCursor (last + 1) (last + 2) ++
          ((Alternative.emit context rule children []).run ⟨.children (last + 2), last + 2⟩).1 ++
          Emitted.endCheck rule (last + 2) ++ success,
        ⟨cursor, last + 2 + Alternative.variableCount context children⟩) := by
  obtain ⟨hExpr, hExprs, -⟩ := TreeGrammar.run_emit context rule
  rw [hExpr, hExprs, Expr.stepAt, Step.emitted, List.append_nil, Expr.variableCount, Nat.add_assoc]

/-- Emission from right to left is direct emission. For every grammar and rule, the code of a
sequence of elements in front of other code is, up to the numbers of variables and the cursor, the
code of each element by itself, one after the other, in front of the other code. The variables of
the rule are different, every element works on the cursor of the innermost node around it, and no
element begins where attributes are borrowed. If nothing is wrong with the code of the rule, then
what is emitted is what the procedure of the rule does. -/
theorem emission_direct (grammar : Grammar) (index : Nat) (rule : Rule) :
    (∀ elements success cursor last,
      (Alternative.emit (grammar.context index) rule.name.name elements success).run
          ⟨cursor, last⟩ =
        ((List.zipWith (fun expr number =>
              ((expr.template (grammar.context index)).place cursor number).emitted rule.name.name)
            elements (Alternative.lasts (grammar.context index) last elements)).flatten ++ success,
          ⟨cursor, last + Alternative.variableCount (grammar.context index) elements⟩)) ∧
    (∀ expr : Expr, (expr.emit (grammar.context index) rule.name.name []).run {} =
      ((expr.template (grammar.context index)).emitted rule.name.name,
        ⟨.given, expr.variableCount (grammar.context index)⟩)) ∧
    (∀ id span label name children success cursor last,
      ((Expr.node id span label name children).emit (grammar.context index) rule.name.name
          success).run ⟨cursor, last⟩ =
        (Emitted.expectNode rule.name.name cursor name.name (last + 1) ++
            Emitted.bindNode (label.map Ident.name) (last + 1) ++
            Emitted.childCursor (last + 1) (last + 2) ++
            ((Alternative.emit (grammar.context index) rule.name.name children []).run
              ⟨.children (last + 2), last + 2⟩).1 ++
            Emitted.endCheck rule.name.name (last + 2) ++ success,
          ⟨cursor, last + 2 + Alternative.variableCount (grammar.context index) children⟩)) ∧
    (rule.emit (grammar.context index)).run {} =
      (Step.listEmitted rule.name.name (rule.stepsAt (grammar.context index)),
        ⟨.given, rule.variableCount (grammar.context index)⟩) ∧
    ((Step.listVariables (rule.stepsAt (grammar.context index))).map
      FreshVariable.name).Nodup ∧
    Step.AreOn .given (rule.stepsAt (grammar.context index)) ∧
    Released ((rule.emit (grammar.context index)).run {}).1 ∧
    (∀ step : Step, (step.emitted rule.name.name).head? = some .step) ∧
    (rule.lexicalErrors = [] →
      listWritten ((rule.emit (grammar.context index)).run {}).1 =
        Step.listTokens (grammar.procedure index rule).name
          (grammar.procedure index rule).steps) := by
  have hRule := Rule.run_emit (grammar.context index) rule
  refine ⟨Alternative.run_emit _ _, ?element, run_emit_node _ _, hRule, ?distinct,
    rule.areOn_stepsAt _, ?released, Step.head?_emitted _, fun hErrors => ?written⟩
  case element =>
    intro expr
    have hExpr := (TreeGrammar.run_emit (grammar.context index) rule.name.name).1 expr [] .given 0
    rwa [List.append_nil, Nat.zero_add] at hExpr
  case distinct => exact (rule.areNumbered_stepsAt _).nodup
  case released =>
    rw [hRule]
    exact Step.released_listEmitted _ _
  case written =>
    rw [hRule, Step.listWritten_listEmitted, ← Rule.steps_eq _ hErrors]
    rfl

namespace Sample

/-- The rule `pair : #(A #(B) .) C;`, in which a node match stands inside another one. -/
def pair : Rule where
  name := ⟨"pair", Span.start⟩
  isPublic := false
  attributes := []
  params := none
  returns := none
  alternatives :=
    [.mk none
      [.node 2 Span.start none ⟨"A", Span.start⟩
          [.node 0 Span.start none ⟨"B", Span.start⟩ [], .wildcard 1 Span.start none],
        .token 3 Span.start none ⟨"C", Span.start⟩]
      Span.start]

/-- The grammar with this rule. -/
def grammar : Grammar where
  name := ⟨"pairs", Span.start⟩
  options := {}
  tokens := []
  prelude := []
  rules := [pair]
  decisions := []
  scopes := []

/-- The code of the rule is that of its procedure. The inner node has other variables than the outer
one. -/
theorem emission_direct_pair :
    (Step.listVariables (pair.stepsAt (grammar.context 0))).map FreshVariable.name =
        ["__node_1", "__cursor_2", "__node_3", "__cursor_4"] ∧
      pair.lexicalErrors = [] ∧
      listWritten ((pair.emit (grammar.context 0)).run {}).1 =
        Step.listTokens (grammar.procedure 0 pair).name (grammar.procedure 0 pair).steps := by
  obtain ⟨-, -, -, -, -, -, -, -, hWritten⟩ := Grammar.emission_direct grammar 0 pair
  exact ⟨by decide, rfl, hWritten rfl⟩

end Sample

end Grammar

end TreeGrammar
