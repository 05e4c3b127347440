import TreeGrammar.Proofs.Program.Dispatch
import TreeGrammar.Proofs.Program.Signatures

/-!
# Names in the statements of procedures

The statements of a procedure bind labels and call procedures. A label is in scope after its
statement, up to the end of the block in which this stands. A name that is in scope hides the
procedure of the same name.

## Main definitions

* `Statement`: statements with the names that they bind and call
* `Step.statements`: the statements of a step
* `Use`: a name that is used, and the names in scope there
* `Procedure.uses`: the names that the statements of a procedure use

## Main results

* `Step.listTokens_statements`: the statements of steps are the steps as they are written
* `Procedure.alternatives_eq`: the statements in the function for the alternatives of a rule
-/

namespace TreeGrammar

open Host (Token)

/-! ### Statements -/

/-- A statement in a procedure. -/
inductive Statement where
  /-- A value is bound to a label, or dropped without one. -/
  | bind (label : Option String) (value : List Token)
  /-- The procedure of a rule is called. Its value is bound to a label, or dropped without one. -/
  | call (label : Option String) (rule : String) (arguments : List (List Token))
  /-- Statements in a block of their own, which the given tokens open. -/
  | block (opening : List Token) (body : List Statement)
  /-- Anything else: no label is bound, and no procedure of a rule is called. -/
  | other (tokens : List Token)

mutual

/-- A statement as it is written. -/
def Statement.tokens : Statement → List Token
  | .bind label value => bindTokens label value
  | .call label rule arguments =>
    bindTokens label (callTokens [.word rule] arguments ++ phrase "?")
  | .block opening body => opening ++ [.braces (Statement.listTokens body)]
  | .other tokens => tokens

/-- Statements as they are written. -/
def Statement.listTokens : List Statement → List Token
  | [] => []
  | statement :: statements => statement.tokens ++ Statement.listTokens statements

end

theorem Statement.listTokens_append (first later : List Statement) :
    listTokens (first ++ later) = listTokens first ++ listTokens later := by
  induction first with
  | nil => rfl
  | cons statement first ih => rw [List.cons_append, listTokens, listTokens, ih, List.append_assoc]

theorem Statement.listTokens_singleton (statement : Statement) :
    listTokens [statement] = statement.tokens := by
  rw [listTokens, listTokens, List.append_nil]

/-! ### Statements of steps -/

/-- A choice as a statement, given the statements that choose once. -/
def ChoiceKind.statement (kind : ChoiceKind) (dispatch : List Statement) : Statement :=
  match kind with
  | once | optional => .block [] dispatch
  | star => .block (phrase "loop") dispatch
  | plus counter =>
    let count := variableTokens (counterVariable counter)
    .block [] [.other (phrase "let mut" ++ count ++ phrase "= 0usize ;"),
      .block (phrase "loop") (dispatch ++ [.other (count ++ phrase "+= 1 ;")])]

mutual

/-- The statements of a step. -/
def Step.statements (rule : String) : Step → List Statement
  | .token cursor label name =>
    [.bind label (callTokens (phrase "walker . expect")
      [cursor.tokens, stringTokens rule, stringTokens name] ++ phrase "?")]
  | .wildcard cursor label =>
    [.bind label (callTokens (phrase "walker . wildcard") [cursor.tokens, stringTokens rule] ++
      phrase "?")]
  | .node cursor label name node children steps =>
    let node := variableTokens (nodeVariable node)
    let children := (CursorVariable.children children).tokens
    [.other (phrase "let" ++ node ++ phrase "=" ++
      callTokens (phrase "walker . expect")
        [cursor.tokens, stringTokens rule, stringTokens name] ++ phrase "? ;")] ++
    label.toList.map (fun label => .bind (some label) node) ++
    [.other (phrase "let mut" ++ children ++ phrase "=" ++
      callTokens (phrase "Cursor :: children") [node] ++ phrase "; let" ++ children ++
      phrase "= & mut" ++ children ++ phrase ";")] ++
    Step.listStatements rule steps ++
    [.other (callTokens (phrase "walker . expect_end") [children, stringTokens rule] ++
      phrase "? ;")]
  | .call cursor label called arguments =>
    [.other arguments.evaluation,
      .call label called ([phrase "walker", phrase "state", cursor.tokens, phrase "frame"] ++
        arguments.passed)]
  | .action code => [.other [code.statement]]
  | .predicate cursor code text => [.other (Step.tokens rule (.predicate cursor code text))]
  | .block steps => [.block [] (Step.listStatements rule steps)]
  | .choice cursor kind decision arms =>
    [kind.statement
      ([.other (phrase "let la =" ++ cursor.tokens ++ callTokens (phrase ". peek_label") [] ++
          phrase ";")] ++
        Arm.listStatements rule [] arms ++
        [.other (kind.otherwise (decision.failure rule cursor))])]

/-- The statements of steps. -/
def Step.listStatements (rule : String) : List Step → List Statement
  | [] => []
  | step :: steps => step.statements rule ++ Step.listStatements rule steps

/-- Arms as conditional statements, the first of which the given tokens open. -/
def Arm.listStatements (rule : String) (opening : List Token) : List Arm → List Statement
  | [] => []
  | .mk prediction guard steps :: arms =>
    .block (opening ++ phrase "if" ++ (Condition.mk prediction.patterns guard).tokens)
        (Step.listStatements rule steps) ::
      Arm.listStatements rule (phrase "else") arms

end

theorem ChoiceKind.tokens_statement (kind : ChoiceKind) (dispatch : List Statement) :
    (kind.statement dispatch).tokens = kind.wrap (Statement.listTokens dispatch) := by
  cases kind with
  | once | optional => rw [statement, Statement.tokens]; rfl
  | star => rw [statement, Statement.tokens]; rfl
  | plus counter =>
    simp only [statement, wrap, blockTokens, Statement.tokens, Statement.listTokens,
      Statement.listTokens_append, List.append_nil, List.nil_append, List.append_assoc]

/-- The label of a node as a statement. -/
theorem Statement.listTokens_label (label : Option String) (value : List Token) :
    listTokens (label.toList.map fun label => .bind (some label) value) =
      label.elim [] fun label => bindTokens (some label) value := by
  cases label with
  | none => rfl
  | some label => exact listTokens_singleton _

mutual

/-- The statements of a step are the step as it is written. -/
theorem Step.tokens_statements (rule : String) :
    ∀ step : Step, Statement.listTokens (step.statements rule) = step.tokens rule
  | .token .. | .wildcard .. | .action _ => by
    rw [Step.statements, Statement.listTokens_singleton, Statement.tokens, Step.tokens]
  | .predicate .. => by
    rw [Step.statements, Statement.listTokens_singleton, Statement.tokens]
  | .node cursor label name node children steps => by
    rw [Step.statements]
    unfold Step.tokens
    simp only [Statement.listTokens_append, Statement.listTokens_singleton,
      Statement.listTokens_label, Statement.tokens, Step.listTokens_statements rule steps,
      List.append_assoc]
    cases label <;> rfl
  | .call cursor label called arguments => by
    rw [Step.statements, Step.tokens, Statement.listTokens, Statement.listTokens_singleton,
      Statement.tokens, Statement.tokens]
  | .block steps => by
    rw [Step.statements, Step.tokens, Statement.listTokens_singleton, Statement.tokens,
      Step.listTokens_statements rule steps, List.nil_append]
  | .choice cursor kind decision arms => by
    rw [Step.statements, Step.tokens, Statement.listTokens_singleton,
      ChoiceKind.tokens_statement]
    simp only [Statement.listTokens_append, Statement.listTokens_singleton, Statement.tokens,
      Arm.listTokens_statements rule [] arms, ite_self, List.nil_append]

/-- The statements of steps are the steps as they are written. -/
theorem Step.listTokens_statements (rule : String) :
    ∀ steps, Statement.listTokens (Step.listStatements rule steps) = Step.listTokens rule steps
  | [] => rfl
  | step :: steps => by
    rw [Step.listStatements, Statement.listTokens_append, Step.tokens_statements rule step,
      Step.listTokens_statements rule steps, Step.listTokens]

/-- Conditional statements are the arms as they are written. -/
theorem Arm.listTokens_statements (rule : String) (opening : List Token) :
    ∀ arms, Statement.listTokens (Arm.listStatements rule opening arms) =
      (if arms = [] then [] else opening) ++ separated "else" (Arm.listTokens rule arms)
  | [] => rfl
  | .mk prediction guard steps :: arms => by
    rw [Arm.listStatements, Statement.listTokens, Statement.tokens,
      Step.listTokens_statements rule steps, Arm.listTokens_statements rule _ arms,
      Arm.listTokens_eq, Arm.listTokens_eq, List.map_cons, if_neg (List.cons_ne_nil _ _)]
    -- the word between two arms opens the second one
    cases arms with
    | nil =>
      rw [if_pos rfl]
      simp only [List.map_nil, separated, Arm.statement, Arm.condition, Arm.prediction, Arm.guard,
        Arm.steps, List.append_nil, List.append_assoc]
    | cons next arms =>
      rw [if_neg (List.cons_ne_nil _ _)]
      simp only [List.map_cons, separated, Arm.statement, Arm.condition, Arm.prediction, Arm.guard,
        Arm.steps, List.append_assoc]

end

/-- The statements of a procedure. -/
def Procedure.statements (procedure : Procedure) : List Statement :=
  Step.listStatements procedure.name procedure.steps

/-- The function for the alternatives of a rule declares the value of the rule, runs the statements
of the procedure and yields the value. -/
theorem Procedure.alternatives_eq (procedure : Procedure) :
    procedure.alternatives = phrase "fn" ++ [.word procedure.alternativesName] ++
      procedure.matchHead ++ [.braces (procedure.declaration ++
        Statement.listTokens procedure.statements ++
        callTokens (phrase "Ok") [procedure.value])] := by
  rw [alternatives, statements, Step.listTokens_statements]

/-! ### Names in scope -/

/-- A use of a name. -/
structure Use where
  name : String
  /-- The names in scope that hide anything else of the same name. -/
  scope : List String

/-- No name in scope hides what the name is used for. -/
def Use.IsFree (use : Use) : Prop := use.name ∉ use.scope

/-- The labels that a statement binds for the statements after it. -/
def Statement.bound : Statement → List String
  | .bind label _ | .call label .. => label.toList
  | .block .. | .other _ => []

/-- The labels that statements bind for the statements after them. -/
def Statement.listBound (statements : List Statement) : List String :=
  statements.flatMap Statement.bound

theorem Statement.listBound_append (first later : List Statement) :
    listBound (first ++ later) = listBound first ++ listBound later := List.flatMap_append

mutual

/-- The calls of procedures in a statement, where some names are in scope before it. -/
def Statement.calls (scope : List String) : Statement → List Use
  | .bind .. | .other _ => []
  | .call _ rule _ => [⟨rule, scope⟩]
  | .block _ body => Statement.listCalls scope body

/-- The calls of procedures in statements, where some names are in scope before them. -/
def Statement.listCalls (scope : List String) : List Statement → List Use
  | [] => []
  | statement :: statements =>
    statement.calls scope ++ Statement.listCalls (scope ++ statement.bound) statements

end

theorem Statement.listCalls_append (scope : List String) (first later : List Statement) :
    listCalls scope (first ++ later) =
      listCalls scope first ++ listCalls (scope ++ listBound first) later := by
  induction first generalizing scope with
  | nil => rw [listBound, List.flatMap_nil, List.append_nil, listCalls]; rfl
  | cons statement first ih =>
    have hBound : listBound (statement :: first) = statement.bound ++ listBound first :=
      List.flatMap_cons
    rw [List.cons_append, listCalls, listCalls, ih, hBound, List.append_assoc, List.append_assoc]

/-- The names that the function for the alternatives of a rule uses: those of the procedures that it
calls, where the parameters, the value and the labels before a call are in scope; and that of the
value at its end, where the labels are in scope that are not bound in a block. -/
def Procedure.uses (procedure : Procedure) : List Use :=
  let values := procedure.rule.returns.toList.map (·.name.name)
  Statement.listCalls (procedure.rule.paramNames.map Host.identifierOf ++ values)
      procedure.statements ++
    values.map fun value => ⟨value, Statement.listBound procedure.statements⟩

end TreeGrammar
