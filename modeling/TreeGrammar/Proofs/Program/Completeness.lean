import TreeGrammar.Proofs.Lookahead.Disjoint
import TreeGrammar.Proofs.Program.Bound

/-!
# Trees that are derived are walked

If a grammar has no conflicts, no guards and no predicates, then a walk follows any derivation whose
choices are predicted: at each decision the branch of the derivation is the only one that fits. The
induction is on the derivation, which also bounds the number of steps.

## Main definitions

* `Grammar.IsPlain`: there are no conflicts, no guards and no predicates
* `Program.Finishes`: steps are finished with some bound
* `Program.Passes`: steps are finished on some nodes, whatever else the state is

## Main results

* `Derivation.passes`: the steps of a sequence pass the nodes that are derived
* `Program.exists_walk`: a walk follows a derivation of its tree
-/

namespace TreeGrammar

/-! ### Grammars without guards and predicates -/

/-- The element is no predicate, and no guard stands before an alternative of it. -/
def Expr.IsPlain : Expr → Prop
  | .subrule _ _ _ alternatives => Alternative.guards alternatives = []
  | .predicate .. => False
  | _ => True

/-- No symbol predicts two branches of a decision, and there are no guards and no predicates. -/
structure Grammar.IsPlain (grammar : Grammar) : Prop where
  disjoint : AllDisjoint grammar.decisions
  guards : ∀ rule ∈ grammar.rules, Alternative.guards rule.alternatives = []
  exprs : ∀ expr ∈ grammar.rules.exprs, expr.IsPlain

theorem Alternative.guard_eq_none {alternatives : List Alternative} {index : Nat}
    {alternative : Alternative} (h : guards alternatives = [])
    (hChosen : alternatives[index]? = some alternative) : alternative.guard = none :=
  List.filterMap_eq_nil_iff.1 h alternative (List.mem_of_getElem? hChosen)

/-! ### Operations that succeed -/

section Operations

variable {cursor : Cursor} {name : String} {tree : Tree} {siblings : List Tree}

theorem Walker.expect_cons (walk : Walk) (rule : String) (h : cursor.remaining = tree :: siblings)
    (hLabel : tree.label = name) :
    ∃ next : Cursor, next.remaining = siblings ∧
      Outcome.ofWalker walk (walk.walker.expect cursor rule name) = .finished (tree, next) walk := by
  refine ⟨{ cursor with index := cursor.index + 1, remaining := siblings }, rfl, ?_⟩
  simp [expect, Cursor.advance?, h, hLabel, Outcome.ofWalker]

theorem Walker.wildcard_cons (walk : Walk) (rule : String) (h : cursor.remaining = tree :: siblings) :
    ∃ next : Cursor, next.remaining = siblings ∧
      Outcome.ofWalker walk (walk.walker.wildcard cursor rule) = .finished (tree, next) walk := by
  refine ⟨{ cursor with index := cursor.index + 1, remaining := siblings }, rfl, ?_⟩
  simp [wildcard, Cursor.advance?, h, Outcome.ofWalker]

theorem Walker.expectEnd_nil {walk : Walk} {rule : String} (h : cursor.remaining = []) :
    Outcome.ofWalker walk (walk.walker.expectEnd cursor rule) = .finished () walk := by
  simp [expectEnd, Cursor.atEnd, h, Outcome.ofWalker]

theorem Walker.enter_of_no_limit {walk : Walk} {rule : String} (h : walk.walker.depthLimit = none) :
    Outcome.ofWalker walk (walk.walker.enter rule) =
      .finished () { walk with walker.depth := walk.walker.depth + 1 } := by
  simp [enter, h, Outcome.ofWalker]

theorem bindAttributes_found {frame : Frame Scope} {walk : Walk} {accesses : List AttributeAccess}
    (h : ∀ access ∈ accesses, access.find? frame ≠ none) :
    bindAttributes frame walk accesses = .finished () walk := by
  induction accesses with
  | nil => rfl
  | cons access accesses ih =>
    obtain ⟨hFirst, hOthers⟩ := List.forall_mem_cons.1 h
    rw [bindAttributes]
    cases hFound : access.find? frame with
    | none => exact absurd hFound hFirst
    | some scope => exact ih hOthers

end Operations

namespace Arm

/-- What predicts an arm. -/
def prediction : Arm → LookaheadSet
  | mk prediction _ _ => prediction

/-- The steps of an arm. -/
def steps : Arm → List Step
  | mk _ _ steps => steps

/-- Without guards, the first arm that predicts the next label is selected. -/
theorem select_of_unguarded {arms : List Arm} (h : ∀ arm ∈ arms, arm.guard = none)
    (oracle : Oracle) (frame : Frame Scope) (next : Option String) (walk : Walk) :
    select oracle frame next walk arms =
      .finished ((arms.find? fun arm => arm.prediction.accepts next).map steps) walk := by
  induction arms with
  | nil => rfl
  | cons arm arms ih =>
    obtain ⟨prediction, guard, steps⟩ := arm
    obtain ⟨rfl, hOthers⟩ : guard = none ∧ ∀ arm ∈ arms, arm.guard = none := List.forall_mem_cons.1 h
    unfold select
    by_cases hAccepts : prediction.accepts next
    · simp [Arm.prediction, hAccepts, Arm.steps]
    · simp [Arm.prediction, hAccepts, ih hOthers]

end Arm

section Select

variable {context : BuildContext} {cursor : CursorVariable} {decision : Decision}
  {alternatives : List Alternative} {arms : List Arm} {site : DecisionSite}
  {remaining : List Tree}

theorem Alternative.BuiltArms.unguarded {predictions : List LookaheadSet}
    (h : BuiltArms context cursor predictions alternatives arms) (hGuards : guards alternatives = []) :
    ∀ arm ∈ arms, arm.guard = none := by
  intro arm hArm
  obtain ⟨index, hIndex⟩ := List.mem_iff_getElem?.1 hArm
  obtain ⟨prediction, guard, steps⟩ := arm
  obtain ⟨alternative, hChosen, -, rfl, -⟩ := h.alternative hIndex
  rw [Arm.guard, guard_eq_none hGuards hChosen]
  rfl

/-- An arm that predicts the next label stands for an alternative that is predicted. -/
theorem Alternative.BuiltArms.admits
    (h : BuiltArms context cursor (decision.candidates.map (·.prediction)) alternatives arms)
    {index : Nat} {arm : Arm} (hArm : arms[index]? = some arm)
    (hAccepts : arm.prediction.accepts (Tree.firstLabel? remaining)) :
    decision.Admits ⟨site, .alternative index, remaining⟩ := by
  obtain ⟨prediction, guard, steps⟩ := arm
  obtain ⟨-, -, hPrediction, -⟩ := h.alternative hArm
  rw [List.getElem?_map] at hPrediction
  obtain ⟨candidate, hCandidate, rfl⟩ := Option.map_eq_some_iff.1 hPrediction
  exact ⟨candidate, hCandidate, hAccepts⟩

/-- The alternative of a choice that is predicted is selected. -/
theorem Alternative.BuiltArms.select_alternative
    (h : BuiltArms context cursor (decision.candidates.map (·.prediction)) alternatives arms)
    (hGuards : guards alternatives = []) (hDisjoint : decision.resolution = .disjoint)
    {index : Nat} {alternative : Alternative} (hChosen : alternatives[index]? = some alternative)
    (hAdmits : decision.Admits ⟨site, .alternative index, remaining⟩) (oracle : Oracle)
    (frame : Frame Scope) (walk : Walk) : ∃ steps, Built context cursor alternative.elements steps ∧
      Arm.select oracle frame (Tree.firstLabel? remaining) walk arms = .finished (some steps) walk := by
  obtain ⟨prediction, steps, hPrediction, hArm, hSteps⟩ := h.arm hChosen
  refine ⟨steps, hSteps, ?_⟩
  have hAccepts : prediction.accepts (Tree.firstLabel? remaining) := by
    obtain ⟨candidate, hCandidate, hAccepts⟩ := hAdmits
    rw [List.getElem?_map, hCandidate] at hPrediction
    exact Option.some.inj hPrediction ▸ hAccepts
  rw [Arm.select_of_unguarded (h.unguarded hGuards)]
  cases hFind : arms.find? fun arm => arm.prediction.accepts (Tree.firstLabel? remaining) with
  | none => exact absurd hAccepts (List.find?_eq_none.1 hFind _ (List.mem_of_getElem? hArm))
  | some arm =>
    -- another arm that predicts the next label would stand for another branch
    obtain ⟨other, hOther⟩ := List.mem_iff_getElem?.1 (List.mem_of_find?_eq_some hFind)
    have hOtherAccepts := List.find?_some hFind
    have hOtherAdmits : decision.Admits ⟨site, .alternative other, remaining⟩ :=
      h.admits hOther hOtherAccepts
    obtain rfl := Branch.alternative.inj (decision.branch_unique hDisjoint hOtherAdmits hAdmits)
    obtain rfl := Option.some.inj (hOther.symm.trans hArm)
    rfl

/-- No alternative is selected if the exit is predicted. -/
theorem Alternative.BuiltArms.select_exit
    (h : BuiltArms context cursor (decision.candidates.map (·.prediction)) alternatives arms)
    (hGuards : guards alternatives = []) (hDisjoint : decision.resolution = .disjoint)
    (hAdmits : decision.Admits ⟨site, .exit, remaining⟩) (oracle : Oracle) (frame : Frame Scope)
    (walk : Walk) :
    Arm.select oracle frame (Tree.firstLabel? remaining) walk arms = .finished none walk := by
  have hNone : (arms.find? fun arm => arm.prediction.accepts (Tree.firstLabel? remaining)) = none := by
    refine List.find?_eq_none.2 fun arm hArm hAccepts => ?_
    obtain ⟨index, hIndex⟩ := List.mem_iff_getElem?.1 hArm
    have hArmAdmits : decision.Admits ⟨site, .alternative index, remaining⟩ :=
      h.admits hIndex hAccepts
    exact absurd (decision.branch_unique hDisjoint hArmAdmits hAdmits) nofun
  rw [Arm.select_of_unguarded (h.unguarded hGuards), hNone]
  rfl

end Select

/-! ### Steps that are finished -/

/-- Steps are finished if their bound is large enough. -/
def Program.Finishes (program : Program) (oracle : Oracle) (activation : Activation)
    (steps : List Step) (cursors : Cursors) (walk : Walk) (next : Cursors) (last : Walk) : Prop :=
  ∃ fuel, program.run oracle fuel activation steps cursors walk = .finished next last

section Finishes

variable {program : Program} {oracle : Oracle} {activation : Activation} {step : Step}
  {steps again : List Step} {cursors middle next : Cursors} {walk inner last : Walk}

theorem Program.finishes_nil : program.Finishes oracle activation [] cursors walk cursors walk :=
  ⟨1, rfl⟩

/-- A step is finished, and then the steps after it. -/
theorem Program.Finishes.cons {fuel : Nat}
    (hStep : step.perform program oracle (program.run oracle fuel) activation cursors walk =
      .finished (again, middle) inner)
    (hLater : program.Finishes oracle activation (again ++ steps) middle inner next last) :
    program.Finishes oracle activation (step :: steps) cursors walk next last := by
  obtain ⟨fuel', hLater⟩ := hLater
  refine ⟨max fuel fuel' + 1, ?_⟩
  rw [run_cons_of_finished hStep (by rw [hLater]; exact nofun), hLater]

end Finishes

/-! ### Steps that follow nodes -/

/-- Steps pass some nodes: in a walk without a bound on the depth of calls they are finished if the
cursor is in front of the list `before`, and leave it in front of the list `after`. -/
def Program.Passes (program : Program) (oracle : Oracle) (activation : Activation)
    (cursor : CursorVariable) (steps : List Step) (before after : List Tree) : Prop :=
  ∀ (cursors : Cursors) (walk : Walk), (cursors cursor).remaining = before →
    walk.walker.depthLimit = none → ∃ next last,
      program.Finishes oracle activation steps cursors walk next last ∧
        (next cursor).remaining = after

/-- A step passes some nodes, and the steps `again` have to be taken before the later ones. -/
def Program.PassesStep (program : Program) (oracle : Oracle) (activation : Activation)
    (cursor : CursorVariable) (step : Step) (again : List Step) (before after : List Tree) : Prop :=
  ∀ (cursors : Cursors) (walk : Walk), (cursors cursor).remaining = before →
    walk.walker.depthLimit = none → ∃ fuel next last,
      step.perform program oracle (program.run oracle fuel) activation cursors walk =
        .finished (again, next) last ∧ (next cursor).remaining = after

namespace Program

variable {program : Program} {oracle : Oracle} {activation : Activation}
  {cursor : CursorVariable} {step : Step} {steps again : List Step}
  {before middle after siblings : List Tree} {tree : Tree} {label : Option String} {name : String}

theorem passes_nil (siblings : List Tree) :
    program.Passes oracle activation cursor [] siblings siblings :=
  fun cursors walk hBefore _ => ⟨cursors, walk, finishes_nil, hBefore⟩

/-- A step passes some nodes, and the steps after it pass the next ones. -/
theorem PassesStep.cons (h : program.PassesStep oracle activation cursor step again before middle)
    (hLater : program.Passes oracle activation cursor (again ++ steps) middle after) :
    program.Passes oracle activation cursor (step :: steps) before after := by
  intro cursors walk hBefore hLimit
  obtain ⟨fuel, next, inner, hStep, hMiddle⟩ := h cursors walk hBefore hLimit
  have hWalker := ((Step.perform_frame (run_frame fuel) activation step cursors
    walk).of_finished hStep).2
  obtain ⟨last, final, hFinishes, hAfter⟩ := hLater next inner hMiddle (hWalker ▸ hLimit)
  exact ⟨last, final, .cons hStep hFinishes, hAfter⟩

theorem passesStep_token (hLabel : tree.label = name) :
    program.PassesStep oracle activation cursor (.token cursor label name) [] (tree :: siblings)
      siblings := by
  intro cursors walk hBefore _
  obtain ⟨next, hNext, hExpect⟩ := Walker.expect_cons walk activation.name hBefore hLabel
  refine ⟨0, Function.update cursors cursor next, walk.record (.passed tree), ?_, ?_⟩
  · rw [Step.perform, hExpect]
    rfl
  · rw [Function.update_self, hNext]

theorem passesStep_wildcard :
    program.PassesStep oracle activation cursor (.wildcard cursor label) [] (tree :: siblings)
      siblings := by
  intro cursors walk hBefore _
  obtain ⟨next, hNext, hExpect⟩ := Walker.wildcard_cons walk activation.name hBefore
  refine ⟨0, Function.update cursors cursor next, walk.record (.passed tree), ?_, ?_⟩
  · rw [Step.perform, hExpect]
    rfl
  · rw [Function.update_self, hNext]

/-- A node is passed if the steps on its children pass all of them. -/
theorem passesStep_node {node number : Nat} (hLabel : tree.label = name)
    (hCursor : cursor ≠ .children number) (hMoved : cursor ∉ Step.listMoved steps)
    (hInner : program.Passes oracle activation (.children number) steps tree.children []) :
    program.PassesStep oracle activation cursor (.node cursor label name node number steps) []
      (tree :: siblings) siblings := by
  intro cursors walk hBefore hLimit
  obtain ⟨next, hNext, hExpect⟩ := Walker.expect_cons walk activation.name hBefore hLabel
  obtain ⟨last, inner, ⟨fuel, hFuel⟩, hEnd⟩ := hInner
    (Function.update (Function.update cursors cursor next) (.children number) (.children tree))
    (walk.record (.passed tree)) (by rw [Function.update_self]; rfl) hLimit
  refine ⟨fuel, last, inner, ?_, ?_⟩
  · rw [Step.perform, hExpect]
    simp only [Outcome.andThen, hFuel, Walker.expectEnd_nil hEnd]
  · -- the steps on the children have not moved the cursor of the node
    have hKeeps := ((run_frame fuel activation steps _ _).of_finished hFuel).1 cursor hMoved
    rw [hKeeps, Function.update_of_ne hCursor, Function.update_self, hNext]

theorem passesStep_action {code : Code}
    (hFound : ∀ access ∈ code.accesses, access.find? activation.frame ≠ none) :
    program.PassesStep oracle activation cursor (.action code) [] before before := by
  intro cursors walk hBefore _
  refine ⟨0, cursors, walk.record (.ran code), ?_, hBefore⟩
  rw [Step.perform, bindAttributes_found hFound]
  rfl

theorem passesStep_block (h : program.Passes oracle activation cursor steps before after) :
    program.PassesStep oracle activation cursor (.block steps) [] before after := by
  intro cursors walk hBefore hLimit
  obtain ⟨next, last, ⟨fuel, hFuel⟩, hAfter⟩ := h cursors walk hBefore hLimit
  refine ⟨fuel, next, last, ?_, hAfter⟩
  rw [Step.perform, hFuel]
  rfl

end Program

section Choice

variable {program : Program} {oracle : Oracle} {activation : Activation}
  {context : BuildContext} {cursor : CursorVariable} {decision : Decision}
  {alternatives : List Alternative} {arms : List Arm} {before after : List Tree}
  {site : DecisionSite}

/-- After a round of a choice, the steps stand for what may come after a round of its group. -/
theorem Alternative.Built.afterRound {id : Nat} {kind : ChoiceKind} {exprs : List Expr}
    {steps : List Step} (hDecision : context.decisionAt? (.subrule id) = some decision)
    (hArms : BuiltArms context cursor (decision.candidates.map (·.prediction)) alternatives arms)
    (span : Span) (hSteps : Built context cursor exprs steps) :
    Built context cursor (kind.repetition.again id span alternatives ++ exprs)
      ((if kind.isRepeat then [.choice cursor .star decision arms] else []) ++ steps) := by
  rw [Repetition.again, kind.isRepeat_repetition]
  split
  · exact .cons (.again hDecision hArms span) hSteps
  · exact hSteps

/-- A choice passes the nodes of the alternative that is predicted. -/
theorem Program.passesStep_choice (kind : ChoiceKind)
    (hArms : Alternative.BuiltArms context cursor (decision.candidates.map (·.prediction))
      alternatives arms) (hGuards : Alternative.guards alternatives = [])
    (hDisjoint : decision.resolution = .disjoint) {index : Nat} {alternative : Alternative}
    (hChosen : alternatives[index]? = some alternative)
    (hAdmits : decision.Admits ⟨site, .alternative index, before⟩)
    (hBody : ∀ steps, Alternative.Built context cursor alternative.elements steps →
      program.Passes oracle activation cursor steps before after) :
    program.PassesStep oracle activation cursor (.choice cursor kind decision arms)
      (if kind.isRepeat then [.choice cursor .star decision arms] else []) before after := by
  intro cursors walk hBefore hLimit
  obtain ⟨steps, hSteps, hSelect⟩ := hArms.select_alternative hGuards hDisjoint hChosen hAdmits
    oracle activation.frame walk
  obtain ⟨next, last, ⟨fuel, hFuel⟩, hAfter⟩ := hBody steps hSteps cursors walk hBefore hLimit
  have hLabel : (cursors cursor).peekLabel? = Tree.firstLabel? before := hBefore ▸ rfl
  by_cases hRepeat : kind.isRepeat
  · refine ⟨fuel, next, last.record (.repeated (cursors cursor) (next cursor)), ?_, hAfter⟩
    simp [Step.perform, hLabel, hSelect, Outcome.andThen, hFuel, hRepeat]
  · refine ⟨fuel, next, last, ?_, hAfter⟩
    simp [Step.perform, hLabel, hSelect, Outcome.andThen, hFuel, hRepeat]

/-- A choice that may be left passes no node if its exit is predicted. -/
theorem Program.passesStep_exit {kind : ChoiceKind} (hSkip : kind.maySkip = true)
    (hArms : Alternative.BuiltArms context cursor (decision.candidates.map (·.prediction))
      alternatives arms) (hGuards : Alternative.guards alternatives = [])
    (hDisjoint : decision.resolution = .disjoint)
    (hAdmits : decision.Admits ⟨site, .exit, before⟩) :
    program.PassesStep oracle activation cursor (.choice cursor kind decision arms) [] before
      before := by
  intro cursors walk hBefore _
  have hSelect := hArms.select_exit hGuards hDisjoint hAdmits oracle activation.frame walk
  have hLabel : (cursors cursor).peekLabel? = Tree.firstLabel? before := hBefore ▸ rfl
  refine ⟨0, cursors, walk, ?_, hBefore⟩
  simp [Step.perform, hLabel, hSelect, Outcome.andThen, hSkip]

end Choice

/-! ### Derivations that are followed -/

/-- A group that needs a decision has a choice for each of its rounds. -/
theorem Choice.ofGroup_eq {id : Nat} {repetition : Repetition} {alternatives : List Alternative}
    (hNeed : repetition = .once → Alternative.needDecision alternatives = true) (index : Nat)
    (remaining : List Tree) : ofGroup id repetition alternatives index remaining =
      [⟨.subrule id, .alternative index, remaining⟩] := by
  cases repetition with
  | once => exact if_pos (hNeed rfl)
  | optional | star | plus => rfl

section Follow

variable {grammar : Grammar} {oracle : Oracle} {activation : Activation}
  {cursor : CursorVariable} {before after : List Tree} {rule : Rule} {steps : List Step}

/-- A choice that is predicted is admitted by the decision of its place, which has no conflict. -/
theorem Grammar.IsPlain.admits (hPlain : grammar.IsPlain) {choice : Choice} {decision : Decision}
    {owner : Nat} (hDecision : (grammar.context owner).decisionAt? choice.site = some decision)
    (h : Predicted grammar.decisions [choice]) :
    decision.resolution = .disjoint ∧ decision.Admits choice := by
  obtain ⟨decision', hDecision', hAdmits⟩ := h choice (List.mem_singleton_self choice)
  obtain rfl : decision' = decision := Option.some.inj (hDecision'.symm.trans hDecision)
  exact ⟨hPlain.disjoint decision' (List.mem_of_find?_eq_some hDecision'), hAdmits⟩

/-- The steps of a rule pass what one of its alternatives passes, if the alternative is
predicted. -/
theorem Rule.Built.passes (hPlain : grammar.IsPlain) {owner : Nat}
    (hRule : grammar.rules[owner]? = some rule)
    (hBuilt : rule.Built (grammar.context owner) steps) {index : Nat} {alternative : Alternative}
    (hChosen : rule.alternatives[index]? = some alternative)
    (hChoice : Predicted grammar.decisions
      (Choice.ofAlternative (.rule owner) rule.alternatives index before))
    (hBody : ∀ steps, Alternative.Built (grammar.context owner) .given alternative.elements steps →
      grammar.program.Passes oracle activation .given steps before after) :
    grammar.program.Passes oracle activation .given steps before after := by
  have hGuards := hPlain.guards rule (List.mem_of_getElem? hRule)
  cases hBuilt with
  | choice hNeed hDecision hArms =>
    rw [Choice.ofAlternative, if_pos hNeed] at hChoice
    obtain ⟨hDisjoint, hAdmits⟩ := hPlain.admits hDecision hChoice
    have hStep := Program.passesStep_choice .once hArms hGuards hDisjoint hChosen hAdmits hBody
    exact hStep.cons (Program.passes_nil after)
  | @sequence elements span _ _ hAlternatives hElements =>
    rw [hAlternatives] at hChosen
    obtain rfl : Alternative.mk none elements span = alternative :=
      List.mem_singleton.1 (List.mem_of_getElem? hChosen) |>.symm
    exact hBody steps hElements

/-- A call passes what the steps of the rule pass. -/
theorem Grammar.enter_passes {number : Nat} (hRule : grammar.rules[number]? = some rule)
    {frame : Frame Scope} {active : List Invocation} {start : Cursor}
    (hBody : grammar.program.Passes oracle (grammar.activation frame active number rule start)
      .given (rule.steps (grammar.context number)) start.remaining after) (walk : Walk)
    (hLimit : walk.walker.depthLimit = none) : ∃ fuel next last,
      grammar.program.enter (grammar.program.run oracle fuel) frame active number start walk =
        .finished next last ∧ next.remaining = after := by
  obtain ⟨cursors, inner, ⟨fuel, hFuel⟩, hAfter⟩ := hBody (fun _ => start)
    (Walk.record { walk with walker.depth := walk.walker.depth + 1 }
      (.entered (⟨number, start⟩ :: active))) rfl hLimit
  refine ⟨fuel, cursors .given, Walk.record { inner with walker := inner.walker.exit } .left, ?_,
    hAfter⟩
  rw [enter_program hRule, Walker.enter_of_no_limit hLimit]
  simp only [Outcome.andThen, hFuel]
  rfl

/-- The step of a call passes what the steps of the rule pass. -/
theorem Program.passesStep_call {label : Option String} {name : String} {arguments : Arguments}
    {number : Nat}
    (hFound : ∀ access ∈ arguments.accesses, access.find? activation.frame ≠ none)
    (hCallee : grammar.rules.index? name = some number)
    (hRule : grammar.rules[number]? = some rule)
    (hBody : ∀ start : Cursor, grammar.program.Passes oracle
      (grammar.activation activation.frame activation.active number rule start) .given
      (rule.steps (grammar.context number)) before after) :
    grammar.program.PassesStep oracle activation cursor (.call cursor label name arguments) []
      before after := by
  intro cursors walk hBefore hLimit
  subst hBefore
  obtain ⟨fuel, next, last, hEnter, hAfter⟩ :=
    Grammar.enter_passes hRule (hBody (cursors cursor)) walk hLimit
  refine ⟨fuel, Function.update cursors cursor next, last, ?_, ?_⟩
  · rw [Step.perform, bindAttributes_found hFound]
    simp only [Outcome.andThen, Grammar.findIdx?_procedures, hCallee, hEnter]
  · rw [Function.update_self, hAfter]

/-- The steps of a sequence follow its derivation: they pass the nodes that it derives. -/
theorem Derivation.passes (hChecked : grammar.Checked) (hPlain : grammar.IsPlain) {entry : Nat}
    (hEntry : entry ∈ grammar.rules.entries) {owner : Nat} {exprs : List Expr}
    (derivation : Derivation grammar.rules owner exprs before after)
    (hChoices : Predicted grammar.decisions derivation.choices)
    (hExprs : Alternative.All Expr.IsPlain exprs) (hOwner : activation.procedure = owner)
    (hChained : activation.Chained grammar entry rule) (hHas : rule.HasElements exprs)
    (hBuilt : Alternative.Built (grammar.context owner) cursor exprs steps) :
    grammar.program.Passes oracle activation cursor steps before after := by
  induction derivation generalizing activation rule cursor steps with
  | done =>
    cases hBuilt
    exact Program.passes_nil _
  | token hLabel later ih =>
    obtain _ | ⟨⟨⟩, hSteps⟩ := hBuilt
    have hLater := ih hChoices hExprs.later hOwner hChained hHas.later hSteps
    exact (Program.passesStep_token hLabel).cons hLater
  | wildcard later ih =>
    obtain _ | ⟨⟨⟩, hSteps⟩ := hBuilt
    have hLater := ih hChoices hExprs.later hOwner hChained hHas.later hSteps
    exact Program.passesStep_wildcard.cons hLater
  | node hLabel inner later ihInner ihLater =>
    obtain _ | ⟨hStep, hSteps⟩ := hBuilt
    obtain ⟨hInnerChoices, hLaterChoices⟩ := Predicted.append.1 hChoices
    have hLater := ihLater hLaterChoices hExprs.later hOwner hChained hHas.later hSteps
    cases hStep with
    | node hCursor hMoved hChildren =>
      have hInner := ihInner hInnerChoices hExprs.children hOwner hChained
        (Rule.hasElements_node hHas) hChildren
      exact (Program.passesStep_node hLabel hCursor hMoved hInner).cons hLater
  | @call _ _ _ _ _ args _ _ _ _ callee called index alternative hCallee hRule hChosen body later
      ihBody ihLater =>
    obtain _ | ⟨hStep, hSteps⟩ := hBuilt
    obtain ⟨hChoice, hBodyChoices, hLaterChoices⟩ := Predicted.append_append.1 hChoices
    have hLater := ihLater hLaterChoices hExprs.later hOwner hChained hHas.later hSteps
    cases hStep with
    | @call _ _ _ _ _ _ arguments hSource hAccesses =>
      subst hOwner
      have hCall := Rules.mem_callees_of_call hChained.rule (Rule.mem_calls_of_hasElements hHas)
        hCallee
      have hFound : ∀ access ∈ arguments.accesses, access.find? activation.frame ≠ none := by
        rw [hAccesses]
        exact hChained.arguments_found hChecked hEntry hHas
      have hPlainCalled := Alternative.All.of_rules hPlain.exprs hRule hChosen
      have hBody : ∀ start : Cursor, grammar.program.Passes oracle
          (grammar.activation activation.frame activation.active callee called start) .given
          (called.steps (grammar.context callee)) _ _ := fun start =>
        (hChecked.built hRule).passes hPlain hRule hChosen hChoice fun _ hElements =>
          ihBody hBodyChoices hPlainCalled rfl (hChained.call hCall hRule start)
            (called.hasAlternatives_self.elements hChosen) hElements
      exact (Program.passesStep_call hFound hCallee hRule hBody).cons hLater
  | @enter _ id span repetition alternatives _ _ _ _ index alternative hChosen body later ihBody
      ihLater =>
    obtain _ | ⟨hStep, hSteps⟩ := hBuilt
    obtain ⟨hChoice, hBodyChoices, hLaterChoices⟩ := Predicted.append_append.1 hChoices
    have hGuards : Alternative.guards alternatives = [] := hExprs.head
    have hElements := (Rule.hasAlternatives_subrule hHas).elements hChosen
    have hBody : ∀ steps, Alternative.Built _ cursor alternative.elements steps →
        grammar.program.Passes oracle activation cursor steps _ _ := fun _ hSteps =>
      ihBody hBodyChoices (hExprs.elements hChosen) hOwner hChained hElements hSteps
    have hAgainExprs := hExprs.again fun _ => hGuards
    cases hStep with
    | @choice _ _ _ kind _ decision arms hNeed hDecision hArms =>
      rw [Choice.ofGroup_eq hNeed] at hChoice
      obtain ⟨hDisjoint, hAdmits⟩ := hPlain.admits hDecision hChoice
      have hStep := Program.passesStep_choice kind hArms hGuards hDisjoint hChosen hAdmits hBody
      exact hStep.cons (ihLater hLaterChoices hAgainExprs hOwner hChained
        (Rule.hasElements_afterRound hHas) (.afterRound hDecision hArms span hSteps))
    | @block _ _ _ _ elements steps hDecision hInner =>
      obtain rfl := List.mem_singleton.1 (List.mem_of_getElem? hChosen)
      have hLater := ihLater hLaterChoices hAgainExprs hOwner hChained hHas.later hSteps
      exact (Program.passesStep_block (hBody steps hInner)).cons hLater
  | @leave _ id span repetition alternatives _ _ _ hSkip later ih =>
    obtain _ | ⟨hStep, hSteps⟩ := hBuilt
    obtain ⟨hChoice, hLaterChoices⟩ := Predicted.cons.1 hChoices
    have hGuards : Alternative.guards alternatives = [] := hExprs.head
    have hLater := ih hLaterChoices hExprs.later hOwner hChained hHas.later hSteps
    cases hStep with
    | @choice _ _ _ kind _ decision arms hNeed hDecision hArms =>
      obtain ⟨hDisjoint, hAdmits⟩ := hPlain.admits hDecision hChoice
      have hKind : kind.maySkip = true := kind.maySkip_repetition.symm.trans hSkip
      exact (Program.passesStep_exit hKind hArms hGuards hDisjoint hAdmits).cons hLater
    | block => cases hSkip
  | @action _ _ code _ _ _ later ih =>
    obtain _ | ⟨⟨⟩, hSteps⟩ := hBuilt
    subst hOwner
    have hLater := ih hChoices hExprs.later rfl hChained hHas.later hSteps
    have hFound := hChained.find?_ne_none hChecked hEntry
      (Rule.mem_fragments_of_hasElements hHas (List.mem_singleton_self code))
    exact (Program.passesStep_action hFound).cons hLater
  | predicate later ih =>
    -- there are no predicates
    exact absurd hExprs.head id

/-- A walk without a bound on the depth of calls follows a derivation of its tree. -/
theorem Program.exists_walk (hChecked : grammar.Checked) (hPlain : grammar.IsPlain) {entry : Nat}
    (hEntry : entry ∈ grammar.rules.entries) {tree : Tree}
    (derivation : RuleDerivation grammar.rules entry [tree] [])
    (hChoices : Predicted grammar.decisions derivation.choices) (oracle : Oracle)
    {walker : Walker} (hLimit : walker.depthLimit = none) :
    ∃ fuel walk, grammar.program.walk oracle fuel walker entry tree = .finished () walk := by
  obtain ⟨rule, hRule, index, alternative, hChosen, body⟩ := derivation
  obtain ⟨hChoice, hBodyChoices⟩ := Predicted.append.1 hChoices
  have hExprs := Alternative.All.of_rules hPlain.exprs hRule hChosen
  have hStart := Activation.Chained.start hRule (.root tree)
  have hBody : grammar.program.Passes oracle
      (grammar.activation (grammar.frame []) [] entry rule (.root tree)) .given
      (rule.steps (grammar.context entry)) [tree] [] :=
    (hChecked.built hRule).passes hPlain hRule hChosen hChoice fun _ hElements =>
      body.passes hChecked hPlain hEntry hBodyChoices hExprs rfl hStart
        (rule.hasAlternatives_self.elements hChosen) hElements
  obtain ⟨fuel, next, last, hEnter, hNext⟩ :=
    Grammar.enter_passes hRule hBody { walker } hLimit
  refine ⟨fuel, last, ?_⟩
  have hFrame : grammar.frame [] = .root (rootScope grammar.program.procedures.length) := by
    rw [Grammar.length_procedures]
    rfl
  rw [Program.walk, Grammar.getElem?_procedures, hRule]
  simp only [Option.map_some, ← hFrame, hEnter, Outcome.andThen]
  exact Walker.expectEnd_nil hNext

end Follow

end TreeGrammar
