import TreeGrammar.Proofs.Analysis.Progress
import TreeGrammar.Proofs.Program.Soundness
import TreeGrammar.Proofs.Walk.Progress

/-!
# Walks come to an end

The walks of an accepted grammar end on every tree, whatever guards and predicates yield. The outer
induction is on calls, which descend in a well-founded order. Inside a call the induction is on the
number of nodes that remain, and for the same number on the elements: an element that leaves all
nodes may match nothing, so that the calls after it still descend from the call around them.

## Main definitions

* `Program.Completes`: steps come to an end with some bound, and they make progress
* `Activation.BelongsTo`: the active calls descend to a call

## Main results

* `Grammar.call_completes`: calls come to an end
* `Grammar.walk_terminates`: walks come to an end and make progress
-/

namespace TreeGrammar

/-! ### Steps that come to an end -/

/-- Steps come to an end if their bound is large enough, and all that happens makes progress. -/
def Program.Completes (program : Program) (oracle : Oracle) (activation : Activation)
    (steps : List Step) (cursors : Cursors) (walk : Walk) : Prop :=
  ∃ fuel, (program.run oracle fuel activation steps cursors walk).Settles

/-- A step comes to an end if the bound of the steps inside it is large enough, and all that happens
makes progress. -/
def Program.StepCompletes (program : Program) (oracle : Oracle) (activation : Activation)
    (step : Step) (cursors : Cursors) (walk : Walk) : Prop :=
  ∃ fuel, (step.perform program oracle (program.run oracle fuel) activation cursors walk).Settles

section Completes

variable {program : Program} {oracle : Oracle} {activation : Activation} {step : Step}
  {steps : List Step} {cursors : Cursors} {walk : Walk}

theorem Program.completes_nil (h : walk.Progresses) :
    program.Completes oracle activation [] cursors walk :=
  ⟨1, h⟩

/-- A step comes to an end, and so do the steps after it if it is finished. -/
theorem Program.StepCompletes.cons (hStep : program.StepCompletes oracle activation step cursors walk)
    (hLater : ∀ (fuel : Nat) (again : List Step) (next : Cursors) (middle : Walk),
      step.perform program oracle (program.run oracle fuel) activation cursors walk =
        .finished (again, next) middle → middle.Progresses →
          program.Completes oracle activation (again ++ steps) next middle) :
    program.Completes oracle activation (step :: steps) cursors walk := by
  obtain ⟨fuel, hSettles⟩ := hStep
  cases hOutcome : step.perform program oracle (program.run oracle fuel) activation cursors walk with
  | finished result middle =>
    obtain ⟨again, next⟩ := result
    rw [hOutcome] at hSettles
    obtain ⟨fuel', hRest⟩ := hLater fuel again next middle hOutcome hSettles
    refine ⟨max fuel fuel' + 1, ?_⟩
    rwa [run_cons_of_finished hOutcome hRest.ne_unfinished]
  | failed failure middle =>
    refine ⟨fuel + 1, ?_⟩
    rw [hOutcome] at hSettles
    rw [run, hOutcome]
    exact hSettles
  | unfinished => exact absurd hOutcome hSettles.ne_unfinished

end Completes

/-! ### Calls -/

/-- The active calls descend to the call `outer`, which is the innermost one. -/
structure Activation.BelongsTo (rules : Rules) (outer : Invocation) (activation : Activation) :
    Prop where
  active : ∃ active, activation.active = outer :: active
  descends : activation.active.Pairwise rules.Descends

/-- A call that descends from the innermost one descends from all active calls. -/
theorem Activation.BelongsTo.pairwise_cons {rules : Rules} {inner outer : Invocation}
    {activation : Activation} (h : activation.BelongsTo rules outer)
    (hInner : rules.Descends inner outer) :
    (inner :: activation.active).Pairwise rules.Descends := by
  obtain ⟨active, hActive⟩ := h.active
  refine List.pairwise_cons.2 ⟨fun call hCall => ?_, h.descends⟩
  have hOuter := h.descends
  rw [hActive] at hCall hOuter
  rcases List.mem_cons.1 hCall with rfl | hCall
  · exact hInner
  · exact hInner.trans ((List.pairwise_cons.1 hOuter).1 call hCall)

/-- A call comes to an end, wherever it is made. -/
def Grammar.CallCompletes (grammar : Grammar) (oracle : Oracle) (call : Invocation) : Prop :=
  ∀ (rule : Rule) (frame : Frame Scope) (active : List Invocation) (walk : Walk),
    grammar.rules[call.procedure]? = some rule →
      (call :: active).Pairwise grammar.rules.Descends → walk.Progresses →
        ∃ fuel, (grammar.program.enter (grammar.program.run oracle fuel) frame active
          call.procedure call.start walk).Settles

section Termination

variable {grammar : Grammar} {oracle : Oracle} {outer : Invocation} {activation : Activation}
  {cursor : CursorVariable}

/-- The sequence `exprs` comes to an end in front of lists with `size` nodes. -/
def Grammar.SequenceCompletes (grammar : Grammar) (oracle : Oracle) (outer : Invocation)
    (activation : Activation) (size : Nat) (exprs : List Expr) : Prop :=
  ∀ (cursor : CursorVariable) (steps : List Step) (cursors : Cursors) (walk : Walk),
    Alternative.Built (grammar.context activation.procedure) cursor exprs steps →
      Alternative.All (Expr.IsProper grammar.rules) exprs →
        grammar.rules.CallsDescend outer exprs (cursors cursor).remaining →
          Tree.sizes (cursors cursor).remaining = size → walk.Progresses →
            grammar.program.Completes oracle activation steps cursors walk

/-- The element `expr` comes to an end in front of lists with `size` nodes, whatever comes after
it. -/
def Grammar.ElementCompletes (grammar : Grammar) (oracle : Oracle) (outer : Invocation)
    (activation : Activation) (size : Nat) (expr : Expr) : Prop :=
  ∀ (cursor : CursorVariable) (step : Step) (exprs : List Expr) (cursors : Cursors) (walk : Walk),
    Expr.Built (grammar.context activation.procedure) cursor expr step →
      Alternative.All (Expr.IsProper grammar.rules) (expr :: exprs) →
        grammar.rules.CallsDescend outer (expr :: exprs) (cursors cursor).remaining →
          Tree.sizes (cursors cursor).remaining = size → walk.Progresses →
            grammar.program.StepCompletes oracle activation step cursors walk

/-- A choice comes to an end if its alternatives do and their rounds consume nodes. -/
theorem Step.choice_completes (hChecked : grammar.Checked) {kind : ChoiceKind} {decision : Decision}
    {predictions : List LookaheadSet} {alternatives : List Alternative} {arms : List Arm}
    (hArms : Alternative.BuiltArms (grammar.context activation.procedure) cursor predictions
      alternatives arms) {cursors : Cursors} {walk : Walk} (hWalk : walk.Progresses)
    (hBody : ∀ (index : Nat) (alternative : Alternative) (steps : List Step) (middle : Walk),
      alternatives[index]? = some alternative →
        Alternative.Built (grammar.context activation.procedure) cursor alternative.elements steps →
          middle.Progresses → grammar.program.Completes oracle activation steps cursors middle)
    (hRound : kind.isRepeat = true → ∀ (index : Nat) (alternative : Alternative),
      alternatives[index]? = some alternative → ∀ before after : List Tree,
        Derivation grammar.rules activation.procedure alternative.elements before after →
          after ≠ before) :
    grammar.program.StepCompletes oracle activation (.choice cursor kind decision arms) cursors
      walk := by
  refine (Arm.settles_select hWalk ..).exists_andThen fun chosen middle hChosen hMiddle => ?_
  cases chosen with
  | none =>
    refine ⟨0, ?_⟩
    dsimp only
    split
    · exact hMiddle
    · exact Decision.settles_reject hMiddle ..
  | some steps =>
    obtain ⟨-, hArm⟩ := (Arm.select_ensures ..).of_finished hChosen
    obtain ⟨index, prediction, guard, hIndex, -⟩ := hArm steps rfl
    obtain ⟨alternative, hAlternative, -, -, hSteps⟩ := hArms.alternative hIndex
    obtain ⟨fuel, hFuel⟩ := hBody index alternative steps middle hAlternative hSteps hMiddle
    refine ⟨fuel, hFuel.andThen fun next inner hFinished hInner => ?_⟩
    obtain ⟨derivation, -⟩ := ((Program.run_isSound hChecked fuel).sequence activation cursor _ _
      hSteps cursors middle).of_finished hFinished
    split
    · next hRepeat =>
      -- the round is completed, so that it has consumed what its alternative derives
      exact hInner.record
        ⟨derivation.suffix, hRound hRepeat index alternative hAlternative _ _ derivation⟩
    · exact hInner

/-- The step of a call comes to an end if the call does. -/
theorem Step.call_completes {label : Option String} {name : String} {arguments : Arguments}
    {callee : Nat} {rule : Rule} (hCallee : grammar.rules.index? name = some callee)
    (hRule : grammar.rules[callee]? = some rule) {cursors : Cursors} {walk : Walk}
    (hWalk : walk.Progresses) (hCall : grammar.CallCompletes oracle ⟨callee, cursors cursor⟩)
    (hActive : (⟨callee, cursors cursor⟩ :: activation.active).Pairwise grammar.rules.Descends) :
    grammar.program.StepCompletes oracle activation (.call cursor label name arguments) cursors
      walk := by
  refine (settles_bindAttributes hWalk ..).exists_andThen fun _ middle _ hMiddle => ?_
  obtain ⟨fuel, hFuel⟩ := hCall rule activation.frame activation.active middle hRule hActive hMiddle
  refine ⟨fuel, ?_⟩
  simp only [Grammar.findIdx?_procedures, hCallee]
  exact hFuel.andThen fun next after _ hAfter => hAfter

/-- The step of a node match comes to an end if its steps on the children of the node do. -/
theorem Step.node_completes {label : Option String} {name : String} {node number : Nat}
    {steps : List Step} {cursors : Cursors} {walk : Walk} (hWalk : walk.Progresses)
    (hInner : ∀ (tree : Tree) (siblings : List Tree) (middle : Walk) (next : Cursors),
      (cursors cursor).remaining = tree :: siblings →
        (next (.children number)).remaining = tree.children → middle.Progresses →
          grammar.program.Completes oracle activation steps next middle) :
    grammar.program.StepCompletes oracle activation (.node cursor label name node number steps)
      cursors walk := by
  refine (Outcome.settles_ofWalker hWalk _).exists_andThen
    fun ⟨tree, next⟩ middle hFinished hMiddle => ?_
  obtain ⟨rfl, -, hRemaining⟩ := (Walker.expect_ensures ..).of_finished hFinished
  obtain ⟨fuel, hFuel⟩ := hInner tree next.remaining (middle.record (.passed tree))
    (Function.update (Function.update cursors cursor next) (.children number) (.children tree))
    hRemaining (by rw [Function.update_self]; rfl) (hMiddle.record trivial)
  refine ⟨fuel, hFuel.andThen fun after inner _ hInner => ?_⟩
  exact (Outcome.settles_ofWalker hInner _).andThen fun _ last _ hLast => hLast

/-- A sequence comes to an end if its first element and the later ones do. -/
theorem Grammar.ElementCompletes.cons (hChecked : grammar.Checked) {size : Nat}
    (hSmaller : ∀ smaller, smaller < size → ∀ exprs,
      grammar.SequenceCompletes oracle outer activation smaller exprs) {expr : Expr}
    {exprs : List Expr} (hExpr : grammar.ElementCompletes oracle outer activation size expr)
    (hExprs : grammar.SequenceCompletes oracle outer activation size exprs) :
    grammar.SequenceCompletes oracle outer activation size (expr :: exprs) := by
  intro cursor steps cursors walk hBuilt hProper hDescends hSize hWalk
  obtain _ | ⟨hStep, hSteps⟩ := hBuilt
  refine Program.StepCompletes.cons
    (hExpr cursor _ exprs cursors walk hStep hProper hDescends hSize hWalk)
    fun fuel again next middle hFinished hMiddle => ?_
  have hDerives := (Step.perform_sound (Program.run_isSound hChecked fuel)
    (Program.run_frame fuel) hChecked hStep cursors walk).of_finished hFinished
  cases hDerives with
  | whole h =>
    obtain ⟨derivation, -⟩ := h
    have hSuffix := derivation.suffix
    by_cases hSame : (next cursor).remaining = (cursors cursor).remaining
    · -- the element may match nothing, so that the calls after it still descend
      have hLater := hDescends.later hSuffix fun hEq => (nullable_cons.1 (derivation.nullable hEq)).1
      exact hExprs cursor _ next middle hSteps hProper.later hLater (hSame ▸ hSize) hMiddle
    · have hLt := Tree.sizes_lt_of_suffix hSuffix hSame
      exact hSmaller _ (hSize ▸ hLt) exprs cursor _ next middle hSteps hProper.later
        (hDescends.of_lt hLt) rfl hMiddle
  | round hRepeat hChosen hAgain h =>
    obtain ⟨derivation, -⟩ := h
    -- a round has consumed a node
    have hNe := hProper.head.ne_of_round hRepeat hChosen derivation
    have hLt := Tree.sizes_lt_of_suffix derivation.suffix hNe
    exact hSmaller _ (hSize ▸ hLt) _ cursor _ next middle (.cons hAgain hSteps)
      (hProper.star (hProper.head.star hRepeat)) (hDescends.of_lt hLt) rfl hMiddle

/-- Elements come to an end in front of lists with `size` nodes if sequences do so in front of lists
with fewer nodes, and the calls that descend do, too. -/
theorem Grammar.elements_complete (hChecked : grammar.Checked)
    (hBelongs : activation.BelongsTo grammar.rules outer)
    (hCalls : ∀ inner, grammar.rules.Descends inner outer → grammar.CallCompletes oracle inner)
    {size : Nat} (hSmaller : ∀ smaller, smaller < size → ∀ exprs,
      grammar.SequenceCompletes oracle outer activation smaller exprs) :
    (∀ expr, grammar.ElementCompletes oracle outer activation size expr) ∧
      (∀ exprs, grammar.SequenceCompletes oracle outer activation size exprs) ∧
        ∀ (alternatives : List Alternative), ∀ alternative ∈ alternatives,
          grammar.SequenceCompletes oracle outer activation size alternative.elements := by
  refine Expr.induction ?node ?token ?wildcard ?rule ?subrule ?action ?predicate ?nil ?cons
    ?none ?alternative
  case node =>
    intro id span label name children _ cursor step exprs cursors walk hBuilt hProper hDescends hSize
      hWalk
    cases hBuilt with
    | @node _ _ _ _ _ _ _ number steps hCursor hMoved hChildren =>
      refine Step.node_completes hWalk fun tree siblings middle next hRemaining hNext hMiddle => ?_
      -- the children are fewer than the nodes that remain
      have hLt : Tree.sizes (next (.children number)).remaining <
          Tree.sizes (cursors cursor).remaining := by
        rw [hNext, hRemaining]
        exact Tree.sizes_children_lt tree siblings
      exact hSmaller _ (hSize ▸ hLt) children _ _ next middle hChildren hProper.children
        (hDescends.of_lt hLt) rfl hMiddle
  case token =>
    intro id span label name cursor step exprs cursors walk hBuilt _ _ _ hWalk
    cases hBuilt
    refine ⟨0, (Outcome.settles_ofWalker hWalk _).andThen fun _ after _ hAfter => ?_⟩
    exact hAfter.record trivial
  case wildcard =>
    intro id span label cursor step exprs cursors walk hBuilt _ _ _ hWalk
    cases hBuilt
    refine ⟨0, (Outcome.settles_ofWalker hWalk _).andThen fun _ after _ hAfter => ?_⟩
    exact hAfter.record trivial
  case rule =>
    intro id span label name args cursor step exprs cursors walk hBuilt hProper hDescends _ hWalk
    cases hBuilt with
    | call hAccesses =>
      obtain ⟨callee, hCallee⟩ : ∃ callee, grammar.rules.index? name.name = some callee :=
        hProper.head
      obtain ⟨called, hCalled, -⟩ := Rules.getElem?_of_index? hCallee
      have hInner : grammar.rules.Descends ⟨callee, cursors cursor⟩ outer := hDescends.call hCallee
      exact Step.call_completes hCallee hCalled hWalk (hCalls _ hInner)
        (hBelongs.pairwise_cons hInner)
  case subrule =>
    intro id span repetition alternatives ih cursor step exprs cursors walk hBuilt hProper hDescends
      hSize hWalk
    cases hBuilt with
    | @choice _ _ _ kind _ decision arms hNeed hDecision hArms =>
      refine Step.choice_completes hChecked hArms hWalk
        (fun index alternative steps middle hChosen hSteps hMiddle => ?body)
        fun hRepeat index alternative hChosen before after derivation => ?round
      case body =>
        exact ih alternative (List.mem_of_getElem? hChosen) cursor steps cursors middle hSteps
          (hProper.elements hChosen) (hDescends.elements hChosen) hSize hMiddle
      case round =>
        exact hProper.head.ne_of_round (kind.isRepeat_repetition.trans hRepeat) hChosen derivation
    | @block _ _ _ inner elements steps hDecision hElements =>
      have hChosen : [Alternative.mk none elements inner][0]? = some (.mk none elements inner) := rfl
      obtain ⟨fuel, hFuel⟩ := ih _ List.mem_cons_self cursor steps cursors walk hElements
        (hProper.elements hChosen) (hDescends.elements hChosen) hSize hWalk
      exact ⟨fuel, hFuel.andThen fun next after _ hAfter => hAfter⟩
  case action =>
    intro id code cursor step exprs cursors walk hBuilt _ _ _ hWalk
    cases hBuilt
    refine ⟨0, (settles_bindAttributes hWalk ..).andThen fun _ after _ hAfter => ?_⟩
    exact hAfter.record trivial
  case predicate =>
    intro id code cursor step exprs cursors walk hBuilt _ _ _ hWalk
    cases hBuilt
    refine ⟨0, (Code.settles_test hWalk ..).andThen fun holds after _ hAfter => ?_⟩
    split
    · exact hAfter
    · exact Outcome.settles_ofWalker hAfter _
  case nil =>
    intro cursor steps cursors walk hBuilt _ _ _ hWalk
    cases hBuilt
    exact Program.completes_nil hWalk
  case cons =>
    intro expr exprs ihExpr ihExprs
    exact ihExpr.cons hChecked hSmaller ihExprs
  case none => exact fun _ h => absurd h List.not_mem_nil
  case alternative =>
    intro guard elements span alternatives ihElements ihAlternatives
    exact List.forall_mem_cons.2 ⟨ihElements, ihAlternatives⟩

/-- Sequences come to an end if the calls that descend do. -/
theorem Grammar.sequence_completes (hChecked : grammar.Checked)
    (hBelongs : activation.BelongsTo grammar.rules outer)
    (hCalls : ∀ inner, grammar.rules.Descends inner outer → grammar.CallCompletes oracle inner)
    (size : Nat) : ∀ exprs, grammar.SequenceCompletes oracle outer activation size exprs := by
  induction size using Nat.strongRecOn with
  | ind size ih => exact (elements_complete hChecked hBelongs hCalls ih).2.1

/-- The steps of a rule come to an end if the calls that descend do. -/
theorem Rule.Built.completes (hChecked : grammar.Checked) {rule : Rule} {steps : List Step}
    (hBuilt : rule.Built (grammar.context activation.procedure) steps)
    (hRule : grammar.rules[outer.procedure]? = some rule)
    (hBelongs : activation.BelongsTo grammar.rules outer)
    (hCalls : ∀ inner, grammar.rules.Descends inner outer → grammar.CallCompletes oracle inner)
    {walk : Walk} (hWalk : walk.Progresses) :
    grammar.program.Completes oracle activation steps (fun _ => outer.start) walk := by
  have hBody : ∀ (index : Nat) (alternative : Alternative) (steps : List Step) (middle : Walk),
      rule.alternatives[index]? = some alternative →
        Alternative.Built (grammar.context activation.procedure) .given alternative.elements steps →
          middle.Progresses →
            grammar.program.Completes oracle activation steps (fun _ => outer.start) middle := by
    intro index alternative steps middle hChosen hSteps hMiddle
    have hProper := Alternative.All.of_rules hChecked.isProper hRule hChosen
    exact Grammar.sequence_completes hChecked hBelongs hCalls _ _ .given steps _ middle hSteps
      hProper (Rules.CallsDescend.start hRule hChosen) rfl hMiddle
  cases hBuilt with
  | choice hNeed hDecision hArms =>
    have hOnce : ¬ ChoiceKind.once.isRepeat = true := Bool.false_ne_true
    refine (Step.choice_completes hChecked hArms hWalk hBody
      fun hRepeat => absurd hRepeat hOnce).cons fun fuel again next middle hFinished hMiddle => ?_
    -- the alternatives of a rule are tried once, so that nothing comes after them
    obtain ⟨rfl, -⟩ := ((Step.choice_sound (Program.run_isSound hChecked fuel) hArms _
      _).of_finished hFinished).once
    exact Program.completes_nil hMiddle
  | @sequence elements span _ _ hAlternatives hElements =>
    exact hBody 0 _ steps walk (Rule.alternatives_zero hAlternatives) hElements hWalk

/-- Calls come to an end. -/
theorem Grammar.call_completes (hChecked : grammar.Checked) (oracle : Oracle) (call : Invocation) :
    grammar.CallCompletes oracle call := by
  induction call using hChecked.wellFounded_descends.induction with
  | _ call ih =>
    intro rule frame active walk hRule hActive hWalk
    simp only [enter_program hRule]
    refine (Outcome.settles_ofWalker hWalk _).exists_andThen fun _ inner _ hInner => ?_
    have hBelongs : (grammar.activation frame active call.procedure rule call.start).BelongsTo
        grammar.rules call := ⟨⟨active, rfl⟩, hActive⟩
    have hEntered : (inner.record (.entered (call :: active))).Progresses :=
      hInner.record (hActive.imp hChecked.ne_of_descends)
    obtain ⟨fuel, hFuel⟩ := (hChecked.built hRule).completes hChecked hRule hBelongs ih hEntered
    refine ⟨fuel, Outcome.Settles.leave (hFuel.andThen fun cursors last _ hLast => ?_)⟩
    exact hLast

/-- A walk comes to an end, and all that happens makes progress. -/
theorem Program.walk_settles (hChecked : grammar.Checked) {entry : Nat} {rule : Rule}
    (hRule : grammar.rules[entry]? = some rule) (oracle : Oracle) (walker : Walker) (tree : Tree) :
    ∃ fuel, (grammar.program.walk oracle fuel walker entry tree).Settles := by
  have hStart : Walk.Progresses { walker } := nofun
  have hCall := Grammar.call_completes hChecked oracle ⟨entry, .root tree⟩
  obtain ⟨fuel, hFuel⟩ := hCall rule (.root (rootScope grammar.program.procedures.length)) []
    { walker } hRule (List.pairwise_singleton _ _) hStart
  refine ⟨fuel, ?_⟩
  rw [walk, Grammar.getElem?_procedures, hRule]
  exact hFuel.andThen fun cursor after _ hAfter => Outcome.settles_ofWalker hAfter _

end Termination

/-- In an accepted grammar, the walk from an entry comes to an end on every tree, whatever guards
and predicates yield, and with or without a limit on the depth of calls. However a walk ends, each
completed round of a repeated group has consumed a node, and among active calls that start with the
same nodes, no rule occurs twice. -/
theorem Grammar.walk_terminates {source : List Char} {options : Options} {grammar : Grammar}
    (hAccepted : (analyse source options).accepted? = some grammar) {entry : Nat}
    (hEntry : entry ∈ grammar.rules.entries) (oracle : Oracle) (walker : Walker) (tree : Tree) :
    (∃ fuel, grammar.program.walk oracle fuel walker entry tree ≠ .unfinished) ∧
      ∀ (fuel : Nat) (walk : Walk),
        (grammar.program.walk oracle fuel walker entry tree).walk? = some walk →
          ∀ event ∈ walk.history, event.Progresses := by
  have hChecked := checked_of_accepted hAccepted
  have hRule : grammar.rules[entry]? = some _ :=
    List.getElem?_eq_getElem (Rules.lt_length_of_mem_entries hEntry)
  obtain ⟨enough, hEnough⟩ := Program.walk_settles hChecked hRule oracle walker tree
  refine ⟨⟨enough, hEnough.ne_unfinished⟩, fun fuel walk hWalk => ?_⟩
  have hFinished : grammar.program.walk oracle fuel walker entry tree ≠ .unfinished := by
    intro hUnfinished
    rw [hUnfinished] at hWalk
    cases hWalk
  -- with the larger one of both bounds, the outcome is the same as with each of them
  have hLarger := Program.walk_mono (Nat.le_max_left fuel enough) walker entry tree hFinished
  rw [Program.walk_mono (Nat.le_max_right fuel enough) walker entry tree hEnough.ne_unfinished]
    at hLarger
  exact hEnough.progresses (hLarger ▸ hWalk)

namespace Sample

/-- The walk of the small grammar over a node comes to an end, where the rule `t` is called on the
same nodes as the rule `s`. -/
theorem walk_terminates_leaf :
    (∃ fuel, grammar.program.walk (fun _ _ => true) fuel {} 0 (.leaf "a" "") ≠ .unfinished) ∧
      ∀ (fuel : Nat) (walk : Walk),
        (grammar.program.walk (fun _ _ => true) fuel {} 0 (.leaf "a" "")).walk? = some walk →
          ∀ event ∈ walk.history, event.Progresses :=
  have hEntry : 0 ∈ grammar.rules.entries := by decide
  Grammar.walk_terminates accepted hEntry (fun _ _ => true) {} (.leaf "a" "")

end Sample

end TreeGrammar
