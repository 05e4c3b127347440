import TreeGrammar.Proofs.Grammar.Derivation
import TreeGrammar.Proofs.Program.Procedures

/-!
# Walks that succeed derive their trees

A walk that does not fail has found a derivation of what it has passed: each step derives the nodes
that it takes with the element for which it stands. The nodes that are passed and the actions that
are run are those of the derivation, in its order. This holds whatever guards and predicates yield,
and whatever conflicts the decisions of the grammar have.

## Main definitions

* `Walk.actions`: the actions that are run in a walk
* `Walk.deeds`: the nodes that are passed and the actions that are run in a walk
* `Grammar.Does`: some deeds of a derivation are done between two states
* `Runner.IsSound`: the steps of a rule derive what they take

## Main results

* `Program.run_isSound`: the steps of a rule derive what they take
* `Program.exists_derivation`: a walk that succeeds derives its tree
* `Grammar.walk_derives`: in an accepted grammar, a walk that succeeds derives its tree
-/

namespace TreeGrammar

/-! ### Deeds -/

/-- The action that an event records. -/
def Event.action? : Event → Option Code
  | ran code => some code
  | _ => none

/-- The actions that are run in a walk, the last one at the end. -/
def Walk.actions (walk : Walk) : List Code := walk.history.filterMap Event.action?

/-- An event that a derivation accounts for: a node is passed, or an action is run. -/
def Event.isDeed : Event → Bool
  | passed _ | ran _ => true
  | _ => false

/-- The nodes that are passed and the actions that are run in a walk, the last one at the end. -/
def Walk.deeds (walk : Walk) : List Event := walk.history.filter Event.isDeed

theorem Walk.actions_eq (walk : Walk) : walk.actions = walk.deeds.filterMap Event.action? := by
  rw [actions, deeds, List.filterMap_filter]
  congr 1
  funext event
  cases event <;> rfl

theorem Walk.deeds_append {before after : Walk} {events : List Event}
    (h : after.history = before.history ++ events) :
    after.deeds = before.deeds ++ events.filter Event.isDeed := by
  rw [deeds, h, List.filter_append, deeds]

theorem Walk.Tests.deeds_eq {before after : Walk} (h : before.Tests after) :
    after.deeds = before.deeds := by
  obtain ⟨events, hEvents, hTests⟩ := h.events
  have hNone : events.filter Event.isDeed = [] := by
    refine List.filter_eq_nil_iff.2 fun event hEvent => ?_
    obtain ⟨code, holds, rfl⟩ := hTests event hEvent
    exact Bool.false_ne_true
  rw [Walk.deeds_append hEvents, hNone, List.append_nil]

/-- The code of an action of the rule with the given number. -/
def Grammar.actionCode (grammar : Grammar) (action : Nat × Fragment) : Code :=
  (grammar.context action.1).code action.2

/-- The event that records a deed of a derivation. -/
def Grammar.event (grammar : Grammar) : Deed → Event
  | .pass node => .passed node
  | .run owner code => .ran (grammar.actionCode (owner, code))

theorem Grammar.filterMap_event (grammar : Grammar) (deeds : List Deed) :
    (deeds.map grammar.event).filterMap Event.action? =
      (deeds.filterMap Deed.action?).map grammar.actionCode := by
  rw [List.filterMap_map, List.map_filterMap]
  congr 1
  funext deed
  cases deed <;> rfl

/-- Some deeds of a derivation are done between two states of a walk, and nothing else that counts. -/
def Grammar.Does (grammar : Grammar) (deeds : List Deed) (before after : Walk) : Prop :=
  after.deeds = before.deeds ++ deeds.map grammar.event

namespace Grammar.Does

variable {grammar : Grammar} {a b c : Walk} {xs ys : List Deed}

theorem refl (a : Walk) : grammar.Does [] a a := (List.append_nil _).symm

theorem trans (hab : grammar.Does xs a b) (hbc : grammar.Does ys b c) :
    grammar.Does (xs ++ ys) a c := by
  rw [Does, hbc, hab, List.map_append, List.append_assoc]

theorem of_tests (h : a.Tests b) : grammar.Does [] a b :=
  h.deeds_eq.trans (List.append_nil _).symm

/-- Other events do not count. -/
theorem of_history (h : grammar.Does xs a b) {event : Event} (hEvent : event.isDeed = false)
    (hHistory : c.history = b.history ++ [event]) : grammar.Does xs a c := by
  rw [Does, Walk.deeds_append hHistory, List.filter_cons_of_neg (Bool.not_eq_true _ ▸ hEvent),
    List.filter_nil, List.append_nil, h]

theorem record (h : grammar.Does xs a b) {event : Event} (hEvent : event.isDeed = false) :
    grammar.Does xs a (b.record event) :=
  h.of_history hEvent rfl

/-- A deed is done when it is recorded. -/
theorem deed (a : Walk) (deed : Deed) : grammar.Does [deed] a (a.record (grammar.event deed)) := by
  have hDeed : (grammar.event deed).isDeed = true := by cases deed <;> rfl
  rw [Does, Walk.deeds_append rfl, List.filter_cons_of_pos hDeed]
  rfl

end Grammar.Does

/-! ### Steps that derive -/

section Sound

variable {grammar : Grammar} {run : Runner} {oracle : Oracle} {activation : Activation}
  {cursor : CursorVariable} {cursors : Cursors} {walk : Walk}

/-- The sequence `exprs` derives what stands between two places, with the deeds that are done
between two states. -/
def Grammar.Derives (grammar : Grammar) (owner : Nat) (exprs : List Expr) (before after : Cursor)
    (walk walk' : Walk) : Prop :=
  ∃ derivation : Derivation grammar.rules owner exprs before.remaining after.remaining,
    grammar.Does derivation.deeds walk walk'

namespace Grammar.Derives

variable {owner : Nat} {xs ys : List Expr} {a b c : Cursor} {w w' w'' : Walk}

theorem nil (a : Cursor) (w : Walk) : grammar.Derives owner [] a a w w :=
  ⟨.done, Does.refl w⟩

/-- A sequence and what comes after it. -/
theorem append (h : grammar.Derives owner xs a b w w') (h' : grammar.Derives owner ys b c w' w'') :
    grammar.Derives owner (xs ++ ys) a c w w'' := by
  obtain ⟨first, hFirst⟩ := h
  obtain ⟨second, hSecond⟩ := h'
  obtain ⟨derivation, hDeeds⟩ := first.exists_append second
  exact ⟨derivation, hDeeds ▸ hFirst.trans hSecond⟩

/-- A round of a group and what comes after it. -/
theorem enter {id : Nat} {span : Span} {repetition : Repetition} {alternatives : List Alternative}
    {index : Nat} {alternative : Alternative} (hChosen : alternatives[index]? = some alternative)
    (h : grammar.Derives owner alternative.elements a b w w')
    (h' : grammar.Derives owner (repetition.again id span alternatives ++ xs) b c w' w'') :
    grammar.Derives owner (.subrule id span repetition alternatives :: xs) a c w w'' := by
  obtain ⟨body, hBody⟩ := h
  obtain ⟨later, hLater⟩ := h'
  exact ⟨.enter hChosen body later, hBody.trans hLater⟩

end Grammar.Derives

/-- A rule derives what stands between two places, with the deeds that are done between two
states. -/
def Grammar.RuleDerives (grammar : Grammar) (owner : Nat) (before after : Cursor)
    (walk walk' : Walk) : Prop :=
  ∃ derivation : RuleDerivation grammar.rules owner before.remaining after.remaining,
    grammar.Does derivation.deeds walk walk'

/-- The steps of a rule derive what they take: those of a sequence of its elements as well as all of
them. -/
structure Runner.IsSound (grammar : Grammar) (run : Runner) : Prop where
  sequence : ∀ (activation : Activation) (cursor : CursorVariable) (exprs : List Expr)
    (steps : List Step),
    Alternative.Built (grammar.context activation.procedure) cursor exprs steps →
      ∀ (cursors : Cursors) (walk : Walk), (run activation steps cursors walk).Ensures
        (fun after walk' => grammar.Derives activation.procedure exprs (cursors cursor)
          (after cursor) walk walk') AnyFailure
  body : ∀ (activation : Activation) (rule : Rule) (steps : List Step),
    grammar.rules[activation.procedure]? = some rule →
      rule.Built (grammar.context activation.procedure) steps →
        ∀ (cursors : Cursors) (walk : Walk), (run activation steps cursors walk).Ensures
          (fun after walk' => grammar.RuleDerives activation.procedure (cursors .given)
            (after .given) walk walk') AnyFailure

/-- What a step derives: either its whole element, after which the later steps are taken, or one round
of a repeated group, after which the group is tried once more. -/
inductive Grammar.StepDerives (grammar : Grammar) (owner : Nat) (cursor : CursorVariable)
    (before : Cursor) (walk : Walk) : Expr → List Step × Cursors → Walk → Prop where
  | whole {expr : Expr} {next : Cursors} {walk' : Walk}
      (h : grammar.Derives owner [expr] before (next cursor) walk walk') :
      StepDerives grammar owner cursor before walk expr ([], next) walk'
  | round {id : Nat} {span : Span} {repetition : Repetition} {alternatives : List Alternative}
      {index : Nat} {alternative : Alternative} {again : Step} {next : Cursors} {walk' : Walk}
      (hRepeat : repetition.isRepeat = true) (hChosen : alternatives[index]? = some alternative)
      (hAgain : Expr.Built (grammar.context owner) cursor (.subrule id span .star alternatives)
        again)
      (h : grammar.Derives owner alternative.elements before (next cursor) walk walk') :
      StepDerives grammar owner cursor before walk (.subrule id span repetition alternatives)
        ([again], next) walk'

/-- The alternatives of a choice derive what the choice takes. -/
theorem Step.choice_sound (hRun : run.IsSound grammar) {kind : ChoiceKind} {decision : Decision}
    {predictions : List LookaheadSet} {alternatives : List Alternative} {arms : List Arm}
    (hArms : Alternative.BuiltArms (grammar.context activation.procedure) cursor predictions
      alternatives arms) (cursors : Cursors) (walk : Walk) :
    (Step.perform grammar.program oracle run activation cursors walk
      (.choice cursor kind decision arms)).Ensures
        (Arm.Taken cursor kind decision arms cursors walk fun next inner =>
          ∃ (index : Nat) (alternative : Alternative), alternatives[index]? = some alternative ∧
            grammar.Derives activation.procedure alternative.elements (cursors cursor)
              (next cursor) walk inner) AnyFailure := by
  refine Step.perform_choice_ensures ?arm (fun _ _ => trivial) fun _ _ => trivial
  case arm =>
    intro index prediction guard steps hArm _ middle hTests
    obtain ⟨alternative, hChosen, -, -, hSteps⟩ := hArms.alternative hArm
    refine (hRun.sequence activation cursor _ steps hSteps cursors middle).mono
      (fun next inner hNext => ?_) fun _ h => h
    obtain ⟨derivation, hDoes⟩ := hNext
    exact ⟨index, alternative, hChosen, derivation, (Grammar.Does.of_tests hTests).trans hDoes⟩

/-- A call derives what it takes with the rule that is called. -/
theorem Grammar.enter_sound (hRun : run.IsSound grammar) (hChecked : grammar.Checked)
    {number : Nat} {rule : Rule} (hRule : grammar.rules[number]? = some rule)
    (frame : Frame Scope) (active : List Invocation) (cursor : Cursor) (walk : Walk) :
    (grammar.program.enter run frame active number cursor walk).Ensures
      (fun next walk' => grammar.RuleDerives number cursor next walk walk') AnyFailure := by
  have hSteps : ∀ inner : Walk,
      inner.history = walk.history ++ [.entered (⟨number, cursor⟩ :: active)] →
        (run (grammar.activation frame active number rule cursor)
          (rule.steps (grammar.context number)) (fun _ => cursor) inner).Ensures
            (fun after last => grammar.RuleDerives number cursor (after .given) walk last)
            AnyFailure := by
    intro inner hInner
    have hEntered : grammar.Does [] walk inner := (Does.refl walk).of_history rfl hInner
    refine (hRun.body (grammar.activation frame active number rule cursor) rule _ hRule
      (hChecked.built hRule) (fun _ => cursor) inner).mono (fun after last h => ?_) fun _ h => h
    obtain ⟨derivation, hDoes⟩ := h
    exact ⟨derivation, hEntered.trans hDoes⟩
  refine (enter_ensures hRule (fun _ _ => trivial) hSteps).mono (fun next walk' h => ?_) fun _ h => h
  obtain ⟨after, last, ⟨derivation, hDoes⟩, rfl, hLeft⟩ := h
  exact ⟨derivation, hDoes.of_history rfl hLeft⟩

/-- A step derives what it takes. -/
theorem Step.perform_sound (hRun : run.IsSound grammar) (hFrames : run.Frames)
    (hChecked : grammar.Checked) {expr : Expr} {step : Step}
    (hBuilt : Expr.Built (grammar.context activation.procedure) cursor expr step)
    (cursors : Cursors) (walk : Walk) :
    (step.perform grammar.program oracle run activation cursors walk).Ensures
      (grammar.StepDerives activation.procedure cursor (cursors cursor) walk expr) AnyFailure := by
  cases hBuilt with
  | token =>
    refine (Walker.expect_ensures ..).anyFailure.andThen fun ⟨tree, next⟩ middle h => ?_
    obtain ⟨rfl, hLabel, hRemaining⟩ := h
    refine .whole ?_
    rw [Function.update_self, Grammar.Derives, hRemaining]
    exact ⟨.token hLabel .done, .deed _ (.pass tree)⟩
  | wildcard =>
    refine (Walker.wildcard_ensures ..).anyFailure.andThen fun ⟨tree, next⟩ middle h => ?_
    obtain ⟨rfl, hRemaining⟩ := h
    refine .whole ?_
    rw [Function.update_self, Grammar.Derives, hRemaining]
    exact ⟨.wildcard .done, .deed _ (.pass tree)⟩
  | @node _ id span label name children node number steps hCursor hMoved hChildren =>
    refine (Walker.expect_ensures ..).anyFailure.andThen fun ⟨tree, next⟩ middle h => ?_
    obtain ⟨rfl, hLabel, hRemaining⟩ := h
    refine ((hRun.sequence activation _ _ _ hChildren _ _).and (hFrames ..)).anyFailure.andThen
      fun after inner h => ?_
    obtain ⟨hInner, hKeeps, -⟩ := h
    refine (Walker.expectEnd_ensures ..).anyFailure.andThen fun _ last h => ?_
    obtain ⟨rfl, hEnd⟩ := h
    rw [Function.update_self, Grammar.Derives, hEnd] at hInner
    obtain ⟨body, hDoes⟩ := hInner
    -- the steps on the children have not moved the cursor of the node
    have hAfter : after cursor = next := by
      rw [hKeeps cursor hMoved, Function.update_of_ne hCursor, Function.update_self]
    refine .whole ?_
    rw [hAfter, Grammar.Derives, hRemaining]
    refine ⟨.node hLabel body .done, ?_⟩
    show grammar.Does (.pass tree :: (body.deeds ++ [])) _ _
    rw [List.append_nil]
    exact (Grammar.Does.deed _ (.pass tree)).trans hDoes
  | @call _ id span label name args arguments hSource hAccesses =>
    refine (bindAttributes_ensures ..).anyFailure.andThen fun _ middle h => ?_
    subst h
    split
    · trivial
    · next callee hCallee =>
      rw [Grammar.findIdx?_procedures] at hCallee
      obtain ⟨called, hCalled, -⟩ := Rules.getElem?_of_index? hCallee
      refine (Grammar.enter_sound hRun hChecked hCalled ..).andThen fun next after h => ?_
      obtain ⟨⟨rule, hRule, index, alternative, hChosen, body⟩, hDoes⟩ := h
      refine .whole ?_
      rw [Function.update_self]
      refine ⟨.call hCallee hRule hChosen body .done, ?_⟩
      show grammar.Does (body.deeds ++ []) _ _
      rwa [List.append_nil]
  | @action _ id code =>
    refine (bindAttributes_ensures ..).anyFailure.andThen fun _ middle h => ?_
    subst h
    exact .whole ⟨.action .done, .deed _ (.run activation.procedure code)⟩
  | predicate =>
    refine (Code.test_ensures ..).anyFailure.andThen fun holds after hTests => ?_
    split
    · exact .whole ⟨.predicate .done, .of_tests hTests⟩
    · trivial
  | @block _ id span inner elements steps hDecision hElements =>
    refine (hRun.sequence activation cursor _ _ hElements cursors walk).andThen
      fun next after h => ?_
    have hChosen : [Alternative.mk none elements inner][0]? = some (.mk none elements inner) := rfl
    exact .whole (.enter hChosen h (.nil _ _))
  | @choice _ id span kind alternatives decision arms hNeed hDecision hArms =>
    refine (Step.choice_sound hRun hArms cursors walk).mono ?_ fun _ h => h
    rintro ⟨again, next⟩ after (⟨hSkip, hResult, hTests⟩ | ⟨inner, hInner, hAgain⟩)
    · obtain ⟨rfl, rfl⟩ := Prod.mk.inj hResult
      exact .whole ⟨.leave (kind.maySkip_repetition.trans hSkip) .done, .of_tests hTests⟩
    · obtain ⟨index, alternative, hChosen, body, hDoes⟩ := hInner
      split at hAgain
      · next hRepeat =>
        obtain ⟨rfl, rfl⟩ := hAgain
        exact .round (kind.isRepeat_repetition.trans hRepeat) hChosen (.again hDecision hArms span)
          ⟨body, hDoes.record rfl⟩
      · next hRepeat =>
        obtain ⟨rfl, rfl⟩ := hAgain
        have hNone : kind.repetition.again id span alternatives = [] := by
          rw [Repetition.again, kind.isRepeat_repetition, if_neg hRepeat]
        refine .whole (.enter hChosen ⟨body, hDoes⟩ ?_)
        rw [hNone]
        exact .nil _ _

/-- The steps of a sequence derive what they take if those that are taken with a smaller bound
do. -/
theorem Program.sequence_isSound {fuel : Nat}
    (ih : Runner.IsSound grammar (grammar.program.run oracle fuel)) (hChecked : grammar.Checked)
    {exprs : List Expr} {steps : List Step}
    (hBuilt : Alternative.Built (grammar.context activation.procedure) cursor exprs steps)
    (cursors : Cursors) (walk : Walk) :
    (grammar.program.run oracle (fuel + 1) activation steps cursors walk).Ensures
      (fun after walk' => grammar.Derives activation.procedure exprs (cursors cursor)
        (after cursor) walk walk') AnyFailure := by
  cases hBuilt with
  | nil => exact ⟨.done, Grammar.Does.refl walk⟩
  | @cons _ expr exprs step steps hStep hSteps =>
    refine (Step.perform_sound ih (run_frame fuel) hChecked hStep cursors walk).andThen
      fun ⟨again, next⟩ middle h => ?_
    cases h with
    | whole hFirst =>
      refine (ih.sequence activation cursor _ _ hSteps next middle).mono
        (fun after last hLater => ?_) fun _ h => h
      exact hFirst.append hLater
    | @round id span repetition alternatives index alternative again _ _ hRepeat hChosen hAgain
        hRound =>
      refine (ih.sequence activation cursor _ _ (.cons hAgain hSteps) next middle).mono
        (fun after last hLater => ?_) fun _ h => h
      refine hRound.enter hChosen ?_
      rw [Repetition.again, if_pos hRepeat]
      exact hLater

/-- The steps of a rule derive what they take, with any bound on their number. -/
theorem Program.run_isSound (hChecked : grammar.Checked) (fuel : Nat) :
    Runner.IsSound grammar (grammar.program.run oracle fuel) := by
  induction fuel with
  | zero => exact ⟨fun _ _ _ _ _ _ _ => trivial, fun _ _ _ _ _ _ _ => trivial⟩
  | succ fuel ih =>
    refine ⟨fun activation cursor exprs steps hBuilt => ?sequence,
      fun activation rule steps hRule hBuilt cursors walk => ?body⟩
    case sequence => exact sequence_isSound ih hChecked hBuilt
    case body =>
      cases hBuilt with
      | @sequence elements span _ _ hAlternatives hElements =>
        refine (sequence_isSound ih hChecked hElements cursors walk).mono (fun after last h => ?_)
          fun _ h => h
        obtain ⟨derivation, hDoes⟩ := h
        exact ⟨⟨rule, hRule, 0, _, Rule.alternatives_zero hAlternatives, derivation⟩, hDoes⟩
      | choice hNeed hDecision hArms =>
        refine (Step.choice_sound ih hArms cursors walk).andThen fun ⟨again, next⟩ middle h => ?_
        -- the alternatives of a rule are tried once, so that nothing comes after them
        obtain ⟨rfl, index, alternative, hChosen, body, hDoes⟩ := h.once
        refine (run_nil_ensures fuel activation next middle).mono (fun after last h => ?_)
          fun _ h => h
        obtain ⟨rfl, rfl⟩ := h
        exact ⟨⟨rule, hRule, index, alternative, hChosen, body⟩, hDoes⟩

/-- A walk that succeeds derives its tree, and what it does is what the derivation does. -/
theorem Program.exists_deeds (hChecked : grammar.Checked) {fuel : Nat} {walker : Walker}
    {entry : Nat} {tree : Tree} {walk : Walk}
    (h : grammar.program.walk oracle fuel walker entry tree = .finished () walk) :
    ∃ derivation : RuleDerivation grammar.rules entry [tree] [],
      walk.deeds = derivation.deeds.map grammar.event := by
  have hSound : (grammar.program.walk oracle fuel walker entry tree).Ensures
      (fun _ walk => ∃ derivation : RuleDerivation grammar.rules entry [tree] [],
        walk.deeds = derivation.deeds.map grammar.event) AnyFailure := by
    rw [Program.walk, Grammar.getElem?_procedures]
    cases hRule : grammar.rules[entry]? with
    | none => trivial
    | some rule =>
      refine (Grammar.enter_sound (run_isSound hChecked fuel) hChecked hRule ..).andThen
        fun next after h => ?_
      refine (Walker.expectEnd_ensures ..).anyFailure.mono (fun _ last hLast => ?_) fun _ h => h
      obtain ⟨rfl, hEnd⟩ := hLast
      rw [Grammar.RuleDerives, hEnd] at h
      exact h
  exact hSound.of_finished h

/-- A walk that succeeds derives its tree, and the actions that it runs are those of the derivation
in its order. -/
theorem Program.exists_derivation (hChecked : grammar.Checked) {fuel : Nat} {walker : Walker}
    {entry : Nat} {tree : Tree} {walk : Walk}
    (h : grammar.program.walk oracle fuel walker entry tree = .finished () walk) :
    ∃ derivation : RuleDerivation grammar.rules entry [tree] [],
      walk.actions = derivation.actions.map grammar.actionCode := by
  obtain ⟨derivation, hDeeds⟩ := exists_deeds hChecked h
  have hActions : derivation.actions = derivation.deeds.filterMap Deed.action? :=
    derivation.body.actions_eq
  exact ⟨derivation, by rw [Walk.actions_eq, hDeeds, grammar.filterMap_event, hActions]⟩

end Sound

/-! ### Accepted grammars -/

/-- In an accepted grammar, whatever conflicts its decisions have and whatever guards and predicates
yield, a walk from a rule succeeds only on trees that the rule derives. The nodes that it passes and
the actions that it runs are those of a derivation, from left to right. -/
theorem Grammar.walk_derives {source : List Char} {options : Options} {grammar : Grammar}
    (hAccepted : (analyse source options).accepted? = some grammar) (oracle : Oracle) {fuel : Nat}
    {walker : Walker} {entry : Nat} {tree : Tree} {walk : Walk}
    (hWalk : grammar.program.walk oracle fuel walker entry tree = .finished () walk) :
    ∃ derivation : RuleDerivation grammar.rules entry [tree] [],
      walk.deeds = derivation.deeds.map grammar.event :=
  Program.exists_deeds (checked_of_accepted hAccepted) hWalk

namespace Sample

/-- The state after a walk of the small grammar over a single node, which is passed by the rule `t`. -/
def walkLeaf : Walk where
  history :=
    let start : Cursor := .root (.leaf "a" "")
    [.entered [⟨0, start⟩], .entered [⟨1, start⟩, ⟨0, start⟩], .passed (.leaf "a" ""),
      .ran (grammar.actionCode (1, code)), .left, .left]

theorem walk_derives_leaf :
    ∃ derivation : RuleDerivation grammar.rules 0 [.leaf "a" ""] [],
      [.passed (.leaf "a" ""), .ran (grammar.actionCode (1, code))] =
        derivation.deeds.map grammar.event := by
  have hWalk : grammar.program.walk (fun _ _ => false) 9 {} 0 (.leaf "a" "") =
    .finished () walkLeaf := by with_unfolding_all rfl
  exact Grammar.walk_derives accepted _ hWalk

end Sample

end TreeGrammar
