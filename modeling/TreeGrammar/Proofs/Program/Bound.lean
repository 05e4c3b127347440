import TreeGrammar.Proofs.Grammar.Membership
import TreeGrammar.Proofs.Program.Attributes

/-!
# Walks find their attributes

The active calls of a walk are a chain of calls of its grammar, and the frames are those of this
chain. Since every reference finds a frame along each chain, no walk that starts at an entry fails
because of an attribute, whatever its tree is and whatever guards and predicates yield.

## Main definitions

* `Activation.Chained`: the active calls are a chain, and the frames are those of the chain
* `Runner.IsBound`: the steps of a rule do not miss an attribute

## Main results

* `Grammar.references_bound`: references find the innermost declaration, and no walk misses one
-/

namespace TreeGrammar

/-- The active calls are a chain of calls from an entry to the given rule, and the frames are those
of the chain. -/
structure Activation.Chained (grammar : Grammar) (entry : Nat) (rule : Rule)
    (activation : Activation) : Prop where
  rule : grammar.rules[activation.procedure]? = some rule
  chain : ∃ callers, activation.active.map Invocation.procedure =
    activation.procedure :: callers ∧
      grammar.rules.CallChain entry (activation.procedure :: callers)
  frame : activation.frame = grammar.frame (activation.active.map Invocation.procedure)

namespace Activation.Chained

variable {grammar : Grammar} {entry : Nat} {rule : Rule} {activation : Activation}

/-- The activation with which a walk starts. -/
theorem start (hRule : grammar.rules[entry]? = some rule) (cursor : Cursor) :
    (grammar.activation (grammar.frame []) [] entry rule cursor).Chained grammar entry rule :=
  ⟨hRule, ⟨[], rfl, .start⟩, rfl⟩

/-- The activation of a call. -/
theorem call (h : activation.Chained grammar entry rule) {callee : Nat} {called : Rule}
    (hCall : callee ∈ grammar.rules.callGraph.callees activation.procedure)
    (hCalled : grammar.rules[callee]? = some called) (cursor : Cursor) :
    (grammar.activation activation.frame activation.active callee called cursor).Chained
      grammar entry called := by
  obtain ⟨callers, hActive, hChain⟩ := h.chain
  refine ⟨hCalled, ⟨activation.procedure :: callers, ?_, hChain.call hCall⟩, ?_⟩
  · exact congrArg (callee :: ·) hActive
  · simp only [Grammar.activation, List.map_cons, Grammar.frame, h.frame, List.length_map]

/-- The code of the rule finds the attributes to which it refers. -/
theorem find?_ne_none (h : activation.Chained grammar entry rule) (hChecked : grammar.Checked)
    (hEntry : entry ∈ grammar.rules.entries) {code : Fragment} (hCode : code ∈ rule.fragments) :
    ∀ access ∈ (grammar.context activation.procedure).accesses code,
      access.find? activation.frame ≠ none := by
  intro access hAccess
  obtain ⟨name, hName, rfl⟩ := List.mem_map.1 hAccess
  obtain ⟨callers, hActive, hChain⟩ := h.chain
  obtain ⟨_, _, _, _, _, _, _, _, _, _, hFound, _⟩ :=
    hChecked.findsInnermost hEntry hChain h.rule hCode hName
  rw [h.frame, hActive]
  exact hFound

/-- The arguments of a call find the attributes to which they refer. -/
theorem arguments_found (h : activation.Chained grammar entry rule) (hChecked : grammar.Checked)
    (hEntry : entry ∈ grammar.rules.entries) {id : Nat} {span : Span} {label : Option Ident}
    {name : Ident} {args : Option Fragment} {exprs : List Expr}
    (hHas : rule.HasElements (.rule id span label name args :: exprs)) :
    ∀ access ∈ (grammar.context activation.procedure).argumentAccesses args,
      access.find? activation.frame ≠ none := by
  cases args with
  | none => exact fun _ hAccess => absurd hAccess List.not_mem_nil
  | some code =>
    have hCode : code ∈ rule.fragments :=
      Rule.mem_fragments_of_hasElements hHas (List.mem_singleton_self code)
    exact h.find?_ne_none hChecked hEntry hCode

end Activation.Chained

section Bound

variable {grammar : Grammar} {entry : Nat} {rule : Rule} {activation : Activation} {run : Runner}
  {oracle : Oracle}

/-- Nothing is claimed about how a part of a walk ends if it does not fail. -/
def AnyEnd {α : Type} (_ : α) (_ : Walk) : Prop := True

/-- The steps of a rule do not miss an attribute: neither those of a sequence of its elements nor
all of them. -/
structure Runner.IsBound (grammar : Grammar) (entry : Nat) (run : Runner) : Prop where
  sequence : ∀ (activation : Activation) (rule : Rule), activation.Chained grammar entry rule →
    ∀ (cursor : CursorVariable) (exprs : List Expr) (steps : List Step),
      Alternative.Built (grammar.context activation.procedure) cursor exprs steps →
        rule.HasElements exprs → ∀ (cursors : Cursors) (walk : Walk),
          (run activation steps cursors walk).Ensures AnyEnd Failure.IsBound
  body : ∀ (activation : Activation) (rule : Rule), activation.Chained grammar entry rule →
    ∀ (steps : List Step), rule.Built (grammar.context activation.procedure) steps →
      ∀ (cursors : Cursors) (walk : Walk),
        (run activation steps cursors walk).Ensures AnyEnd Failure.IsBound

theorem isBound_of_unbound {frame : Frame Scope} {accesses : List AttributeAccess}
    (h : ∀ access ∈ accesses, access.find? frame ≠ none) :
    ∀ failure, AttributeAccess.Unbound frame accesses failure → failure.IsBound := by
  rintro failure ⟨access, hMem, hNone, -⟩
  exact absurd hNone (h access hMem)

/-- The arms of a choice do not miss an attribute. -/
theorem Step.choice_isBound (hRun : run.IsBound grammar entry) (hChecked : grammar.Checked)
    (hEntry : entry ∈ grammar.rules.entries) (hChained : activation.Chained grammar entry rule)
    {cursor : CursorVariable} {kind : ChoiceKind} {decision : Decision}
    {predictions : List LookaheadSet} {alternatives : List Alternative} {arms : List Arm}
    (hArms : Alternative.BuiltArms (grammar.context activation.procedure) cursor predictions
      alternatives arms) (hHas : rule.HasAlternatives alternatives) (cursors : Cursors)
    (walk : Walk) :
    (Step.perform grammar.program oracle run activation cursors walk
      (.choice cursor kind decision arms)).Ensures
        (Arm.Taken cursor kind decision arms cursors walk AnyEnd) Failure.IsBound := by
  refine Step.perform_choice_ensures ?arm ?guard fun _ h => h
  case arm =>
    intro index prediction guard steps hArm _ middle _
    obtain ⟨alternative, hChosen, -, -, hSteps⟩ := hArms.alternative hArm
    have hElements := hHas.elements hChosen
    exact hRun.sequence activation rule hChained cursor _ steps hSteps hElements cursors middle
  case guard =>
    rintro failure ⟨arm, hMem, code, hCode, hUnbound⟩
    obtain ⟨index, hArm⟩ := List.mem_iff_getElem?.1 hMem
    obtain ⟨prediction, guard, steps⟩ := arm
    obtain ⟨alternative, hChosen, -, rfl, -⟩ := hArms.alternative hArm
    obtain ⟨fragment, hFragment, rfl⟩ := Option.map_eq_some_iff.1 hCode
    exact isBound_of_unbound
      (hChained.find?_ne_none hChecked hEntry (hHas.guard hChosen hFragment)) failure hUnbound

/-- A call does not miss an attribute. -/
theorem Grammar.enter_isBound (hRun : run.IsBound grammar entry) (hChecked : grammar.Checked)
    {frame : Frame Scope} {active : List Invocation} {number : Nat} {cursor : Cursor}
    (hRule : grammar.rules[number]? = some rule)
    (hChained : (grammar.activation frame active number rule cursor).Chained grammar entry rule)
    (walk : Walk) : (grammar.program.enter run frame active number cursor walk).Ensures AnyEnd
      Failure.IsBound := by
  refine (enter_ensures (p := AnyEnd) hRule (fun _ h => h) fun inner _ => ?_).mono
    (fun _ _ _ => trivial) fun _ h => h
  exact hRun.body _ rule hChained _ (hChecked.built hRule) _ inner

/-- A step of a rule does not miss an attribute, and neither do the steps that have to be taken
after it. -/
theorem Step.perform_isBound (hRun : run.IsBound grammar entry) (hChecked : grammar.Checked)
    (hEntry : entry ∈ grammar.rules.entries) (hChained : activation.Chained grammar entry rule)
    {cursor : CursorVariable} {expr : Expr} {step : Step}
    (hBuilt : Expr.Built (grammar.context activation.procedure) cursor expr step)
    (hHas : rule.HasElements [expr]) (cursors : Cursors) (walk : Walk) :
    (step.perform grammar.program oracle run activation cursors walk).Ensures
      (fun result _ => ∃ exprs, Alternative.Built (grammar.context activation.procedure) cursor
        exprs result.1 ∧ rule.HasElements exprs) Failure.IsBound := by
  -- most steps leave nothing to be done after them
  have hNil : ∃ exprs, Alternative.Built (grammar.context activation.procedure) cursor exprs [] ∧
      rule.HasElements exprs := ⟨[], .nil, .nil⟩
  have hBind : ∀ code ∈ expr.fragments, ∀ failure,
      AttributeAccess.Unbound activation.frame
        ((grammar.context activation.procedure).accesses code) failure → failure.IsBound :=
    fun code hCode => isBound_of_unbound
      (hChained.find?_ne_none hChecked hEntry (Rule.mem_fragments_of_hasElements hHas hCode))
  cases hBuilt with
  | node hCursor hMoved hChildren =>
    refine (Walker.expect_ensures ..).andThen fun ⟨tree, next⟩ middle _ => ?_
    refine (hRun.sequence _ rule hChained _ _ _ hChildren (Rule.hasElements_node hHas)
      _ _).andThen fun after inner _ => ?_
    exact (Walker.expectEnd_ensures ..).andThen fun _ _ _ => hNil
  | token => exact (Walker.expect_ensures ..).andThen fun _ _ _ => hNil
  | wildcard => exact (Walker.wildcard_ensures ..).andThen fun _ _ _ => hNil
  | @call _ id span label name args arguments hSource hAccesses =>
    have hArguments : ∀ failure,
        AttributeAccess.Unbound activation.frame arguments.accesses failure → failure.IsBound := by
      rw [hAccesses]
      exact isBound_of_unbound (hChained.arguments_found hChecked hEntry hHas)
    refine ((bindAttributes_ensures ..).mono (fun _ _ h => h) hArguments).andThen
      fun _ middle _ => ?_
    split
    · trivial
    · next callee hCallee =>
      rw [Grammar.findIdx?_procedures] at hCallee
      obtain ⟨called, hCalled, -⟩ := Rules.getElem?_of_index? hCallee
      have hCall := Rules.mem_callees_of_call hChained.rule (Rule.mem_calls_of_hasElements hHas)
        hCallee
      exact (Grammar.enter_isBound hRun hChecked hCalled (hChained.call hCall hCalled _)
        _).andThen fun _ _ _ => hNil
  | action =>
    have hCode := hBind _ (List.mem_singleton_self _)
    exact ((bindAttributes_ensures ..).mono (fun _ _ h => h) hCode).andThen fun _ _ _ => hNil
  | predicate =>
    have hCode := hBind _ (List.mem_singleton_self _)
    refine ((Code.test_ensures ..).mono (fun _ _ h => h) hCode).andThen fun holds _ _ => ?_
    split
    · exact hNil
    · exact fun _ => nofun
  | block hDecision hElements =>
    have hInner := (Rule.hasAlternatives_subrule hHas).elements List.getElem?_cons_zero
    exact (hRun.sequence _ rule hChained _ _ _ hElements hInner _ _).andThen fun _ _ _ => hNil
  | @choice _ id span kind alternatives decision arms hNeed hDecision hArms =>
    have hAlternatives := Rule.hasAlternatives_subrule hHas
    refine (Step.choice_isBound hRun hChecked hEntry hChained hArms hAlternatives cursors
      walk).mono ?_ fun _ h => h
    rintro ⟨again, next⟩ after (⟨-, hResult, -⟩ | ⟨inner, -, hAgain⟩)
    · obtain ⟨rfl, -⟩ := Prod.mk.inj hResult
      exact hNil
    · split at hAgain
      · obtain ⟨rfl, -⟩ := hAgain
        exact ⟨[.subrule id span .star alternatives], .cons (.again hDecision hArms span) .nil,
          Rule.hasElements_again hHas⟩
      · obtain ⟨rfl, -⟩ := hAgain
        exact hNil

/-- The steps of a sequence do not miss an attribute if those that are taken with a smaller bound do
not. -/
theorem Program.sequence_isBound {fuel : Nat}
    (ih : Runner.IsBound grammar entry (grammar.program.run oracle fuel))
    (hChecked : grammar.Checked) (hEntry : entry ∈ grammar.rules.entries)
    (hChained : activation.Chained grammar entry rule) {cursor : CursorVariable}
    {exprs : List Expr} {steps : List Step}
    (hBuilt : Alternative.Built (grammar.context activation.procedure) cursor exprs steps)
    (hHas : rule.HasElements exprs) (cursors : Cursors) (walk : Walk) :
    (grammar.program.run oracle (fuel + 1) activation steps cursors walk).Ensures AnyEnd
      Failure.IsBound := by
  cases hBuilt with
  | nil => trivial
  | @cons _ expr exprs step steps hStep hSteps =>
    have hFirst : rule.HasElements [expr] :=
      Rule.hasElements_cons.2 ⟨(Rule.hasElements_cons.1 hHas).1, .nil⟩
    refine (Step.perform_isBound ih hChecked hEntry hChained hStep hFirst cursors walk).andThen
      fun ⟨again, next⟩ after hAgain => ?_
    obtain ⟨more, hMore, hMoreHas⟩ := hAgain
    exact ih.sequence activation rule hChained cursor _ _ (hMore.append hSteps)
      (hMoreHas.append hHas.later) next after

/-- The steps of a rule do not miss an attribute, with any bound on their number. -/
theorem Program.run_isBound (hChecked : grammar.Checked) (hEntry : entry ∈ grammar.rules.entries)
    (fuel : Nat) : Runner.IsBound grammar entry (grammar.program.run oracle fuel) := by
  induction fuel with
  | zero => exact ⟨fun _ _ _ _ _ _ _ _ _ _ => trivial, fun _ _ _ _ _ _ _ => trivial⟩
  | succ fuel ih =>
    refine ⟨fun activation rule hChained cursor exprs steps hBuilt hHas => ?sequence,
      fun activation rule hChained steps hBuilt cursors walk => ?body⟩
    case sequence => exact sequence_isBound ih hChecked hEntry hChained hBuilt hHas
    case body =>
      cases hBuilt with
      | @sequence elements span _ _ hAlternatives hElements =>
        have hHas := rule.hasAlternatives_self.elements (Rule.alternatives_zero hAlternatives)
        exact sequence_isBound ih hChecked hEntry hChained hElements hHas cursors walk
      | choice hNeed hDecision hArms =>
        refine (Step.choice_isBound ih hChecked hEntry hChained hArms rule.hasAlternatives_self
          cursors walk).andThen fun ⟨again, next⟩ after hTaken => ?_
        -- the alternatives of a rule are tried once, so that nothing comes after them
        obtain ⟨rfl, -⟩ := hTaken.once
        exact ih.sequence activation rule hChained .given [] [] .nil .nil next after

/-- A walk from an entry does not miss an attribute. -/
theorem Program.walk_isBound (hChecked : grammar.Checked) (hEntry : entry ∈ grammar.rules.entries)
    (oracle : Oracle) (fuel : Nat) (walker : Walker) (tree : Tree) :
    (grammar.program.walk oracle fuel walker entry tree).Ensures AnyEnd Failure.IsBound := by
  rw [walk]
  split
  · trivial
  · obtain ⟨rule, hRule⟩ : ∃ rule, grammar.rules[entry]? = some rule :=
      ⟨_, List.getElem?_eq_getElem (Rules.lt_length_of_mem_entries hEntry)⟩
    have hStart := Activation.Chained.start hRule (.root tree)
    rw [Grammar.length_procedures]
    refine (Grammar.enter_isBound (run_isBound hChecked hEntry fuel) hChecked hRule hStart
      _).andThen fun cursor after _ => ?_
    exact (Walker.expectEnd_ensures ..).mono (fun _ _ _ => trivial) fun _ h => h

end Bound

/-- In an accepted grammar, every reference to an attribute in the code of a rule finds the frame of
the innermost rule that declares the attribute, along every chain of calls from an entry to the rule
of the reference, and this rule declares it with the type that the analysis records. Therefore no
walk from an entry fails because an attribute is not bound, whatever the tree is, whatever guards
and predicates yield, and however deep calls may be nested. -/
theorem Grammar.references_bound {source : List Char} {options : Options} {grammar : Grammar}
    (hAccepted : (analyse source options).accepted? = some grammar) {entry : Nat}
    (hEntry : entry ∈ grammar.rules.entries) :
    (∀ (rule : Nat) (callers : List Nat) (definition : Rule) (code : Fragment) (name : String),
      grammar.rules.CallChain entry (rule :: callers) →
      grammar.rules[rule]? = some definition → code ∈ definition.fragments →
      name ∈ code.attributeNames → grammar.FindsInnermost rule callers name) ∧
    ∀ (oracle : Oracle) (fuel : Nat) (walker : Walker) (tree : Tree) (name : String) (walk : Walk),
      grammar.program.walk oracle fuel walker entry tree ≠
        .failed (.unboundAttribute name) walk := by
  have hChecked := checked_of_accepted hAccepted
  refine ⟨?chains, ?walks⟩
  case chains =>
    intro rule callers definition code name hChain hRule hCode hName
    exact hChecked.findsInnermost hEntry hChain hRule hCode hName
  case walks =>
    intro oracle fuel walker tree name walk hFailed
    have hBound := Program.walk_isBound hChecked hEntry oracle fuel walker tree
    exact hBound.of_failed hFailed name rfl

namespace Sample

theorem callees_eq : rules.callGraph.callees 0 = [1] := by decide +kernel

theorem fragments_eq : callee.fragments = [code] := by decide +kernel

theorem attributeNames_eq : code.attributeNames = ["x"] := by decide +kernel

/-- In the small grammar, the reference in the rule `t` finds the attribute of the rule `s`, which
calls `t`. -/
theorem references_bound_callee :
    grammar.FindsInnermost 1 [0] "x" ∧
      grammar.program.walk (fun _ _ => true) 9 {} 0 (.leaf "a" "") ≠
        .failed (.unboundAttribute "x") {} := by
  have hEntry : 0 ∈ grammar.rules.entries := by decide
  obtain ⟨hChains, hWalks⟩ := Grammar.references_bound accepted hEntry
  have hCall : 1 ∈ grammar.rules.callGraph.callees 0 := by
    show 1 ∈ rules.callGraph.callees 0
    rw [callees_eq]
    exact List.mem_singleton_self 1
  have hCode : code ∈ callee.fragments := by rw [fragments_eq]; exact List.mem_singleton_self code
  have hName : "x" ∈ code.attributeNames := by
    rw [attributeNames_eq]
    exact List.mem_singleton_self "x"
  exact ⟨hChains 1 [0] callee code "x" (.call .start hCall) rfl hCode hName,
    hWalks _ 9 {} (.leaf "a" "") "x" {}⟩

end Sample

end TreeGrammar
