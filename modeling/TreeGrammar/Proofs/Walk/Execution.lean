import Mathlib.Logic.Function.Basic
import TreeGrammar.Program.Build
import TreeGrammar.Walk.Frame
import TreeGrammar.Walk.Walker

/-!
# Walks of a program

What the procedures of a program do on a tree. A procedure works on the cursors of its variables, on
the frames of its callers and on the walker that all procedures share. Code is not run here: what
guards and predicates yield is given from outside, and whatever is of interest about a walk is
recorded in its history. So it is assumed of the code in a grammar that it comes to its end and that
the walk goes on behind it: guards, predicates, actions and arguments do not leave the procedure
around them by `return`, `?`, `break` or `continue`, and they touch neither the walker nor the
cursors. The initial values of attributes and return values are not evaluated either; nothing is
assumed of the values that attributes have. A bound on the number of nested and successive steps makes the definition
a function; an outcome that is reached does not depend on it.

## Main definitions

* `Walk`: the state that a walk carries through all procedures
* `Outcome`: how a part of a walk ends
* `Step.perform`, `Program.enter`: the effects of a step and of a call
* `Program.run`, `Program.walk`: the effects of steps, and of a whole walk

## Main results

* `Program.run_mono`, `Program.walk_mono`: an outcome does not change with a larger bound
-/

namespace TreeGrammar

/-! ### The state of a walk -/

/-- An active call: the number of the procedure and the cursor with which it has started. -/
structure Invocation where
  procedure : Nat
  start : Cursor

/-- What is recorded about a walk. -/
inductive Event where
  /-- A node is passed. -/
  | passed (node : Tree)
  /-- A procedure is entered; the active calls, this one first. -/
  | entered (active : List Invocation)
  /-- A procedure is left. -/
  | left
  /-- An action is run. -/
  | ran (code : Code)
  /-- A guard or a predicate is evaluated. -/
  | tested (code : Code) (holds : Bool)
  /-- A round of a repeated group is completed between two places. -/
  | repeated (before after : Cursor)

/-- The state that a walk carries through all procedures. -/
structure Walk where
  walker : Walker := {}
  /-- What has happened, the last event at the end. -/
  history : List Event := []

/-- The state after one more event. -/
def Walk.record (walk : Walk) (event : Event) : Walk :=
  { walk with history := walk.history ++ [event] }

/-- What guards and predicates yield, which may depend on all that has happened. -/
abbrev Oracle := List Event → Code → Bool

/-- The scope of a frame: the variant that it belongs to, the number of the procedure that has
pushed it, and the number of calls that are active then. -/
structure Scope where
  variant : String
  procedure : Nat
  level : Nat
  deriving DecidableEq, Repr

/-- The scope at the bottom of the frames. It belongs to no procedure. -/
def rootScope (procedures : Nat) : Scope := ⟨rootVariant, procedures, 0⟩

/-- How a part of a walk ends. -/
inductive Outcome (α : Type) where
  | finished (value : α) (walk : Walk)
  | failed (failure : Failure) (walk : Walk)
  /-- The bound is met. -/
  | unfinished

namespace Outcome

variable {α β : Type}

/-- A part of a walk and what comes after it if it does not fail. -/
def andThen (outcome : Outcome α) (next : α → Walk → Outcome β) : Outcome β :=
  match outcome with
  | finished value walk => next value walk
  | failed failure walk => failed failure walk
  | unfinished => unfinished

/-- The outcome of an operation of the walker. -/
def ofWalker (walk : Walk) : Except Failure α × Walker → Outcome α
  | (.ok value, walker) => finished value { walk with walker }
  | (.error failure, walker) => failed failure { walk with walker }

/-- The outcome after the walker has left a procedure. -/
def leave : Outcome α → Outcome α
  | finished value walk => finished value ({ walk with walker := walk.walker.exit }.record .left)
  | failed failure walk => failed failure ({ walk with walker := walk.walker.exit }.record .left)
  | unfinished => unfinished

/-- The state at the end of a part of a walk. -/
def walk? : Outcome α → Option Walk
  | finished _ walk | failed _ walk => some walk
  | unfinished => none

end Outcome

/-! ### Code -/

/-- The scope of the innermost frame in which an attribute is found. -/
def AttributeAccess.find? (access : AttributeAccess) (frame : Frame Scope) : Option Scope :=
  frame.attribute? fun scope => if scope.variant ∈ access.variants then some scope else none

/-- Attributes are borrowed one after the other. -/
def bindAttributes (frame : Frame Scope) (walk : Walk) : List AttributeAccess → Outcome Unit
  | [] => .finished () walk
  | access :: accesses =>
    match access.find? frame with
    | some _ => bindAttributes frame walk accesses
    | none => .failed (.unboundAttribute access.name) walk

/-- A guard or a predicate is evaluated. -/
def Code.test (oracle : Oracle) (frame : Frame Scope) (walk : Walk) (code : Code) : Outcome Bool :=
  (bindAttributes frame walk code.accesses).andThen fun _ walk =>
    let holds := oracle walk.history code
    .finished holds (walk.record (.tested code holds))

/-! ### Choices -/

/-- The steps of the first arm that predicts the next label and whose guard holds. -/
def Arm.select (oracle : Oracle) (frame : Frame Scope) (next : Option String) (walk : Walk) :
    List Arm → Outcome (Option (List Step))
  | [] => .finished none walk
  | .mk prediction guard steps :: arms =>
    if prediction.accepts next then
      match guard with
      | none => .finished (some steps) walk
      | some code => (code.test oracle frame walk).andThen fun holds walk =>
          if holds then .finished (some steps) walk else select oracle frame next walk arms
    else select oracle frame next walk arms

namespace ChoiceKind

/-- Arms are taken several times. -/
def isRepeat : ChoiceKind → Bool
  | star | plus _ => true
  | once | optional => false

/-- The choice may be left without an arm. -/
def maySkip : ChoiceKind → Bool
  | optional | star => true
  | once | plus _ => false

end ChoiceKind

/-- The failure of a procedure at a decision at which no arm fits. -/
def Decision.reject {α : Type} (decision : Decision) (rule : String) (cursor : Cursor)
    (walk : Walk) : Outcome α :=
  if decision.hasGuards && decision.viable.accepts cursor.peekLabel? then
    .ofWalker walk (walk.walker.noViableAlternative cursor rule decision.id)
  else .ofWalker walk (walk.walker.mismatch cursor rule decision.viable.expected)

/-! ### Steps -/

/-- What does not change while the steps of a procedure are taken. -/
structure Activation where
  /-- The number of the procedure. -/
  procedure : Nat
  name : String
  frame : Frame Scope
  /-- The active calls, that of the procedure first. -/
  active : List Invocation

/-- The cursors of the variables of a procedure. -/
abbrev Cursors := CursorVariable → Cursor

/-- A way to take steps. -/
abbrev Runner := Activation → List Step → Cursors → Walk → Outcome Cursors

/-- The call of a procedure: what it does between entering and leaving it. -/
def Program.enter (program : Program) (run : Runner) (frame : Frame Scope)
    (active : List Invocation) (number : Nat) (cursor : Cursor) (walk : Walk) : Outcome Cursor :=
  match program.procedures[number]? with
  | none => .unfinished
  | some procedure =>
    (Outcome.ofWalker walk (walk.walker.enter procedure.name)).andThen fun _ walk =>
      let active := ⟨number, cursor⟩ :: active
      let frame := match procedure.variant with
        | some variant => .push ⟨variant, number, active.length⟩ frame
        | none => frame
      ((run ⟨number, procedure.name, frame, active⟩ procedure.steps (fun _ => cursor)
        (walk.record (.entered active))).andThen fun cursors walk =>
          .finished (cursors .given) walk).leave

/-- The effect of a step, where the steps inside it are taken by `run`. It yields the cursors, and
the steps that have to be taken before the later ones: a repeated group is tried once more after
each round, and from the second time on it may be left. -/
def Step.perform (program : Program) (oracle : Oracle) (run : Runner) (activation : Activation)
    (cursors : Cursors) (walk : Walk) : Step → Outcome (List Step × Cursors)
  | .token cursor _ name =>
    (Outcome.ofWalker walk (walk.walker.expect (cursors cursor) activation.name name)).andThen
      fun (tree, next) walk =>
        .finished ([], Function.update cursors cursor next) (walk.record (.passed tree))
  | .wildcard cursor _ =>
    (Outcome.ofWalker walk (walk.walker.wildcard (cursors cursor) activation.name)).andThen
      fun (tree, next) walk =>
        .finished ([], Function.update cursors cursor next) (walk.record (.passed tree))
  | .node cursor _ name _ children steps =>
    (Outcome.ofWalker walk (walk.walker.expect (cursors cursor) activation.name name)).andThen
      fun (tree, next) walk =>
        (run activation steps
          (Function.update (Function.update cursors cursor next) (.children children)
            (.children tree)) (walk.record (.passed tree))).andThen fun cursors walk =>
          (Outcome.ofWalker walk (walk.walker.expectEnd (cursors (.children children))
            activation.name)).andThen fun _ walk => .finished ([], cursors) walk
  | .call cursor _ rule arguments =>
    (bindAttributes activation.frame walk arguments.accesses).andThen fun _ walk =>
      match program.procedures.findIdx? (·.name = rule) with
      | none => .unfinished
      | some number =>
        (program.enter run activation.frame activation.active number (cursors cursor)
          walk).andThen fun next walk => .finished ([], Function.update cursors cursor next) walk
  | .action code =>
    (bindAttributes activation.frame walk code.accesses).andThen fun _ walk =>
      .finished ([], cursors) (walk.record (.ran code))
  | .predicate cursor code text =>
    (code.test oracle activation.frame walk).andThen fun holds walk =>
      if holds then .finished ([], cursors) walk
      else .ofWalker walk (walk.walker.failedPredicate (cursors cursor) activation.name text)
  | .block steps =>
    (run activation steps cursors walk).andThen fun cursors walk => .finished ([], cursors) walk
  | .choice cursor kind decision arms =>
    (Arm.select oracle activation.frame (cursors cursor).peekLabel? walk arms).andThen
      fun chosen walk =>
        match chosen with
        | some steps =>
          (run activation steps cursors walk).andThen fun next walk =>
            if kind.isRepeat then
              .finished ([.choice cursor .star decision arms], next)
                (walk.record (.repeated (cursors cursor) (next cursor)))
            else .finished ([], next) walk
        | none =>
          if kind.maySkip then .finished ([], cursors) walk
          else decision.reject activation.name (cursors cursor) walk

namespace Program

/-- The effect of steps that are taken one after the other, with a bound on their number and on the
depth of their nesting. -/
def run (program : Program) (oracle : Oracle) : Nat → Runner
  | 0, _, _, _, _ => .unfinished
  | _ + 1, _, [], cursors, walk => .finished cursors walk
  | fuel + 1, activation, step :: steps, cursors, walk =>
    (step.perform program oracle (program.run oracle fuel) activation cursors walk).andThen
      fun (again, cursors) walk => program.run oracle fuel activation (again ++ steps) cursors walk

/-- The walk over a tree with the procedure of the given number, which has to match the whole
tree. -/
def walk (program : Program) (oracle : Oracle) (fuel : Nat) (walker : Walker) (number : Nat)
    (tree : Tree) : Outcome Unit :=
  match program.procedures[number]? with
  | none => .unfinished
  | some procedure =>
    (program.enter (program.run oracle fuel) (.root (rootScope program.procedures.length)) []
      number (.root tree) { walker }).andThen fun cursor walk =>
        .ofWalker walk (walk.walker.expectEnd cursor procedure.name)

end Program

/-! ### The bound -/

namespace Outcome

variable {α β : Type} {a b : Outcome α} {f g : α → Walk → Outcome β}

/-- An outcome is that of a run with a larger bound, unless its own bound is met. -/
def Approximates (a b : Outcome α) : Prop := a = unfinished ∨ a = b

theorem Approximates.refl (a : Outcome α) : a.Approximates a := .inr rfl

theorem Approximates.eq (h : a.Approximates b) (ha : a ≠ unfinished) : b = a :=
  (h.resolve_left ha).symm

theorem Approximates.andThen (h : a.Approximates b)
    (hNext : ∀ value walk, (f value walk).Approximates (g value walk)) :
    (a.andThen f).Approximates (b.andThen g) := by
  rcases h with rfl | rfl
  · exact .inl rfl
  · cases a with
    | finished value walk => exact hNext value walk
    | failed failure walk => exact .refl _
    | unfinished => exact .refl _

theorem Approximates.leave (h : a.Approximates b) : a.leave.Approximates b.leave := by
  rcases h with rfl | rfl
  · exact .inl rfl
  · exact .refl _

end Outcome

/-- One way to take steps does what another one does, unless its bound is met. -/
def Runner.Approximates (run run' : Runner) : Prop :=
  ∀ activation steps cursors walk,
    (run activation steps cursors walk).Approximates (run' activation steps cursors walk)

section Bound

variable {program : Program} {oracle : Oracle} {run run' : Runner}

theorem Program.enter_approximates (h : run.Approximates run') (frame : Frame Scope)
    (active : List Invocation) (number : Nat) (cursor : Cursor) (walk : Walk) :
    (program.enter run frame active number cursor walk).Approximates
      (program.enter run' frame active number cursor walk) := by
  rw [Program.enter, Program.enter]
  cases program.procedures[number]? with
  | none => exact .refl _
  | some procedure =>
    refine Outcome.Approximates.andThen (.refl _) fun _ walk => Outcome.Approximates.leave ?_
    exact (h ..).andThen fun _ _ => .refl _

theorem Step.perform_approximates (h : run.Approximates run') (activation : Activation)
    (step : Step) (cursors : Cursors) (walk : Walk) :
    (step.perform program oracle run activation cursors walk).Approximates
      (step.perform program oracle run' activation cursors walk) := by
  cases step with
  | token | wildcard | action | predicate => exact .refl _
  | block steps => exact (h ..).andThen fun _ _ => .refl _
  | node cursor label name node children steps =>
    refine Outcome.Approximates.andThen (.refl _) fun _ walk => ?_
    exact (h ..).andThen fun _ _ => .refl _
  | call cursor label rule arguments =>
    refine Outcome.Approximates.andThen (.refl _) fun _ walk => ?_
    cases program.procedures.findIdx? (·.name = rule) with
    | none => exact .refl _
    | some number => exact (Program.enter_approximates h ..).andThen fun _ _ => .refl _
  | choice cursor kind decision arms =>
    refine Outcome.Approximates.andThen (.refl _) fun chosen walk => ?_
    cases chosen with
    | none => exact .refl _
    | some steps => exact (h ..).andThen fun _ _ => .refl _

namespace Program

theorem run_approximates_succ (fuel : Nat) :
    Runner.Approximates (program.run oracle fuel) (program.run oracle (fuel + 1)) := by
  induction fuel with
  | zero => exact fun _ _ _ _ => .inl rfl
  | succ fuel ih =>
    intro activation steps cursors walk
    cases steps with
    | nil => exact .refl _
    | cons step steps =>
      exact (Step.perform_approximates ih ..).andThen fun _ _ => ih ..

/-- An outcome of steps does not change with a larger bound. -/
theorem run_mono {fuel fuel' : Nat} (hLe : fuel ≤ fuel') (activation : Activation)
    (steps : List Step) (cursors : Cursors) (walk : Walk)
    (h : program.run oracle fuel activation steps cursors walk ≠ .unfinished) :
    program.run oracle fuel' activation steps cursors walk =
      program.run oracle fuel activation steps cursors walk := by
  induction hLe with
  | refl => rfl
  | @step fuel' hLe ih =>
    have hStep : (program.run oracle fuel' activation steps cursors walk).Approximates
        (program.run oracle (fuel' + 1) activation steps cursors walk) :=
      run_approximates_succ fuel' activation steps cursors walk
    rw [← ih]
    exact hStep.eq (ih ▸ h)

theorem run_approximates {fuel fuel' : Nat} (hLe : fuel ≤ fuel') :
    Runner.Approximates (program.run oracle fuel) (program.run oracle fuel') := by
  intro activation steps cursors walk
  by_cases h : program.run oracle fuel activation steps cursors walk = .unfinished
  · exact .inl h
  · exact .inr (run_mono hLe activation steps cursors walk h).symm

/-- The outcome of steps is that of the later ones if the first one is finished. -/
theorem run_cons_of_finished {fuel fuel' : Nat} {activation : Activation} {step : Step}
    {steps again : List Step} {cursors middle : Cursors} {walk inner : Walk}
    (hStep : step.perform program oracle (program.run oracle fuel) activation cursors walk =
      .finished (again, middle) inner)
    (hLater : program.run oracle fuel' activation (again ++ steps) middle inner ≠ .unfinished) :
    program.run oracle (max fuel fuel' + 1) activation (step :: steps) cursors walk =
      program.run oracle fuel' activation (again ++ steps) middle inner := by
  -- both parts do the same with the larger one of their bounds
  have hStepMax := (Step.perform_approximates (run_approximates (Nat.le_max_left fuel fuel'))
    activation step cursors walk).eq (by rw [hStep]; exact nofun)
  rw [run, hStepMax, hStep]
  exact run_mono (Nat.le_max_right fuel fuel') activation (again ++ steps) middle inner hLater

/-- The outcome of a walk does not change with a larger bound. -/
theorem walk_mono {fuel fuel' : Nat} (hLe : fuel ≤ fuel') (walker : Walker) (number : Nat)
    (tree : Tree) (h : program.walk oracle fuel walker number tree ≠ .unfinished) :
    program.walk oracle fuel' walker number tree = program.walk oracle fuel walker number tree := by
  have hApproximates : (program.walk oracle fuel walker number tree).Approximates
      (program.walk oracle fuel' walker number tree) := by
    rw [walk, walk]
    cases program.procedures[number]? with
    | none => exact .refl _
    | some procedure =>
      exact (enter_approximates (run_approximates hLe) ..).andThen fun _ _ => .refl _
  exact hApproximates.eq h

end Program

end Bound

end TreeGrammar
