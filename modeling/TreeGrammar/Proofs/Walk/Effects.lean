import TreeGrammar.Proofs.Walk.Execution

/-!
# Effects of steps

What can be said about the steps of a program without knowing which grammar they are built from:
what each operation of the walker yields, what evaluating code leaves in the history of a walk, and
which cursors steps move. Steps that do not fail leave the walker as they have found it, since every
procedure that is entered is left.

## Main definitions

* `Outcome.Ensures`: the outcome of a part of a walk has a property
* `Walk.Extends`: the history of a walk has grown by events of one kind
* `Step.moved`: the cursors that a step may move

## Main results

* `Arm.select_ensures`: the arm that is selected predicts the next label
* `Program.run_frame`: steps move no other cursors and leave the walker as it is
-/

namespace TreeGrammar

/-! ### Outcomes that have a property -/

namespace Outcome

variable {α β : Type} {a : Outcome α} {p q : α → Walk → Prop} {r : β → Walk → Prop}
  {e f : Failure → Prop} {next : α → Walk → Outcome β}

/-- A part of a walk has a property if it is finished, and its failure has another one if it
fails. -/
def Ensures (p : α → Walk → Prop) (e : Failure → Prop) : Outcome α → Prop
  | finished value walk => p value walk
  | failed failure _ => e failure
  | unfinished => True

theorem Ensures.mono (h : a.Ensures p e) (hFinished : ∀ value walk, p value walk → q value walk)
    (hFailed : ∀ failure, e failure → f failure) : a.Ensures q f := by
  cases a with
  | finished value walk => exact hFinished value walk h
  | failed failure walk => exact hFailed failure h
  | unfinished => trivial

/-- A part of a walk and what comes after it. -/
theorem Ensures.andThen (h : a.Ensures p e)
    (hNext : ∀ value walk, p value walk → (next value walk).Ensures r e) :
    (a.andThen next).Ensures r e := by
  cases a with
  | finished value walk => exact hNext value walk h
  | failed failure walk => exact h
  | unfinished => trivial

theorem Ensures.leave (h : a.Ensures p e) : a.leave.Ensures
    (fun value walk => ∃ inner, p value inner ∧
      walk = { inner with walker := inner.walker.exit }.record .left) e := by
  cases a with
  | finished value walk => exact ⟨walk, h, rfl⟩
  | failed failure walk => exact h
  | unfinished => trivial

theorem Ensures.and (hp : a.Ensures p e) (hq : a.Ensures q f) :
    a.Ensures (fun value walk => p value walk ∧ q value walk)
      (fun failure => e failure ∧ f failure) := by
  cases a with
  | finished value walk => exact ⟨hp, hq⟩
  | failed failure walk => exact ⟨hp, hq⟩
  | unfinished => trivial

theorem Ensures.of_finished {value : α} {walk : Walk} (h : a.Ensures p e)
    (ha : a = .finished value walk) : p value walk := by
  subst ha
  exact h

theorem Ensures.of_failed {failure : Failure} {walk : Walk} (h : a.Ensures p e)
    (ha : a = .failed failure walk) : e failure := by
  subst ha
  exact h

end Outcome

/-! ### Histories -/

/-- The history of a walk has grown by events that have a property. -/
def Walk.Extends (p : Event → Prop) (before after : Walk) : Prop :=
  ∃ events, after.history = before.history ++ events ∧ ∀ event ∈ events, p event

namespace Walk.Extends

variable {p : Event → Prop} {a b c : Walk}

theorem refl (p : Event → Prop) (a : Walk) : a.Extends p a :=
  ⟨[], (List.append_nil _).symm, nofun⟩

theorem trans (hab : a.Extends p b) (hbc : b.Extends p c) : a.Extends p c := by
  obtain ⟨xs, hb, hxs⟩ := hab
  obtain ⟨ys, hc, hys⟩ := hbc
  refine ⟨xs ++ ys, by rw [hc, hb, List.append_assoc], fun event hEvent => ?_⟩
  exact (List.mem_append.1 hEvent).elim (hxs event) (hys event)

theorem record (h : a.Extends p b) {event : Event} (hEvent : p event) :
    a.Extends p (b.record event) :=
  h.trans ⟨[event], rfl, fun _ hMem => List.mem_singleton.1 hMem ▸ hEvent⟩

end Walk.Extends

/-- Code has been evaluated. -/
def Event.IsTest (event : Event) : Prop := ∃ code holds, event = .tested code holds

/-- Nothing has happened between two states but that code has been evaluated. -/
structure Walk.Tests (before after : Walk) : Prop where
  walker : after.walker = before.walker
  events : before.Extends Event.IsTest after

namespace Walk.Tests

theorem refl (walk : Walk) : walk.Tests walk := ⟨rfl, Extends.refl _ _⟩

theorem trans {a b c : Walk} (hab : a.Tests b) (hbc : b.Tests c) : a.Tests c :=
  ⟨hbc.walker.trans hab.walker, hab.events.trans hbc.events⟩

end Walk.Tests

/-! ### Operations of the walker -/

/-- A failure that says nothing about attributes. -/
def Failure.IsBound (failure : Failure) : Prop := ∀ name, failure ≠ .unboundAttribute name

section Walker

variable (walk : Walk) (cursor : Cursor) (rule name : String)

theorem Walker.expect_ensures :
    (Outcome.ofWalker walk (walk.walker.expect cursor rule name)).Ensures
      (fun step after => after = walk ∧ step.1.label = name ∧
        cursor.remaining = step.1 :: step.2.remaining) Failure.IsBound := by
  obtain ⟨parent, index, remaining⟩ := cursor
  cases remaining with
  | nil => exact fun _ h => by cases h
  | cons tree siblings =>
    by_cases hLabel : tree.label = name
    · simp [Walker.expect, Cursor.advance?, hLabel, Outcome.ofWalker, Outcome.Ensures]
    · simp [Walker.expect, Cursor.advance?, hLabel, Outcome.ofWalker, Outcome.Ensures,
        Walker.mismatch, Walker.fail, Failure.IsBound]

theorem Walker.wildcard_ensures :
    (Outcome.ofWalker walk (walk.walker.wildcard cursor rule)).Ensures
      (fun step after => after = walk ∧ cursor.remaining = step.1 :: step.2.remaining)
      Failure.IsBound := by
  obtain ⟨parent, index, remaining⟩ := cursor
  cases remaining with
  | nil => exact fun _ h => by cases h
  | cons tree siblings => exact ⟨rfl, rfl⟩

theorem Walker.expectEnd_ensures :
    (Outcome.ofWalker walk (walk.walker.expectEnd cursor rule)).Ensures
      (fun _ after => after = walk ∧ cursor.remaining = []) Failure.IsBound := by
  obtain ⟨parent, index, remaining⟩ := cursor
  cases remaining with
  | nil => exact ⟨rfl, rfl⟩
  | cons tree siblings => exact fun _ h => by cases h

theorem Walker.enter_ensures :
    (Outcome.ofWalker walk (walk.walker.enter rule)).Ensures
      (fun _ after => after = { walk with walker.depth := walk.walker.depth + 1 })
      Failure.IsBound := by
  rw [Walker.enter]
  split
  · split
    · exact fun _ h => by cases h
    · rfl
  · rfl

theorem Decision.reject_ensures {α : Type} {p : α → Walk → Prop} (decision : Decision) :
    (decision.reject rule cursor walk).Ensures p Failure.IsBound := by
  rw [Decision.reject]
  split
  · exact fun _ h => by cases h
  · exact fun _ h => by cases h

end Walker

/-! ### Code and choices -/

/-- The failures of code that refers to some attributes: one of them is not found. -/
def AttributeAccess.Unbound (frame : Frame Scope) (accesses : List AttributeAccess)
    (failure : Failure) : Prop :=
  ∃ access ∈ accesses, access.find? frame = none ∧ failure = .unboundAttribute access.name

theorem bindAttributes_ensures (frame : Frame Scope) (walk : Walk)
    (accesses : List AttributeAccess) : (bindAttributes frame walk accesses).Ensures
      (fun _ after => after = walk) (AttributeAccess.Unbound frame accesses) := by
  induction accesses with
  | nil => rfl
  | cons access accesses ih =>
    rw [bindAttributes]
    split
    · refine ih.mono (fun _ _ h => h) fun failure h => ?_
      obtain ⟨other, hMem, hOther⟩ := h
      exact ⟨other, List.mem_cons_of_mem _ hMem, hOther⟩
    · next hNone => exact ⟨access, List.mem_cons_self, hNone, rfl⟩

theorem Code.test_ensures (oracle : Oracle) (frame : Frame Scope) (walk : Walk) (code : Code) :
    (code.test oracle frame walk).Ensures (fun _ after => walk.Tests after)
      (AttributeAccess.Unbound frame code.accesses) := by
  refine (bindAttributes_ensures frame walk code.accesses).andThen fun _ after hAfter => ?_
  subst hAfter
  exact ⟨rfl, (Walk.Extends.refl _ _).record ⟨code, _, rfl⟩⟩

namespace Arm

/-- The guard of an arm. -/
def guard : Arm → Option Code
  | mk _ guard _ => guard

/-- Steps that are chosen belong to an arm that predicts the next label. -/
def Chosen (arms : List Arm) (next : Option String) (chosen : Option (List Step)) : Prop :=
  ∀ steps ∈ chosen, ∃ (index : Nat) (prediction : LookaheadSet) (guard : Option Code),
    arms[index]? = some (mk prediction guard steps) ∧ prediction.accepts next

theorem Chosen.later {arms : List Arm} {next : Option String} {chosen : Option (List Step)}
    (h : Chosen arms next chosen) (arm : Arm) : Chosen (arm :: arms) next chosen := by
  intro steps hSteps
  obtain ⟨index, hArm⟩ := h steps hSteps
  exact ⟨index + 1, hArm⟩

/-- The failures of guards. -/
def Unbound (frame : Frame Scope) (arms : List Arm) (failure : Failure) : Prop :=
  ∃ arm ∈ arms, ∃ code ∈ arm.guard, AttributeAccess.Unbound frame code.accesses failure

theorem Unbound.later {frame : Frame Scope} {arms : List Arm} {failure : Failure}
    (h : Unbound frame arms failure) (arm : Arm) : Unbound frame (arm :: arms) failure := by
  obtain ⟨other, hMem, hOther⟩ := h
  exact ⟨other, List.mem_cons_of_mem _ hMem, hOther⟩

/-- The arm that is selected predicts the next label. -/
theorem select_ensures (oracle : Oracle) (frame : Frame Scope) (next : Option String)
    (walk : Walk) (arms : List Arm) : (select oracle frame next walk arms).Ensures
      (fun chosen after => walk.Tests after ∧ Chosen arms next chosen) (Unbound frame arms) := by
  induction arms generalizing walk with
  | nil => exact ⟨Walk.Tests.refl _, nofun⟩
  | cons arm arms ih =>
    have hLater : ∀ middle, walk.Tests middle → (select oracle frame next middle arms).Ensures
        (fun chosen after => walk.Tests after ∧ Chosen (arm :: arms) next chosen)
        (Unbound frame (arm :: arms)) := by
      intro middle hTests
      refine (ih middle).mono (fun chosen after h => ?_) fun failure h => h.later arm
      exact ⟨hTests.trans h.1, h.2.later arm⟩
    obtain ⟨prediction, guard, steps⟩ := arm
    unfold select
    split
    case isFalse => exact hLater walk (Walk.Tests.refl _)
    case isTrue hAccepts =>
      have hThis : Chosen (mk prediction guard steps :: arms) next (some steps) := by
        intro other hOther
        obtain rfl : steps = other := Option.some.inj hOther
        exact ⟨0, prediction, guard, rfl, hAccepts⟩
      cases guard with
      | none => exact ⟨Walk.Tests.refl _, hThis⟩
      | some code =>
        have hTest : (code.test oracle frame walk).Ensures (fun _ after => walk.Tests after)
            (Unbound frame (mk prediction (some code) steps :: arms)) :=
          (code.test_ensures oracle frame walk).mono (fun _ _ h => h)
            fun failure h => ⟨_, List.mem_cons_self, code, rfl, h⟩
        refine hTest.andThen fun holds after hAfter => ?_
        split
        · exact ⟨hAfter, hThis⟩
        · exact hLater after hAfter

end Arm

/-- How a choice ends: it is left without an arm, or the steps of an arm have been taken, with the
effect `p`, and the choice is tried again if it is repeated. -/
def Arm.Taken (cursor : CursorVariable) (kind : ChoiceKind) (decision : Decision)
    (arms : List Arm) (cursors : Cursors) (walk : Walk) (p : Cursors → Walk → Prop)
    (result : List Step × Cursors) (after : Walk) : Prop :=
  (kind.maySkip = true ∧ result = ([], cursors) ∧ walk.Tests after) ∨
    ∃ inner, p result.2 inner ∧
      if kind.isRepeat then result.1 = [.choice cursor .star decision arms] ∧
        after = inner.record (.repeated (cursors cursor) (result.2 cursor))
      else result.1 = [] ∧ after = inner

/-- A choice that is made once is not left, and nothing comes after its arm. -/
theorem Arm.Taken.once {cursor : CursorVariable} {decision : Decision} {arms : List Arm}
    {cursors : Cursors} {walk after : Walk} {p : Cursors → Walk → Prop}
    {result : List Step × Cursors}
    (h : Taken cursor .once decision arms cursors walk p result after) :
    result.1 = [] ∧ p result.2 after := by
  rcases h with ⟨hSkip, -⟩ | ⟨inner, hInner, hAgain, rfl⟩
  · cases hSkip
  · exact ⟨hAgain, hInner⟩

/-- A choice does what the steps of one of its arms do, if it is not left. -/
theorem Step.perform_choice_ensures {program : Program} {oracle : Oracle} {run : Runner}
    {activation : Activation} {cursors : Cursors} {walk : Walk} {cursor : CursorVariable}
    {kind : ChoiceKind} {decision : Decision} {arms : List Arm} {p : Cursors → Walk → Prop}
    {e : Failure → Prop}
    (hArm : ∀ (index : Nat) (prediction : LookaheadSet) (guard : Option Code) (steps : List Step),
      arms[index]? = some (.mk prediction guard steps) →
        prediction.accepts (cursors cursor).peekLabel? → ∀ middle, walk.Tests middle →
          (run activation steps cursors middle).Ensures p e)
    (hGuard : ∀ failure, Arm.Unbound activation.frame arms failure → e failure)
    (hBound : ∀ failure : Failure, failure.IsBound → e failure) :
    (perform program oracle run activation cursors walk
      (.choice cursor kind decision arms)).Ensures
        (Arm.Taken cursor kind decision arms cursors walk p) e := by
  refine ((Arm.select_ensures ..).mono (fun _ _ h => h) hGuard).andThen fun chosen middle h => ?_
  obtain ⟨hTests, hChosen⟩ := h
  cases chosen with
  | none =>
    dsimp only
    split
    · next hSkip => exact .inl ⟨hSkip, rfl, hTests⟩
    · exact (Decision.reject_ensures ..).mono (fun _ _ h => h) hBound
  | some steps =>
    obtain ⟨index, prediction, guard, hMem, hAccepts⟩ := hChosen steps rfl
    refine (hArm index prediction guard steps hMem hAccepts middle hTests).andThen
      fun next inner hInner => ?_
    split
    · next hRepeat => exact .inr ⟨inner, hInner, by rw [if_pos hRepeat]; exact ⟨rfl, rfl⟩⟩
    · next hRepeat => exact .inr ⟨inner, hInner, by rw [if_neg hRepeat]; exact ⟨rfl, rfl⟩⟩

/-! ### Cursors that are moved -/

mutual

/-- The cursors that a step may move. -/
def Step.moved : Step → List CursorVariable
  | .token cursor _ _ | .wildcard cursor _ | .call cursor _ _ _ => [cursor]
  | .node cursor _ _ _ children steps => cursor :: .children children :: Step.listMoved steps
  | .action _ | .predicate .. => []
  | .block steps => Step.listMoved steps
  | .choice _ _ _ arms => Arm.listMoved arms

/-- The cursors that steps may move. -/
def Step.listMoved : List Step → List CursorVariable
  | [] => []
  | step :: steps => step.moved ++ Step.listMoved steps

/-- The cursors that the steps of arms may move. -/
def Arm.listMoved : List Arm → List CursorVariable
  | [] => []
  | .mk _ _ steps :: arms => Step.listMoved steps ++ Arm.listMoved arms

end

theorem Step.listMoved_append (xs ys : List Step) :
    Step.listMoved (xs ++ ys) = Step.listMoved xs ++ Step.listMoved ys := by
  induction xs with
  | nil => rfl
  | cons x xs ih => simp only [List.cons_append, Step.listMoved, ih, List.append_assoc]

theorem Arm.listMoved_subset {arms : List Arm} {index : Nat} {prediction : LookaheadSet}
    {guard : Option Code} {steps : List Step}
    (h : arms[index]? = some (Arm.mk prediction guard steps)) :
    Step.listMoved steps ⊆ Arm.listMoved arms := by
  induction arms generalizing index with
  | nil => cases h
  | cons arm arms ih =>
    obtain ⟨prediction', guard', steps'⟩ := arm
    cases index with
    | zero =>
      obtain ⟨rfl, rfl, rfl⟩ := Arm.mk.inj (Option.some.inj h)
      exact List.subset_append_left ..
    | succ index => exact List.subset_append_of_subset_right _ (ih h)

/-- Cursors are as before, apart from some. -/
def KeepsOthers (moved : List CursorVariable) (before after : Cursors) : Prop :=
  ∀ cursor ∉ moved, after cursor = before cursor

theorem KeepsOthers.refl (moved : List CursorVariable) (cursors : Cursors) :
    KeepsOthers moved cursors cursors := fun _ _ => rfl

theorem KeepsOthers.update {moved : List CursorVariable} {before after : Cursors}
    (h : KeepsOthers moved before after) {cursor : CursorVariable} (hMem : cursor ∈ moved)
    (value : Cursor) : KeepsOthers moved before (Function.update after cursor value) := by
  intro other hOther
  have hNe : other ≠ cursor := fun hEq => hOther (hEq ▸ hMem)
  rw [Function.update_of_ne hNe]
  exact h other hOther

theorem KeepsOthers.trans {xs ys : List CursorVariable} {a b c : Cursors}
    (hab : KeepsOthers xs a b) (hbc : KeepsOthers ys b c) (h : ys ⊆ xs) : KeepsOthers xs a c :=
  fun cursor hCursor => (hbc cursor fun hMem => hCursor (h hMem)).trans (hab cursor hCursor)

/-! ### Frame conditions -/

/-- No claim about failures. -/
def AnyFailure (_ : Failure) : Prop := True

theorem Outcome.Ensures.anyFailure {α : Type} {a : Outcome α} {p : α → Walk → Prop}
    {e : Failure → Prop} (h : a.Ensures p e) : a.Ensures p AnyFailure :=
  h.mono (fun _ _ h => h) fun _ _ => trivial

/-- Steps move no cursors but their own, and leave the walker as it is. -/
def Runner.Frames (run : Runner) : Prop :=
  ∀ activation steps cursors walk, (run activation steps cursors walk).Ensures
    (fun after walk' => KeepsOthers (Step.listMoved steps) cursors after ∧
      walk'.walker = walk.walker) AnyFailure

section Frames

variable {program : Program} {oracle : Oracle} {run : Runner}

/-- A procedure that is left leaves the walker as it is. -/
theorem Program.enter_frame (h : run.Frames) (frame : Frame Scope) (active : List Invocation)
    (number : Nat) (cursor : Cursor) (walk : Walk) :
    (program.enter run frame active number cursor walk).Ensures
      (fun _ after => after.walker = walk.walker) AnyFailure := by
  rw [Program.enter]
  split
  · trivial
  · refine (Walker.enter_ensures ..).anyFailure.andThen fun _ inner hInner => ?_
    subst hInner
    refine Outcome.Ensures.mono (Outcome.Ensures.leave <| (h ..).andThen
      (r := fun _ after => after.walker = { walk.walker with depth := walk.walker.depth + 1 })
      fun _ _ hAfter => hAfter.2) (fun _ after hAfter => ?_) fun _ _ => trivial
    obtain ⟨last, hLast, rfl⟩ := hAfter
    show last.walker.exit = walk.walker
    rw [hLast]
    rfl

theorem Step.perform_frame (h : run.Frames) (activation : Activation) (step : Step)
    (cursors : Cursors) (walk : Walk) :
    (step.perform program oracle run activation cursors walk).Ensures
      (fun result after => (KeepsOthers step.moved cursors result.2 ∧
        Step.listMoved result.1 ⊆ step.moved) ∧ after.walker = walk.walker) AnyFailure := by
  have hNil : ∀ moved, Step.listMoved [] ⊆ moved := fun moved => List.nil_subset moved
  -- a step moves the cursors that it names, and those of the steps inside of it
  cases step with
  | token cursor label name =>
    refine (Walker.expect_ensures ..).anyFailure.andThen fun ⟨tree, next⟩ after hAfter => ?_
    obtain ⟨rfl, -⟩ := hAfter
    exact ⟨⟨(KeepsOthers.refl _ cursors).update List.mem_cons_self next, hNil _⟩, rfl⟩
  | wildcard cursor label =>
    refine (Walker.wildcard_ensures ..).anyFailure.andThen fun ⟨tree, next⟩ after hAfter => ?_
    obtain ⟨rfl, -⟩ := hAfter
    exact ⟨⟨(KeepsOthers.refl _ cursors).update List.mem_cons_self next, hNil _⟩, rfl⟩
  | node cursor label name node children steps =>
    refine (Walker.expect_ensures ..).anyFailure.andThen fun ⟨tree, next⟩ middle hMiddle => ?_
    obtain ⟨rfl, -⟩ := hMiddle
    refine (h ..).andThen fun after inner hInner => ?_
    refine (Walker.expectEnd_ensures ..).anyFailure.andThen fun _ last hLast => ?_
    obtain ⟨rfl, -⟩ := hLast
    have hOuter := (KeepsOthers.refl (cursor :: .children children :: Step.listMoved steps)
      cursors).update List.mem_cons_self next
    have hChildren := hOuter.update (List.mem_cons_of_mem _ List.mem_cons_self) (.children tree)
    refine ⟨⟨hChildren.trans hInner.1 fun _ hMem => ?_, hNil _⟩, hInner.2⟩
    exact List.mem_cons_of_mem _ (List.mem_cons_of_mem _ hMem)
  | call cursor label rule arguments =>
    refine (bindAttributes_ensures ..).anyFailure.andThen fun _ middle hMiddle => ?_
    subst hMiddle
    split
    · trivial
    · refine (Program.enter_frame h ..).andThen fun next after hAfter => ⟨⟨?_, hNil _⟩, hAfter⟩
      exact (KeepsOthers.refl _ cursors).update List.mem_cons_self next
  | action code =>
    refine (bindAttributes_ensures ..).anyFailure.andThen fun _ after hAfter => ?_
    subst hAfter
    exact ⟨⟨KeepsOthers.refl _ _, hNil _⟩, rfl⟩
  | predicate cursor code text =>
    refine (Code.test_ensures ..).anyFailure.andThen fun holds after hAfter => ?_
    split
    · exact ⟨⟨KeepsOthers.refl _ _, hNil _⟩, hAfter.walker⟩
    · exact trivial
  | block steps =>
    exact (h ..).andThen fun after inner hInner => ⟨⟨hInner.1, hNil _⟩, hInner.2⟩
  | choice cursor kind decision arms =>
    refine (Step.perform_choice_ensures (e := AnyFailure)
      (p := fun after inner => KeepsOthers (Arm.listMoved arms) cursors after ∧
        inner.walker = walk.walker) ?_ (fun _ _ => trivial) fun _ _ => trivial).mono ?_ fun _ h => h
    · intro index prediction guard steps hArm _ middle hTests
      refine (h activation steps cursors middle).mono (fun after inner hInner => ?_) fun _ h => h
      exact ⟨(KeepsOthers.refl _ _).trans hInner.1 (Arm.listMoved_subset hArm),
        hInner.2.trans hTests.walker⟩
    · rintro result after (⟨-, rfl, hTests⟩ | ⟨inner, hInner, hAgain⟩)
      · exact ⟨⟨KeepsOthers.refl _ _, hNil _⟩, hTests.walker⟩
      · split at hAgain
        · obtain ⟨hAgain, rfl⟩ := hAgain
          refine ⟨⟨hInner.1, ?_⟩, hInner.2⟩
          simp [hAgain, Step.listMoved, Step.moved]
        · obtain ⟨hAgain, rfl⟩ := hAgain
          exact ⟨⟨hInner.1, hAgain ▸ hNil _⟩, hInner.2⟩

/-- Steps move no cursors but their own, and leave the walker as it is. -/
theorem Program.run_frame (fuel : Nat) : Runner.Frames (program.run oracle fuel) := by
  induction fuel with
  | zero => exact fun _ _ _ _ => trivial
  | succ fuel ih =>
    intro activation steps cursors walk
    cases steps with
    | nil => exact ⟨KeepsOthers.refl _ _, rfl⟩
    | cons step steps =>
      refine (Step.perform_frame ih ..).andThen fun ⟨again, middle⟩ inner hStep => ?_
      obtain ⟨⟨hKeeps, hAgain⟩, hInner⟩ := hStep
      refine (ih ..).mono (fun after last hLater => ?_) fun _ h => h
      have hOuter : KeepsOthers (Step.listMoved (step :: steps)) cursors middle :=
        fun other hOther => hKeeps other fun hMem => hOther (List.mem_append_left _ hMem)
      refine ⟨hOuter.trans hLater.1 ?_, hLater.2.trans hInner⟩
      rw [Step.listMoved_append]
      exact List.append_subset.2 ⟨List.subset_append_of_subset_left _ hAgain,
        List.subset_append_right ..⟩

/-- No steps change nothing. -/
theorem Program.run_nil_ensures (fuel : Nat) (activation : Activation) (cursors : Cursors)
    (walk : Walk) : (program.run oracle fuel activation [] cursors walk).Ensures
      (fun after last => after = cursors ∧ last = walk) AnyFailure := by
  cases fuel with
  | zero => trivial
  | succ fuel => exact ⟨rfl, rfl⟩

end Frames

end TreeGrammar
