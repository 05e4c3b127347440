import TreeGrammar.Proofs.Walk.Effects

/-!
# Walks that make progress

A walk makes progress if no rule is called again before a node is consumed and if every round of a
repeated group consumes a node. Here it is about the parts of a walk for which this is easy to see:
a part settles if it comes to an end with such a history, whether it fails or not.

## Main definitions

* `Event.Progresses`, `Walk.Progresses`: calls and rounds make progress
* `Outcome.Settles`: a part of a walk has come to an end with progress

## Main results

* `Outcome.Settles.andThen`, `Outcome.Settles.exists_andThen`: parts that settle one after the other
-/

namespace TreeGrammar

/-- The call `inner`, made while the call `outer` is active, starts with fewer nodes, or it starts
with the same nodes and calls another rule. -/
def Invocation.Progresses (inner outer : Invocation) : Prop :=
  Tree.sizes inner.start.remaining < Tree.sizes outer.start.remaining ∨
    (inner.start.remaining = outer.start.remaining ∧ inner.procedure ≠ outer.procedure)

/-- Any two active calls make progress, and a round of a repeated group consumes at least one
node. -/
def Event.Progresses : Event → Prop
  | entered active => active.Pairwise Invocation.Progresses
  | repeated before after =>
    after.remaining <:+ before.remaining ∧ after.remaining ≠ before.remaining
  | _ => True

/-- All that has happened in a walk makes progress. -/
def Walk.Progresses (walk : Walk) : Prop := ∀ event ∈ walk.history, event.Progresses

namespace Walk.Progresses

variable {walk : Walk} {event : Event}

theorem record (h : walk.Progresses) (hEvent : event.Progresses) :
    (walk.record event).Progresses := by
  intro other hOther
  rcases List.mem_append.1 hOther with hBefore | hHere
  · exact h other hBefore
  · exact List.mem_singleton.1 hHere ▸ hEvent

end Walk.Progresses

/-! ### Parts that settle -/

/-- A part of a walk has come to an end, and all that has happened makes progress. -/
def Outcome.Settles {α : Type} : Outcome α → Prop
  | finished _ walk | failed _ walk => walk.Progresses
  | unfinished => False

namespace Outcome

variable {α β : Type} {a : Outcome α} {walk : Walk}

theorem Settles.ne_unfinished (h : a.Settles) : a ≠ .unfinished := by
  intro hEq
  rw [hEq] at h
  exact h

theorem Settles.progresses (h : a.Settles) (hWalk : a.walk? = some walk) : walk.Progresses := by
  cases a with
  | finished value after | failed failure after =>
    obtain rfl : after = walk := Option.some.inj hWalk
    exact h
  | unfinished => cases hWalk

/-- A part that settles and what settles after it. -/
theorem Settles.andThen {next : α → Walk → Outcome β} (h : a.Settles)
    (hNext : ∀ value walk, a = .finished value walk → walk.Progresses → (next value walk).Settles) :
    (a.andThen next).Settles := by
  cases a with
  | finished value walk => exact hNext value walk rfl h
  | failed failure walk => exact h
  | unfinished => exact absurd h id

/-- A part that settles and what settles after it with some bound. -/
theorem Settles.exists_andThen {next : Nat → α → Walk → Outcome β} (h : a.Settles)
    (hNext : ∀ value walk, a = .finished value walk → walk.Progresses →
      ∃ fuel, (next fuel value walk).Settles) : ∃ fuel, (a.andThen (next fuel)).Settles := by
  cases a with
  | finished value walk => exact hNext value walk rfl h
  | failed failure walk => exact ⟨0, h⟩
  | unfinished => exact absurd h id

theorem Settles.leave (h : a.Settles) : a.leave.Settles := by
  cases a with
  | finished value walk => exact Walk.Progresses.record h trivial
  | failed failure walk => exact Walk.Progresses.record h trivial
  | unfinished => exact h

theorem settles_ofWalker (h : walk.Progresses) (result : Except Failure α × Walker) :
    (ofWalker walk result).Settles := by
  obtain ⟨value | failure, walker⟩ := result
  · exact h
  · exact h

end Outcome

section Operations

variable {walk : Walk} (h : walk.Progresses) (oracle : Oracle) (frame : Frame Scope)
include h

theorem settles_bindAttributes (accesses : List AttributeAccess) :
    (bindAttributes frame walk accesses).Settles := by
  induction accesses with
  | nil => exact h
  | cons access accesses ih =>
    rw [bindAttributes]
    split
    · exact ih
    · exact h

theorem Code.settles_test (code : Code) : (code.test oracle frame walk).Settles := by
  refine (settles_bindAttributes h frame code.accesses).andThen fun _ after _ hAfter => ?_
  exact hAfter.record trivial

theorem Arm.settles_select (next : Option String) (arms : List Arm) :
    (Arm.select oracle frame next walk arms).Settles := by
  induction arms generalizing walk with
  | nil => exact h
  | cons arm arms ih =>
    obtain ⟨prediction, guard, steps⟩ := arm
    unfold Arm.select
    split
    · cases guard with
      | none => exact h
      | some code =>
        refine (code.settles_test h oracle frame).andThen fun holds after _ hAfter => ?_
        split
        · exact hAfter
        · exact ih hAfter
    · exact ih h

theorem Decision.settles_reject {α : Type} (decision : Decision) (rule : String) (cursor : Cursor) :
    (decision.reject rule cursor walk : Outcome α).Settles := by
  rw [Decision.reject]
  split
  · exact Outcome.settles_ofWalker h _
  · exact Outcome.settles_ofWalker h _

end Operations

end TreeGrammar
