import TreeGrammar.Walk.Failure

/-!
# Invocation frames

A walk owns a chain of frames. A procedure that declares attributes pushes a frame onto the chain
of its caller and works on the longer chain, so that the frame is gone when it returns. An attribute
belongs to the nearest frame that holds it.

## Main definitions

* `Frame`: a chain of frames, the innermost one first, each with a scope
* `Frame.attribute?`: the value of an attribute
* `Frame.update?`: the chain after an assignment to an attribute
-/

namespace TreeGrammar

/-- A chain of frames, seen from its innermost frame. -/
inductive Frame (σ : Type) where
  /-- The bottom of a chain. -/
  | root (scope : σ)
  /-- A frame pushed onto the chain of its caller. -/
  | push (scope : σ) (caller : Frame σ)

namespace Frame

variable {σ τ : Type}

/-- The scope of the innermost frame. -/
def scope : Frame σ → σ
  | root scope => scope
  | push scope _ => scope

/-- The chain without its innermost frame, none at the bottom. -/
def parent? : Frame σ → Option (Frame σ)
  | root _ => none
  | push _ caller => some caller

/-- The number of frames above the bottom. -/
def depth : Frame σ → Nat
  | root _ => 0
  | push _ caller => caller.depth + 1

/-- The scopes of the frames, from the innermost one to the bottom. -/
def scopes : Frame σ → List σ
  | root scope => [scope]
  | push scope caller => scope :: caller.scopes

/-- The value that `project` finds in the nearest frame that has one. -/
def attribute? (frame : Frame σ) (project : σ → Option τ) : Option τ :=
  frame.scopes.findSome? project

/-- The chain after an assignment: `assign` is tried from the innermost frame on and changes the
first scope on which it succeeds. None if it fails on every scope. -/
def update? (assign : σ → Option σ) : Frame σ → Option (Frame σ)
  | root scope => (assign scope).map root
  | push scope caller =>
    match assign scope with
    | some scope => some (push scope caller)
    | none => (caller.update? assign).map (push scope)

end Frame

end TreeGrammar
