import TreeGrammar.Grammar.LoopParser

/-!
# Steps of the parser with loops

The parser with loops is put together from steps that may be cut off, the parser from attempts that
carry the evidence that they consume something. What a step and an attempt come to is compared here
for single steps, for steps one after the other, and for choices between steps.

## Main definitions

* `LoopParser.Agrees`: a step comes to the same as an attempt

## Main results

* `LoopParser.Agrees.bind`, `LoopParser.Agrees.of_bind`: steps one after the other
* `LoopParser.onward_bind`, `LoopParser.ahead_bind`, `LoopParser.found_bind`: a single step before
  others
-/

namespace TreeGrammar

namespace LoopParser

variable {source : List Char} {bound : Nat} {α β ρ τ : Type}

/-! ### Steps that agree -/

/-- What a step of the parser has come to, if its result is read in some way. -/
def outcome (read : ρ → α × ReadState source bound) :
    Attempt source bound ρ → Except SyntaxError α × ReadState source bound
  | .ok result => (.ok (read result).1, (read result).2)
  | .error (error, next) => (.error error, next)

/-- A step is not cut off, and comes to the same as a step of the parser. -/
def Agrees (x : Step source bound α) (state : ReadState source bound)
    (attempt : Attempt source bound ρ) (read : ρ → α × ReadState source bound) : Prop :=
  x state = some (outcome read attempt)

/-- The value and the state that a step has led to. -/
def readOnward {state : ReadState source bound} (result : Onward state α) :
    α × ReadState source bound :=
  (result.value, result.state)

@[inherit_doc readOnward]
def readAhead {state : ReadState source bound} (result : Ahead state α) :
    α × ReadState source bound :=
  (result.value, result.state)

theorem bind_apply (x : Step source bound α) (f : α → Step source bound β)
    (state : ReadState source bound) : (x >>= f) state = (x state).bind fun
      | (.ok value, next) => f value next
      | (.error error, next) => some (.error error, next) := by
  -- the state passes through the layers of the monad unchanged
  show (x state).bind (fun result => ExceptT.bindCont f result.1 result.2) = _
  congr 1
  funext ⟨result, next⟩
  cases result with
  | ok value => rfl
  | error error => rfl

section Agrees

variable {γ : Type} {x : Step source bound α} {f : α → Step source bound β}
  {g : β → Step source bound γ} {state : ReadState source bound} {attempt : Attempt source bound ρ}
  {read : ρ → α × ReadState source bound}

theorem Agrees.bind {next : ρ → Attempt source bound τ} {read' : τ → β × ReadState source bound}
    (h : Agrees x state attempt read)
    (hNext : ∀ result, Agrees (f (read result).1) (read result).2 (next result) read') :
    Agrees (x >>= f) state (attempt >>= next) read' := by
  rw [Agrees, bind_apply, h]
  cases attempt with
  | ok result => exact hNext result
  | error failure => rfl

theorem Agrees.assoc {read : ρ → γ × ReadState source bound}
    (h : Agrees (x >>= fun value => f value >>= g) state attempt read) :
    Agrees (x >>= f >>= g) state attempt read := by
  rwa [bind_assoc]

/-- What is done with a result afterwards is seen in it. -/
theorem Agrees.of_bind {next : ρ → Attempt source bound τ} {read' : τ → α × ReadState source bound}
    (h : Agrees x state attempt read)
    (hNext : ∀ result, ∃ other, next result = .ok other ∧ read' other = read result) :
    Agrees x state (attempt >>= next) read' := by
  rw [Agrees, h]
  cases attempt with
  | error failure => rfl
  | ok result =>
    obtain ⟨other, hOther, hRead⟩ := hNext result
    show some (Except.ok (read result).1, (read result).2) = some (outcome read' (next result))
    rw [hOther, ← hRead]
    rfl

/-- The attempt may be taken apart on its own. -/
theorem Agrees.of_eq (h : ∀ other, attempt = other → Agrees x state other read) :
    Agrees x state attempt read :=
  h attempt rfl

theorem Agrees.pure {result : ρ} {value : α} (h : read result = (value, state)) :
    Agrees (Pure.pure value) state (.ok result) read := by
  show some (Except.ok value, state) = some (.ok (read result).1, (read result).2)
  rw [h]

theorem Agrees.ite {c : Prop} [Decidable c] {y : Step source bound α}
    {other : Attempt source bound ρ} (hThen : c → Agrees x state attempt read)
    (hElse : ¬ c → Agrees y state other read) :
    Agrees (if c then x else y) state (if c then attempt else other) read := by
  by_cases hc : c
  · rw [if_pos hc, if_pos hc]
    exact hThen hc
  · rw [if_neg hc, if_neg hc]
    exact hElse hc

theorem Agrees.ite_bind {c : Prop} [Decidable c] {y : Step source bound α}
    {read : ρ → β × ReadState source bound} {other : Attempt source bound ρ}
    (hThen : c → Agrees (x >>= f) state attempt read)
    (hElse : ¬ c → Agrees (y >>= f) state other read) :
    Agrees ((if c then x else y) >>= f) state (if c then attempt else other) read := by
  have hBind : (if c then x else y) >>= f = if c then x >>= f else y >>= f := by
    split <;> rfl
  rw [hBind]
  exact .ite hThen hElse

end Agrees

/-! ### Single steps -/

section Steps

variable {state : ReadState source bound}

section Onward

variable {step : (state : ReadState source bound) → Attempt source bound (Onward state α)}
  {f : α → Step source bound β} {k : Onward state α → Attempt source bound τ}

theorem onward_agrees
    (step : (state : ReadState source bound) → Attempt source bound (Onward state α)) :
    Agrees (onward step) state (step state) readOnward := by
  rw [Agrees, onward]
  cases step state with
  | ok result => rfl
  | error failure => rfl

theorem onward_bind_of_ok {value : α} {next : ReadState source bound} {le}
    (h : step state = .ok ⟨value, next, le⟩) : (onward step >>= f) state = f value next := by
  rw [bind_apply, onward, h]
  rfl

theorem onward_bind_eq {read : τ → β × ReadState source bound}
    (h : ∀ value next le, step state = .ok ⟨value, next, le⟩ →
      Agrees (f value) next (k ⟨value, next, le⟩) read) :
    Agrees (onward step >>= f) state (step state >>= k) read := by
  cases hStep : step state with
  | ok result => exact (onward_bind_of_ok hStep).trans (h _ _ _ hStep)
  | error failure =>
    rw [Agrees, bind_apply, onward, hStep]
    rfl

theorem onward_bind {read : τ → β × ReadState source bound}
    (h : ∀ value next le, Agrees (f value) next (k ⟨value, next, le⟩) read) :
    Agrees (onward step >>= f) state (step state >>= k) read :=
  onward_bind_eq fun value next le _ => h value next le

end Onward

section Ahead

variable {step : (state : ReadState source bound) → Attempt source bound (Ahead state α)}
  {f : α → Step source bound β} {k : Ahead state α → Attempt source bound τ}

theorem ahead_agrees
    (step : (state : ReadState source bound) → Attempt source bound (Ahead state α)) :
    Agrees (ahead step) state (step state) readAhead := by
  rw [Agrees, ahead]
  cases step state with
  | ok result => rfl
  | error failure => rfl

theorem ahead_bind {read : τ → β × ReadState source bound}
    (h : ∀ value next lt, Agrees (f value) next (k ⟨value, next, lt⟩) read) :
    Agrees (ahead step >>= f) state (step state >>= k) read :=
  (ahead_agrees step).bind fun result => h result.value result.state result.lt

end Ahead

section Found

variable {step : (state : ReadState source bound) → Attempt source bound (Found state α)}
  {f : Option α → Step source bound β} {k : Found state α → Attempt source bound τ}

theorem found_bind {read : τ → β × ReadState source bound}
    (hYes : ∀ value next lt, Agrees (f (some value)) next (k (.yes value next lt)) read)
    (hNo : ∀ next le, Agrees (f none) next (k (.no next le)) read) :
    Agrees (found step >>= f) state (step state >>= k) read := by
  rw [Agrees, bind_apply, found]
  cases step state with
  | error failure => rfl
  | ok result =>
    cases result with
    | yes value next lt => exact hYes value next lt
    | no next le => exact hNo next le

end Found

section Silent

variable {attempt : Attempt source bound τ} {read : τ → β × ReadState source bound}

theorem inspect_bind {what : ReadState source bound → α} {f : α → Step source bound β}
    (h : Agrees (f (what state)) state attempt read) :
    Agrees (inspect what >>= f) state attempt read := h

theorem inspect_bind_of_eq {what : ReadState source bound → α} {f : α → Step source bound β}
    {value : α} (hValue : what state = value) (h : Agrees (f value) state attempt read) :
    Agrees (inspect what >>= f) state attempt read := by
  subst hValue
  exact h

theorem bump_bind {f : Unit → Step source bound β}
    (h : Agrees (f ()) (state.drop 1) attempt read) : Agrees (bump >>= f) state attempt read := h

theorem update_bind {change : SourceGrammar → SourceGrammar} {f : Unit → Step source bound β}
    (h : Agrees (f ()) (state.update change) attempt read) :
    Agrees (update change >>= f) state attempt read := h

theorem finish_bind {label : Option Ident} {build : Nat → Expr} {f : Expr → Step source bound β}
    (h : Agrees (f (state.finish label build).value) (state.finish label build).state attempt
      read) : Agrees (finish label build >>= f) state attempt read := h

end Silent

end Steps

end LoopParser

end TreeGrammar
