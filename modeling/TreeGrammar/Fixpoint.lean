/-!
# Iteration to a fixed point

The sets that an analysis computes for the rules of a grammar depend on each other. They are found
by starting with empty sets and applying all rules again and again until nothing changes. Every
application that changes something adds to a finite store, so a bound on the number of applications
is known beforehand.

## Main definitions

* `iterate`: a step applied until nothing changes

## Main results

* `iterate_fixed`: if every change makes a bounded size grow, the result is a fixed point
* `iterate_induction`: what the start has and the step keeps, the result has
-/

namespace TreeGrammar

variable {α : Type} [DecidableEq α]

/-- The result of applying `step` until nothing changes, at most `bound` times. -/
def iterate (step : α → α) : Nat → α → α
  | 0, x => x
  | bound + 1, x => if step x = x then x else iterate step bound (step x)

/-- What holds at the start and is kept by the step holds for the result. -/
theorem iterate_induction {step : α → α} {p : α → Prop} (hstep : ∀ x, p x → p (step x))
    (bound : Nat) {x : α} (hx : p x) : p (iterate step bound x) := by
  induction bound generalizing x with
  | zero => exact hx
  | succ bound ih =>
    rw [iterate]
    split
    · exact hx
    · exact ih (hstep x hx)

/-- The result is a fixed point if every change makes a size grow that cannot pass the bound. -/
theorem iterate_fixed {step : α → α} {p : α → Prop} (size : α → Nat) {limit bound : Nat}
    (hstep : ∀ x, p x → p (step x)) (hgrow : ∀ x, p x → step x ≠ x → size x < size (step x))
    (hlimit : ∀ x, p x → size x ≤ limit) {x : α} (hx : p x) (hbound : limit < size x + bound) :
    step (iterate step bound x) = iterate step bound x := by
  induction bound generalizing x with
  | zero => exact absurd hbound (Nat.not_lt.2 (hlimit x hx))
  | succ bound ih =>
    rw [iterate]
    split
    · assumption
    · next hne =>
      have := hgrow x hx hne
      exact ih (hstep x hx) (by omega)

end TreeGrammar
