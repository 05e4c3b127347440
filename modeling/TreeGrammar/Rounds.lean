/-!
# Loops

A loop repeats a round until one of them yields a result. Nothing about a round says that this ever
happens, so the number of rounds is limited; a loop comes to an end if it has a result for some
limit.

## Main definitions

* `rounds`: a loop with a limit

## Main results

* `rounds_of_next`, `rounds_of_result`: one round of a loop
-/

namespace TreeGrammar

/-- A loop of at most `limit` rounds, which go on with another state or yield a result. If all of
them go on, it is `unended`. -/
def rounds {m : Type → Type} [Monad m] {σ ρ : Type} (unended : m ρ) (round : σ → m (σ ⊕ ρ)) :
    Nat → σ → m ρ
  | 0, _ => unended
  | limit + 1, state => do
    match ← round state with
    | .inl next => rounds unended round limit next
    | .inr result => return result

variable {σ ρ : Type} {round : σ → Option (σ ⊕ ρ)} {state next : σ} {result : ρ} {limit : Nat}

theorem rounds_of_next (h : round state = some (.inl next)) (hLimit : 0 < limit) :
    rounds none round limit state = rounds none round (limit - 1) next := by
  obtain ⟨limit, rfl⟩ := Nat.exists_eq_add_one_of_ne_zero (Nat.ne_of_gt hLimit)
  rw [rounds, h]
  rfl

theorem rounds_of_result (h : round state = some (.inr result)) (hLimit : 0 < limit) :
    rounds none round limit state = some result := by
  obtain ⟨limit, rfl⟩ := Nat.exists_eq_add_one_of_ne_zero (Nat.ne_of_gt hLimit)
  rw [rounds, h]
  rfl

end TreeGrammar
