/-!
# Branches of a decision

## Main definitions

* `Branch`: an alternative, or the way out of a group that may end
-/

namespace TreeGrammar

/-- A branch of a decision. -/
inductive Branch where
  /-- The alternative with the given number, counted from zero. -/
  | alternative (index : Nat)
  /-- Leaving an optional or repeated group. -/
  | exit
  deriving DecidableEq, Repr

/-- The text of a branch, in which alternatives are counted from one. -/
protected def Branch.toString : Branch → String
  | alternative index => s!"alternative {index + 1}"
  | exit => "exit"

end TreeGrammar
