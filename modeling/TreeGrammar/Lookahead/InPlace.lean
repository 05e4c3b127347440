import TreeGrammar.Lookahead.Follow

/-!
# Lookahead sets in place

The sets of rules can be computed without a bound that is known beforehand. A pass goes over the
rules in order and changes the set of a rule as soon as something is missing in it, so that later
rules already see the change. Passes are repeated as long as one of them changes a set. What follows
the elements is noted anew in each pass, so that the notes of the last pass remain.

## Main definitions

* `repeatPass`: passes until nothing changes
* `Rules.firstPass`, `Rules.firstInPlace`: what rules may start with
* `Rules.followPass`, `Rules.followInPlace`: what follows rules and elements
-/

namespace TreeGrammar

/-- Repeats a pass until it reports that it has changed nothing. There is no result if this never
happens. -/
def repeatPass {α : Type} (pass : α → α × Bool) (x : α) : Option α :=
  have : Nonempty α := ⟨x⟩
  repeatM (fun x => match pass x with
    | (next, true) => some (.inl next)
    | (next, false) => some (.inr next)) x

/-- The union of two sets, and whether it lists more than the first one. -/
def LookaheadSet.absorb (a b : LookaheadSet) : LookaheadSet × Bool :=
  let union := a.union b
  let shape (set : LookaheadSet) := (set.labels.toList.length, set.any, set.atEnd)
  (union, shape a != shape union)

/-- Either of two matches, and whether it is more than the first one. -/
def FirstSet.absorb (a b : FirstSet) : FirstSet × Bool :=
  let (set, grown) := a.set.absorb b.set
  ({ set, nullable := a.nullable || b.nullable }, b.nullable && !a.nullable || grown)

/-- A list of sets that is being changed, and whether it has been changed. -/
structure InPlace (α : Type) where
  sets : List α
  changed : Bool := false

/-- Changes the set with the given number. -/
def InPlace.modify {α : Type} (state : InPlace α) (index : Nat) (change : α → α × Bool) :
    InPlace α :=
  match state.sets[index]? with
  | some set =>
    let (set, grown) := change set
    { sets := state.sets.set index set, changed := state.changed || grown }
  | none => state

namespace Rules

/-! ### What rules may start with -/

/-- Adds to the set of a rule what its alternatives may start with. -/
def firstVisit (rules : Rules) (state : InPlace FirstSet) (index : Nat) (rule : Rule) :
    InPlace FirstSet :=
  let found := Alternative.alternativesFirst (rules.firstOf state.sets) rule.alternatives
  state.modify index (·.absorb found)

/-- A pass over all rules. -/
def firstPass (rules : Rules) (sets : List FirstSet) : List FirstSet × Bool :=
  let state := rules.zipIdx.foldl (fun state (rule, index) => rules.firstVisit state index rule)
    { sets }
  (state.sets, state.changed)

/-- What each rule may start with. -/
def firstInPlace (rules : Rules) : Option (List FirstSet) :=
  repeatPass rules.firstPass (rules.map fun _ => {})

end Rules

/-! ### What follows rules and elements -/

/-- What follows the rules, by their place, and the elements, by their number. -/
structure FollowTable where
  rules : List LookaheadSet
  exprs : Nat → LookaheadSet := fun _ => ∅

/-- The state of a pass. -/
structure FollowState where
  rules : InPlace LookaheadSet
  exprs : Nat → LookaheadSet := fun _ => ∅

namespace FollowState

/-- Notes what follows the element with the given number. -/
def note (state : FollowState) (id : Nat) (follow : LookaheadSet) : FollowState :=
  { state with
    exprs := fun other =>
      if other = id then (state.exprs id).union follow else state.exprs other }

/-- Adds to what follows the rule with the given number. -/
def addFollow (state : FollowState) (index : Nat) (follow : LookaheadSet) : FollowState :=
  { state with rules := state.rules.modify index (·.absorb follow) }

end FollowState

mutual

/-- Visits an element that is followed by the given set. -/
def Expr.visit (rules : Rules) (first : String → FirstSet) (follow : LookaheadSet)
    (state : FollowState) : Expr → FollowState
  | .node _ _ _ _ children =>
    (Alternative.visitSequence rules first .endOfList state children).1
  | .rule _ _ _ name _ =>
    match rules.index? name.name with
    | some index => state.addFollow index follow
    | none => state
  | .subrule _ _ repetition alternatives =>
    let inner :=
      if repetition.isRepeat then
        follow.union (Alternative.alternativesFirst first alternatives).set
      else follow
    Alternative.visitAlternatives rules first inner state alternatives
  | .token .. | .wildcard .. | .action .. | .predicate .. => state

/-- Visits the elements of a sequence that is followed by the given set, the last one first. It also
yields what is seen where the sequence starts. -/
def Alternative.visitSequence (rules : Rules) (first : String → FirstSet) (follow : LookaheadSet)
    (state : FollowState) : List Expr → FollowState × LookaheadSet
  | [] => (state, follow)
  | expr :: exprs =>
    let (later, current) := Alternative.visitSequence rules first follow state exprs
    (expr.visit rules first current (later.note expr.id current),
      (expr.first first).predict current)

/-- Visits the elements of alternatives that are followed by the given set. -/
def Alternative.visitAlternatives (rules : Rules) (first : String → FirstSet)
    (follow : LookaheadSet) (state : FollowState) : List Alternative → FollowState
  | [] => state
  | .mk _ elements _ :: alternatives =>
    Alternative.visitAlternatives rules first follow
      (Alternative.visitSequence rules first follow state elements).1 alternatives

end

namespace Rules

/-- Visits the elements of a rule, which is followed by what is known when the visit starts. -/
def followVisit (rules : Rules) (first : String → FirstSet) (state : FollowState) (index : Nat)
    (rule : Rule) : FollowState :=
  Alternative.visitAlternatives rules first (state.rules.sets[index]?.getD ∅) state
    rule.alternatives

/-- A pass over all rules. What has been noted about elements is dropped before. -/
def followPass (rules : Rules) (first : String → FirstSet) (table : FollowTable) :
    FollowTable × Bool :=
  let state := rules.zipIdx.foldl
    (fun state (rule, index) => rules.followVisit first state index rule)
    { rules := { sets := table.rules } }
  ({ rules := state.rules.sets, exprs := state.exprs }, state.rules.changed)

/-- The end of the roots follows the rules at which walks start. -/
def followStart (rules : Rules) : List LookaheadSet :=
  rules.mapIdx fun i _ => if i ∈ rules.entries then .endOfList else ∅

/-- What follows each rule and each element. -/
def followInPlace (rules : Rules) (first : String → FirstSet) : Option FollowTable :=
  repeatPass (rules.followPass first) { rules := rules.followStart }

end Rules

end TreeGrammar
