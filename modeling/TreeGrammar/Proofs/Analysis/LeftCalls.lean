import TreeGrammar.Proofs.Analysis.Progress
import TreeGrammar.Proofs.Lookahead.Starts

/-!
# Calls before a node is consumed

The analysis follows the calls that a rule makes before it consumes a node, and it looks for
repeated groups with a round that consumes none. Both are computed from what may match nothing.
Here they are compared with what elements derive: a call comes early if only elements that derive
the empty list come before it, and a group stalls if one of its alternatives derives the empty list.

## Main definitions

* `Rules.Invokes`, `Rules.InvokesFirst`: early calls of elements, and of a rule
* `Rules.DerivesNothing`: an alternative derives the empty list
* `Rules.Stalls`, `Rules.StallsAt`: a repeated group with a round that consumes nothing

## Main results

* `Rules.mem_leftCalls_iff`: the calls that are computed are the early calls
* `Rules.isSome_repeatError?_iff`: the groups that are reported are those that stall
-/

namespace TreeGrammar

/-- A sequence of elements of the rule with the number `owner` may call another rule before it
matches a node: only elements that derive no node come before the call. -/
inductive Rules.Invokes (rules : Rules) (owner : Nat) : List Expr → (callee : Nat) → Prop where
  /-- The first element is the call. -/
  | call {id : Nat} {span : Span} {label : Option Ident} {name : Ident} {args : Option Fragment}
      {exprs : List Expr} {callee : Nat} (hCallee : rules.index? name.name = some callee) :
      Invokes rules owner (.rule id span label name args :: exprs) callee
  /-- The call is in an alternative of a group. -/
  | enter {id : Nat} {span : Span} {repetition : Repetition} {alternatives : List Alternative}
      {exprs : List Expr} {index : Nat} {alternative : Alternative} {callee : Nat}
      (hChosen : alternatives[index]? = some alternative)
      (body : Invokes rules owner alternative.elements callee) :
      Invokes rules owner (.subrule id span repetition alternatives :: exprs) callee
  /-- An element that derives no node is passed. -/
  | pass {expr : Expr} {exprs : List Expr} {callee : Nat}
      (hNothing : Nonempty (Derivation rules owner [expr] [] []))
      (later : Invokes rules owner exprs callee) : Invokes rules owner (expr :: exprs) callee

namespace Rules

/-- One of the alternatives of a rule may call another rule before it matches a node. -/
def InvokesFirst (rules : Rules) (caller callee : Nat) : Prop :=
  ∃ rule, rules[caller]? = some rule ∧
    ∃ (index : Nat) (alternative : Alternative), rule.alternatives[index]? = some alternative ∧
      rules.Invokes caller alternative.elements callee

/-- An alternative derives the empty list, whichever rule it belongs to. -/
def DerivesNothing (rules : Rules) (alternative : Alternative) : Prop :=
  ∀ owner, Nonempty (Derivation rules owner alternative.elements [] [])

/-- The element is a repeated group with an alternative that derives the empty list. -/
def Stalls (rules : Rules) (expr : Expr) : Prop :=
  ∃ id span repetition alternatives, expr = .subrule id span repetition alternatives ∧
    repetition.isRepeat = true ∧ ∃ alternative ∈ alternatives, rules.DerivesNothing alternative

/-- The element is a repeated group at the position `span`, and its alternative with number `index`
is the first one that derives the empty list. -/
def StallsAt (rules : Rules) (expr : Expr) (span : Span) (repetition : Repetition) (index : Nat) :
    Prop :=
  ∃ id alternatives, expr = .subrule id span repetition alternatives ∧
    repetition.isRepeat = true ∧
    (∃ alternative, alternatives[index]? = some alternative ∧ rules.DerivesNothing alternative) ∧
    ∀ (j : Nat) (earlier : Alternative), j < index → alternatives[j]? = some earlier →
      ¬ rules.DerivesNothing earlier

variable {rules : Rules} {owner caller callee : Nat} {exprs : List Expr}

/-! ### Early calls -/

/-- The names of early calls are among those that are computed. -/
theorem Invokes.exists_name (h : rules.Invokes owner exprs callee) :
    ∃ name ∈ Alternative.sequenceLeftCalls rules.first exprs, rules.index? name = some callee := by
  induction h with
  | call hCallee =>
    exact ⟨_, List.mem_append_left _ (List.mem_singleton_self _), hCallee⟩
  | enter hChosen _ ih =>
    obtain ⟨name, hName, hCallee⟩ := ih
    have hGroup := CallsDescend.mem_alternativesLeftCalls hChosen hName
    exact ⟨name, List.mem_append_left _ hGroup, hCallee⟩
  | pass hNothing _ ih =>
    obtain ⟨name, hName, hCallee⟩ := ih
    obtain ⟨derivation⟩ := hNothing
    have hNullable := (nullable_cons.1 (derivation.nullable rfl)).1
    rw [Alternative.sequenceLeftCalls, if_pos hNullable]
    exact ⟨name, List.mem_append_right _ hName, hCallee⟩

/-- The calls that are computed come early. -/
theorem invokes_of_leftCalls {name : String} (hCallee : rules.index? name = some callee) :
    (∀ expr : Expr, ∀ exprs, name ∈ expr.leftCalls rules.first →
      rules.Invokes owner (expr :: exprs) callee) ∧
    (∀ exprs, name ∈ Alternative.sequenceLeftCalls rules.first exprs →
      rules.Invokes owner exprs callee) ∧
    ∀ alternatives, name ∈ Alternative.alternativesLeftCalls rules.first alternatives →
      ∃ (index : Nat) (alternative : Alternative), alternatives[index]? = some alternative ∧
        rules.Invokes owner alternative.elements callee := by
  refine Expr.induction ?node ?token ?wildcard ?rule ?subrule ?action ?predicate ?nil ?cons
    ?none ?alternative
  case rule =>
    intro id span label called args exprs hName
    obtain rfl := List.mem_singleton.1 hName
    exact .call hCallee
  case subrule =>
    intro id span repetition alternatives ih exprs hName
    obtain ⟨index, alternative, hChosen, hBody⟩ := ih hName
    exact .enter hChosen hBody
  case nil => exact fun hName => absurd hName List.not_mem_nil
  case cons =>
    intro expr exprs ihExpr ihExprs hName
    rw [Alternative.sequenceLeftCalls] at hName
    rcases List.mem_append.1 hName with hHere | hLater
    · exact ihExpr exprs hHere
    · -- the calls behind an element count if it may match nothing, and then it derives nothing
      by_cases hNullable : (expr.first rules.first).nullable = true
      · rw [if_pos hNullable] at hLater
        exact .pass ((rules.firstSets_sound.elements.1 expr owner).nothing hNullable)
          (ihExprs hLater)
      · rw [if_neg hNullable] at hLater
        exact absurd hLater List.not_mem_nil
  case none => exact fun hName => absurd hName List.not_mem_nil
  case alternative =>
    intro guard elements span alternatives ihElements ih hName
    rcases List.mem_append.1 hName with hHere | hLater
    · exact ⟨0, _, rfl, ihElements hHere⟩
    · obtain ⟨index, alternative, hChosen, hBody⟩ := ih hLater
      exact ⟨index + 1, alternative, hChosen, hBody⟩
  all_goals
    intros
    contradiction

/-- The calls that are computed for a rule are those that it may make before it matches a node. -/
theorem mem_leftCalls_iff :
    callee ∈ (rules.leftCalls rules.first).callees caller ↔ rules.InvokesFirst caller callee := by
  constructor
  · intro hCallee
    obtain ⟨rule, name, hRule, hName, hIndex⟩ := (mem_callees_iff
      (fun rule => Alternative.alternativesLeftCalls rules.first rule.alternatives) rfl).1 hCallee
    exact ⟨rule, hRule, (invokes_of_leftCalls hIndex).2.2 rule.alternatives hName⟩
  · rintro ⟨rule, hRule, index, alternative, hChosen, hBody⟩
    obtain ⟨name, hName, hIndex⟩ := hBody.exists_name
    exact (mem_callees_iff
      (fun rule => Alternative.alternativesLeftCalls rules.first rule.alternatives) rfl).2
        ⟨rule, name, hRule, CallsDescend.mem_alternativesLeftCalls hChosen hName, hIndex⟩

/-! ### Groups that stall -/

/-- The alternatives that are noted to match nothing derive the empty list. -/
theorem nullable_alternative_iff {alternative : Alternative} :
    (alternative.first rules.first).nullable = true ↔ rules.DerivesNothing alternative := by
  constructor
  · exact fun hNullable owner =>
      (rules.firstSets_sound.elements.2.1 alternative.elements owner).nothing hNullable
  · intro hNothing
    obtain ⟨derivation⟩ := hNothing 0
    exact derivation.nullable rfl

/-- The elements that are reported are the groups that stall. -/
theorem isSome_repeatError?_iff {expr : Expr} :
    (expr.repeatError? rules.first).isSome ↔ rules.Stalls expr := by
  cases expr with
  | subrule id span repetition alternatives =>
    rw [Expr.repeatError?]
    constructor
    · intro h
      split at h
      · next hRepeat =>
        rw [Option.isSome_map, List.findIdx?_isSome] at h
        obtain ⟨alternative, hMem, hNullable⟩ := List.any_eq_true.1 h
        exact ⟨id, span, repetition, alternatives, rfl, hRepeat, alternative, hMem,
          nullable_alternative_iff.1 hNullable⟩
      · cases h
    · rintro ⟨_, _, _, _, hExpr, hRepeat, alternative, hMem, hNothing⟩
      cases hExpr
      rw [if_pos hRepeat, Option.isSome_map, List.findIdx?_isSome]
      exact List.any_eq_true.2 ⟨alternative, hMem, nullable_alternative_iff.2 hNothing⟩
  | _ =>
    refine iff_of_false Bool.false_ne_true ?_
    rintro ⟨_, _, _, _, hExpr, -⟩
    cases hExpr

/-- A group is reported with the first alternative at which it stalls. -/
theorem exists_stallsAt_of_repeatError? {expr : Expr} {error : Diagnostic}
    (h : expr.repeatError? rules.first = some error) : ∃ span repetition index,
      rules.StallsAt expr span repetition index ∧
        error = ⟨span, .nullableRepeat repetition index⟩ := by
  cases expr with
  | subrule id span repetition alternatives =>
    rw [Expr.repeatError?] at h
    split at h
    · next hRepeat =>
      obtain ⟨index, hIndex, rfl⟩ := Option.map_eq_some_iff.1 h
      obtain ⟨hLt, hNullable, hBefore⟩ := List.findIdx?_eq_some_iff_getElem.1 hIndex
      refine ⟨span, repetition, index, ⟨id, alternatives, rfl, hRepeat,
        ⟨alternatives[index], List.getElem?_eq_getElem hLt,
          nullable_alternative_iff.1 hNullable⟩, fun j earlier hLess hEarlier hNothing => ?_⟩, rfl⟩
      obtain ⟨hj, rfl⟩ := List.getElem?_eq_some_iff.1 hEarlier
      exact hBefore j hLess (nullable_alternative_iff.2 hNothing)
    · cases h
  | _ => cases h

end Rules

end TreeGrammar
