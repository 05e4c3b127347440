import Mathlib.Logic.Relation
import Mathlib.Order.WellFounded
import TreeGrammar.Proofs.Analysis.Cycles
import TreeGrammar.Proofs.Grammar.Consumption
import TreeGrammar.Proofs.Grammar.Membership
import TreeGrammar.Proofs.Walk.Execution

/-!
# Accepted grammars make progress

What the checks of an accepted grammar say about the order in which rules call each other. A call
either starts with fewer nodes than the call around it, or it starts at the same place and is one of
the calls that the rule around it makes before it consumes a node. There are no cycles of such calls,
so that calls descend in a well-founded order.

## Main definitions

* `Expr.IsProper`: a rule that is called is declared, and rounds of a group consume a node
* `Rules.CallsFirst`: a rule may call another one before it consumes a node
* `Rules.Descends`: a call starts with fewer nodes, or has been made before a node is consumed
* `Rules.CallsDescend`: the next calls in a sequence descend from the call around it

## Main results

* `Grammar.Checked.wellFounded_descends`: calls do not descend forever
-/

namespace TreeGrammar

/-! ### Elements that make progress -/

/-- A rule that is called is declared, and no alternative of a repeated group may match nothing. -/
def Expr.IsProper (rules : Rules) : Expr → Prop
  | .rule _ _ _ name _ => ∃ callee, rules.index? name.name = some callee
  | .subrule _ _ repetition alternatives => repetition.isRepeat = true →
      ∀ alternative ∈ alternatives, ¬ (alternative.first rules.first).nullable
  | _ => True

/-- The elements of a checked grammar are proper. -/
theorem Grammar.Checked.isProper {grammar : Grammar} (hChecked : grammar.Checked) :
    ∀ expr ∈ grammar.rules.exprs, expr.IsProper grammar.rules := by
  intro expr hExpr
  cases expr with
  | rule id span label name args => exact hChecked.calls _ hExpr name.name rfl
  | subrule id span repetition alternatives =>
    intro hRepeat alternative hMem
    have hNone := List.filterMap_eq_nil_iff.1 hChecked.repeats _ hExpr
    rw [Expr.repeatError?, if_pos hRepeat, Option.map_eq_none_iff, List.findIdx?_eq_none_iff]
      at hNone
    exact Bool.eq_false_iff.1 (hNone alternative hMem)
  | _ => trivial

/-- The group that is tried after a round is proper. -/
theorem Expr.IsProper.star {rules : Rules} {id : Nat} {span : Span} {repetition : Repetition}
    {alternatives : List Alternative}
    (h : (Expr.subrule id span repetition alternatives).IsProper rules)
    (hRepeat : repetition.isRepeat = true) :
    (Expr.subrule id span .star alternatives).IsProper rules :=
  fun _ => h hRepeat

/-- A round of a repeated group that is proper consumes a node. -/
theorem Expr.IsProper.ne_of_round {rules : Rules} {id : Nat} {span : Span}
    {repetition : Repetition} {alternatives : List Alternative}
    (h : (Expr.subrule id span repetition alternatives).IsProper rules)
    (hRepeat : repetition.isRepeat = true) {index : Nat} {alternative : Alternative}
    (hChosen : alternatives[index]? = some alternative) {owner : Nat} {before after : List Tree}
    (derivation : Derivation rules owner alternative.elements before after) : after ≠ before :=
  fun hEq => h hRepeat alternative (List.mem_of_getElem? hChosen) (derivation.nullable hEq)

/-! ### Calls that descend -/

/-- The rule `caller` may call the rule `callee` before it consumes a node. -/
def Rules.CallsFirst (rules : Rules) (callee caller : Nat) : Prop :=
  callee ∈ (rules.leftCalls rules.first).callees caller

/-- The call `inner` starts with fewer nodes than the call `outer`, or both start with the same
nodes and the calls between them have been made before a node was consumed. -/
def Rules.Descends (rules : Rules) (inner outer : Invocation) : Prop :=
  Tree.sizes inner.start.remaining < Tree.sizes outer.start.remaining ∨
    (inner.start.remaining = outer.start.remaining ∧
      Relation.TransGen rules.CallsFirst inner.procedure outer.procedure)

namespace Rules.Descends

variable {rules : Rules} {a b c : Invocation}

theorem trans (hab : rules.Descends a b) (hbc : rules.Descends b c) : rules.Descends a c := by
  rcases hab with hab | ⟨hab, hCalls⟩
  · rcases hbc with hbc | ⟨hbc, -⟩
    · exact .inl (hab.trans hbc)
    · exact .inl (hbc ▸ hab)
  · rcases hbc with hbc | ⟨hbc, hCalls'⟩
    · exact .inl (hab ▸ hbc)
    · exact .inr ⟨hab.trans hbc, hCalls.trans hCalls'⟩

end Rules.Descends

namespace Grammar.Checked

variable {grammar : Grammar}

/-- Calls that are made before a node is consumed come to an end. -/
theorem wellFounded_callsFirst (hChecked : grammar.Checked) :
    WellFounded grammar.rules.CallsFirst :=
  ⟨Rules.ends_leftCalls hChecked.recursion⟩

/-- Calls do not descend forever. -/
theorem wellFounded_descends (hChecked : grammar.Checked) :
    WellFounded grammar.rules.Descends := by
  have hCalls := hChecked.wellFounded_callsFirst.transGen
  have hLex : WellFounded (Prod.Lex (· < ·) (Relation.TransGen grammar.rules.CallsFirst)) :=
    WellFounded.prod_lex Nat.lt_wfRel.wf hCalls
  have hPairs := InvImage.wf
    (fun call : Invocation => (Tree.sizes call.start.remaining, call.procedure)) hLex
  -- sizes and rules are compared as pairs, sizes first
  refine Subrelation.wf (fun {inner outer} h => ?_) hPairs
  rcases h with hLt | ⟨hSame, hCalls⟩
  · exact Prod.Lex.left _ _ hLt
  · show Prod.Lex _ _ (Tree.sizes inner.start.remaining, inner.procedure) _
    rw [hSame]
    exact Prod.Lex.right _ hCalls

/-- A rule is not called again at the same place. -/
theorem ne_of_descends (hChecked : grammar.Checked) {inner outer : Invocation}
    (h : grammar.rules.Descends inner outer) :
    Tree.sizes inner.start.remaining < Tree.sizes outer.start.remaining ∨
      (inner.start.remaining = outer.start.remaining ∧ inner.procedure ≠ outer.procedure) := by
  refine h.imp_right fun ⟨hSame, hCalls⟩ => ⟨hSame, fun hEq => ?_⟩
  rw [hEq] at hCalls
  exact hChecked.wellFounded_callsFirst.transGen.irrefl.irrefl _ hCalls

end Grammar.Checked

/-- Where the nodes `remaining` are left, the calls that a sequence makes before it consumes a node
descend from the call `outer` around it. -/
def Rules.CallsDescend (rules : Rules) (outer : Invocation) (exprs : List Expr)
    (remaining : List Tree) : Prop :=
  Tree.sizes remaining < Tree.sizes outer.start.remaining ∨
    (remaining = outer.start.remaining ∧
      ∀ name ∈ Alternative.sequenceLeftCalls rules.first exprs, ∀ callee,
        rules.index? name = some callee → rules.CallsFirst callee outer.procedure)

namespace Rules.CallsDescend

variable {rules : Rules} {outer : Invocation} {expr : Expr} {exprs exprs' : List Expr}
  {before after : List Tree} {id index : Nat} {span : Span} {alternatives : List Alternative}
  {alternative : Alternative}

/-- Where nodes have been consumed, all calls descend. -/
theorem of_lt (h : rules.CallsDescend outer exprs before)
    (hLt : Tree.sizes after < Tree.sizes before) : rules.CallsDescend outer exprs' after := by
  rcases h with hOuter | ⟨rfl, -⟩
  · exact .inl (hLt.trans hOuter)
  · exact .inl hLt

/-- A call descends. -/
theorem call {label : Option Ident} {name : Ident} {args : Option Fragment} {cursor : Cursor}
    {callee : Nat}
    (h : rules.CallsDescend outer (.rule id span label name args :: exprs) cursor.remaining)
    (hCallee : rules.index? name.name = some callee) : rules.Descends ⟨callee, cursor⟩ outer := by
  refine h.imp_right fun ⟨hSame, hCalls⟩ => ⟨hSame, ?_⟩
  exact .single (hCalls name.name (List.mem_append_left _ (List.mem_singleton_self _)) callee hCallee)

/-- The calls after an element descend: if it has consumed no node, then it may match nothing. -/
theorem later (h : rules.CallsDescend outer (expr :: exprs) before) (hSuffix : after <:+ before)
    (hNullable : after = before → (expr.first rules.first).nullable) :
    rules.CallsDescend outer exprs after := by
  by_cases hEq : after = before
  · refine hEq ▸ h.imp_right fun ⟨hSame, hCalls⟩ => ⟨hSame, fun name hName => hCalls name ?_⟩
    -- the calls after an element that may match nothing are among those of the sequence
    rw [Alternative.sequenceLeftCalls, if_pos (hNullable hEq)]
    exact List.mem_append_right _ hName
  · exact h.of_lt (Tree.sizes_lt_of_suffix hSuffix hEq)

theorem mem_alternativesLeftCalls {first : String → FirstSet} {name : String}
    (hChosen : alternatives[index]? = some alternative)
    (h : name ∈ Alternative.sequenceLeftCalls first alternative.elements) :
    name ∈ Alternative.alternativesLeftCalls first alternatives :=
  Alternative.subset_of_collects (fun _ _ _ _ => rfl) hChosen h

/-- The calls in a group descend. -/
theorem elements {repetition : Repetition}
    (h : rules.CallsDescend outer (.subrule id span repetition alternatives :: exprs) before)
    (hChosen : alternatives[index]? = some alternative) :
    rules.CallsDescend outer alternative.elements before := by
  refine h.imp_right fun ⟨hSame, hCalls⟩ => ⟨hSame, fun name hName => hCalls name ?_⟩
  exact List.mem_append_left _ (mem_alternativesLeftCalls hChosen hName)

/-- The calls that a rule makes before it consumes a node descend from the call of the rule. -/
theorem start {rule : Rule} (hRule : rules[outer.procedure]? = some rule)
    (hChosen : rule.alternatives[index]? = some alternative) :
    rules.CallsDescend outer alternative.elements outer.start.remaining := by
  refine .inr ⟨rfl, fun name hName callee hCallee => ?_⟩
  exact (mem_callees_iff
    (fun rule => Alternative.alternativesLeftCalls rules.first rule.alternatives) rfl).2
      ⟨rule, name, hRule, mem_alternativesLeftCalls hChosen hName, hCallee⟩

end Rules.CallsDescend

end TreeGrammar
