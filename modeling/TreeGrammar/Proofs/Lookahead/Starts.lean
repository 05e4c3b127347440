import TreeGrammar.Proofs.Grammar.Consumption
import TreeGrammar.Proofs.Lookahead.Least

/-!
# What elements start with

The set of a rule is compared with expansions of the rule. An expansion is followed from the left
until it comes to an element that matches a node; the elements that it passes before derive no node.
The computed sets list exactly the nodes that expansions come to in finitely many steps, and the
rules that are noted to match nothing are exactly those that derive the empty list of siblings.

## Main definitions

* `Start`: what an expansion comes to
* `Rules.Reaches`, `Rules.RuleReaches`: what expansions of elements and of a rule come to

## Main results

* `Rules.firstSets_sound`: what the computed sets list is derived or reached
* `Rules.Reaches.lists`: what is reached is listed
* `Rules.nullable_iff`, `Rules.lists_iff`: both directions, for a rule
-/

namespace TreeGrammar

/-- The first node that an expansion matches. -/
inductive Start where
  /-- A node with the given label. -/
  | label (name : String)
  /-- A node of whatever label. -/
  | anyNode
  deriving DecidableEq

/-- A set lists the first node of an expansion. -/
def FirstSet.Lists (first : FirstSet) : Start → Prop
  | .label name => name ∈ first.set.labels
  | .anyNode => first.set.any = true

/-- A sequence of elements of the rule with the number `owner` has an expansion that starts with the
given node. Only elements that derive no node come before it. -/
inductive Rules.Reaches (rules : Rules) : (owner : Nat) → List Expr → Start → Prop where
  /-- A token starts with a node with its name. -/
  | token {owner id : Nat} {span : Span} {label : Option Ident} {name : Ident}
      {exprs : List Expr} : Reaches rules owner (.token id span label name :: exprs)
        (.label name.name)
  /-- A node match starts with a node with its name. -/
  | node {owner id : Nat} {span : Span} {label : Option Ident} {name : Ident}
      {children exprs : List Expr} :
      Reaches rules owner (.node id span label name children :: exprs) (.label name.name)
  /-- A wildcard starts with any node. -/
  | wildcard {owner id : Nat} {span : Span} {label : Option Ident} {exprs : List Expr} :
      Reaches rules owner (.wildcard id span label :: exprs) .anyNode
  /-- A call starts as one of the alternatives of the rule. -/
  | call {owner id : Nat} {span : Span} {label : Option Ident} {name : Ident}
      {args : Option Fragment} {exprs : List Expr} {callee : Nat} {rule : Rule} {index : Nat}
      {alternative : Alternative} {start : Start}
      (hCallee : rules.index? name.name = some callee) (hRule : rules[callee]? = some rule)
      (hChosen : rule.alternatives[index]? = some alternative)
      (body : Reaches rules callee alternative.elements start) :
      Reaches rules owner (.rule id span label name args :: exprs) start
  /-- A group starts as one of its alternatives. -/
  | enter {owner id : Nat} {span : Span} {repetition : Repetition}
      {alternatives : List Alternative} {exprs : List Expr} {index : Nat}
      {alternative : Alternative} {start : Start}
      (hChosen : alternatives[index]? = some alternative)
      (body : Reaches rules owner alternative.elements start) :
      Reaches rules owner (.subrule id span repetition alternatives :: exprs) start
  /-- An element that derives no node is passed. -/
  | pass {owner : Nat} {expr : Expr} {exprs : List Expr} {start : Start}
      (hNothing : Nonempty (Derivation rules owner [expr] [] []))
      (later : Reaches rules owner exprs start) : Reaches rules owner (expr :: exprs) start

/-- One of the alternatives of a rule has an expansion that starts with the given node. -/
def Rules.RuleReaches (rules : Rules) (owner : Nat) (start : Start) : Prop :=
  ∃ rule, rules[owner]? = some rule ∧
    ∃ (index : Nat) (alternative : Alternative), rule.alternatives[index]? = some alternative ∧
      rules.Reaches owner alternative.elements start

namespace FirstSet

variable {a b : FirstSet} {start : Start}

theorem Lists.mono (h : a ≤ b) (ha : a.Lists start) : b.Lists start := by
  cases start with
  | label name => exact @h.1.1 name ha
  | anyNode => exact h.1.2.1 ha

theorem not_lists_empty : ¬ ({} : FirstSet).Lists start := by
  cases start with
  | label name => exact List.not_mem_nil
  | anyNode => exact Bool.false_ne_true

theorem lists_ofLabel {name : String} :
    (consuming (.ofLabel name)).Lists start ↔ start = .label name := by
  cases start with
  | label other => exact LabelSet.mem_singleton.trans ⟨congrArg _, Start.label.inj⟩
  | anyNode => exact ⟨fun h => absurd h Bool.false_ne_true, nofun⟩

theorem lists_anyNode : (consuming .anyNode).Lists start ↔ start = .anyNode := by
  cases start with
  | label name => exact ⟨fun h => absurd h List.not_mem_nil, nofun⟩
  | anyNode => exact ⟨fun _ => rfl, fun _ => rfl⟩

theorem lists_orElse : (a.orElse b).Lists start ↔ a.Lists start ∨ b.Lists start := by
  cases start with
  | label name => exact LabelSet.mem_union
  | anyNode => exact Bool.or_eq_true_iff

theorem lists_orNothing : a.orNothing.Lists start ↔ a.Lists start := by
  cases start <;> exact Iff.rfl

theorem lists_andThen :
    (a.andThen b).Lists start ↔ a.Lists start ∨ a.nullable = true ∧ b.Lists start := by
  rw [andThen]
  split
  · next h =>
    simp only [h, true_and]
    cases start with
    | label name => exact LabelSet.mem_union
    | anyNode => exact Bool.or_eq_true_iff
  · next h => simp only [h, false_and, or_false, Bool.false_eq_true]

end FirstSet

namespace Rules

variable {rules : Rules}

/-! ### What is listed is reached -/

/-- More elements behind a sequence do not change what it starts with. -/
theorem Reaches.append {owner : Nat} {exprs : List Expr} {start : Start}
    (h : rules.Reaches owner exprs start) (behind : List Expr) :
    rules.Reaches owner (exprs ++ behind) start := by
  induction h with
  | token => exact .token
  | node => exact .node
  | wildcard => exact .wildcard
  | call hCallee hRule hChosen body _ => exact .call hCallee hRule hChosen body
  | enter hChosen body _ => exact .enter hChosen body
  | pass hNothing _ ih => exact .pass hNothing ih

/-- What a set notes about a sequence of elements is true of the sequence. -/
structure IsSound (rules : Rules) (owner : Nat) (exprs : List Expr) (first : FirstSet) : Prop where
  nothing : first.nullable = true → Nonempty (Derivation rules owner exprs [] [])
  reaches : ∀ start, first.Lists start → rules.Reaches owner exprs start
  noEnd : first.set.atEnd = false

/-- What a set notes about some alternatives is true of one of them. -/
structure IsSoundChoice (rules : Rules) (owner : Nat) (alternatives : List Alternative)
    (first : FirstSet) : Prop where
  nothing : first.nullable = true → ∃ (index : Nat) (alternative : Alternative),
    alternatives[index]? = some alternative ∧
      Nonempty (Derivation rules owner alternative.elements [] [])
  reaches : ∀ start, first.Lists start → ∃ (index : Nat) (alternative : Alternative),
    alternatives[index]? = some alternative ∧ rules.Reaches owner alternative.elements start
  noEnd : first.set.atEnd = false

section Steps

variable {owner id callee : Nat} {span : Span} {label : Option Ident} {name : Ident}
  {args : Option Fragment} {rule : Rule} {expr : Expr} {exprs : List Expr}
  {repetition : Repetition} {alternatives : List Alternative} {a b : FirstSet}

theorem isSound_nil : rules.IsSound owner [] .nothing where
  nothing _ := ⟨.done⟩
  reaches _ h := absurd h FirstSet.not_lists_empty
  noEnd := rfl

theorem IsSound.cons (hExpr : rules.IsSound owner [expr] a) (hExprs : rules.IsSound owner exprs b) :
    rules.IsSound owner (expr :: exprs) (a.andThen b) where
  nothing h := by
    rw [FirstSet.nullable_andThen, Bool.and_eq_true] at h
    obtain ⟨⟨first⟩, ⟨second⟩⟩ := And.intro (hExpr.nothing h.1) (hExprs.nothing h.2)
    obtain ⟨derivation, -⟩ := first.exists_append second
    exact ⟨derivation⟩
  reaches start h := by
    rcases FirstSet.lists_andThen.1 h with h | ⟨hNullable, h⟩
    · exact (hExpr.reaches start h).append exprs
    · exact .pass (hExpr.nothing hNullable) (hExprs.reaches start h)
  noEnd := by
    rw [FirstSet.andThen]
    split
    · exact Bool.or_eq_false_iff.2 ⟨hExpr.noEnd, hExprs.noEnd⟩
    · exact hExpr.noEnd

theorem isSoundChoice_nil : rules.IsSoundChoice owner [] {} where
  nothing := nofun
  reaches _ h := absurd h FirstSet.not_lists_empty
  noEnd := rfl

theorem IsSoundChoice.cons {guard : Option Fragment} (hHead : rules.IsSound owner exprs a)
    (hRest : rules.IsSoundChoice owner alternatives b) :
    rules.IsSoundChoice owner (.mk guard exprs span :: alternatives) (a.orElse b) where
  nothing h := by
    rcases Bool.or_eq_true_iff.1 h with h | h
    · exact ⟨0, _, rfl, hHead.nothing h⟩
    · obtain ⟨index, alternative, hChosen, hNothing⟩ := hRest.nothing h
      exact ⟨index + 1, alternative, hChosen, hNothing⟩
  reaches start h := by
    rcases FirstSet.lists_orElse.1 h with h | h
    · exact ⟨0, _, rfl, hHead.reaches start h⟩
    · obtain ⟨index, alternative, hChosen, hReaches⟩ := hRest.reaches start h
      exact ⟨index + 1, alternative, hChosen, hReaches⟩
  noEnd := Bool.or_eq_false_iff.2 ⟨hHead.noEnd, hRest.noEnd⟩

/-- A group that derives no node in one round derives no node. -/
theorem exists_derivation_enter {index : Nat} {alternative : Alternative}
    (hChosen : alternatives[index]? = some alternative)
    (h : Nonempty (Derivation rules owner alternative.elements [] [])) :
    Nonempty (Derivation rules owner [.subrule id span repetition alternatives] [] []) := by
  obtain ⟨body⟩ := h
  -- where there may be a further round, the group is left instead
  have hAgain : Nonempty (Derivation rules owner
      (repetition.again id span alternatives ++ []) [] []) := by
    rw [Repetition.again]
    split
    · exact ⟨.leave rfl .done⟩
    · exact ⟨.done⟩
  obtain ⟨again⟩ := hAgain
  exact ⟨.enter hChosen body again⟩

theorem IsSoundChoice.subrule (h : rules.IsSoundChoice owner alternatives a) :
    rules.IsSound owner [.subrule id span repetition alternatives]
      (if repetition.maySkip then a.orNothing else a) where
  nothing hNullable := by
    by_cases hSkip : repetition.maySkip = true
    · exact ⟨.leave hSkip .done⟩
    · rw [if_neg hSkip] at hNullable
      obtain ⟨index, alternative, hChosen, hNothing⟩ := h.nothing hNullable
      exact exists_derivation_enter hChosen hNothing
  reaches start hLists := by
    have hInner : a.Lists start := by
      split at hLists
      · exact FirstSet.lists_orNothing.1 hLists
      · exact hLists
    obtain ⟨index, alternative, hChosen, hReaches⟩ := h.reaches start hInner
    exact .enter hChosen hReaches
  noEnd := by
    split
    · exact h.noEnd
    · exact h.noEnd

theorem IsSoundChoice.call (hCallee : rules.index? name.name = some callee)
    (hRule : rules[callee]? = some rule) (h : rules.IsSoundChoice callee rule.alternatives a) :
    rules.IsSound owner [.rule id span label name args] a where
  nothing hNullable := by
    obtain ⟨index, alternative, hChosen, ⟨body⟩⟩ := h.nothing hNullable
    exact ⟨.call hCallee hRule hChosen body .done⟩
  reaches start hLists := by
    obtain ⟨index, alternative, hChosen, hReaches⟩ := h.reaches start hLists
    exact .call hCallee hRule hChosen hReaches
  noEnd := h.noEnd

end Steps

/-- What some sets note about the rules is true. -/
def AreSound (rules : Rules) (sets : List FirstSet) : Prop :=
  ∀ i rule first, rules[i]? = some rule → sets[i]? = some first →
    rules.IsSoundChoice i rule.alternatives first

/-- What follows from true sets of rules about elements is true. -/
theorem AreSound.elements {sets : List FirstSet} (h : rules.AreSound sets) :
    (∀ expr : Expr, ∀ owner, rules.IsSound owner [expr] (expr.first (rules.firstOf sets))) ∧
    (∀ exprs, ∀ owner,
      rules.IsSound owner exprs (Alternative.sequenceFirst (rules.firstOf sets) exprs)) ∧
    ∀ alternatives, ∀ owner, rules.IsSoundChoice owner alternatives
      (Alternative.alternativesFirst (rules.firstOf sets) alternatives) := by
  refine Expr.induction ?node ?token ?wildcard ?rule ?subrule ?action ?predicate ?nil ?cons
    ?none ?alternative
  case node =>
    intro id span label name children _ owner
    exact ⟨Bool.false_ne_true.elim, fun _ h => FirstSet.lists_ofLabel.1 h ▸ .node, rfl⟩
  case token =>
    intro id span label name owner
    exact ⟨Bool.false_ne_true.elim, fun _ h => FirstSet.lists_ofLabel.1 h ▸ .token, rfl⟩
  case wildcard =>
    intro id span label owner
    exact ⟨Bool.false_ne_true.elim, fun _ h => FirstSet.lists_anyNode.1 h ▸ .wildcard, rfl⟩
  case rule =>
    intro id span label name args owner
    rw [Expr.first, firstOf]
    cases hFirst : (rules.index? name.name).bind (sets[·]?) with
    | none => exact ⟨Bool.false_ne_true.elim, fun _ h => absurd h FirstSet.not_lists_empty, rfl⟩
    | some first =>
      obtain ⟨callee, hCallee, hSet⟩ := Option.bind_eq_some_iff.1 hFirst
      obtain ⟨rule, hRule, -⟩ := getElem?_of_index? hCallee
      exact (h callee rule first hRule hSet).call hCallee hRule
  case subrule => exact fun _ _ _ _ ih owner => (ih owner).subrule
  case action =>
    exact fun _ _ _ => ⟨fun _ => ⟨.action .done⟩, fun _ h => absurd h FirstSet.not_lists_empty, rfl⟩
  case predicate =>
    exact fun _ _ _ =>
      ⟨fun _ => ⟨.predicate .done⟩, fun _ h => absurd h FirstSet.not_lists_empty, rfl⟩
  case nil => exact fun _ => isSound_nil
  case cons => exact fun _ _ ihExpr ihExprs owner => (ihExpr owner).cons (ihExprs owner)
  case none => exact fun _ => isSoundChoice_nil
  case alternative =>
    exact fun _ _ _ _ ihElements ih owner => IsSoundChoice.cons (ihElements owner) (ih owner)

/-- What the computed sets note about the rules is true. -/
theorem firstSets_sound (rules : Rules) : rules.AreSound rules.firstSets := by
  refine iterate_induction (p := rules.AreSound) (fun sets hSets => ?step) _ ?start
  case step =>
    intro i rule first hRule hFirst
    rw [firstStep, List.getElem?_map, hRule] at hFirst
    obtain rfl := Option.some.inj hFirst
    exact hSets.elements.2.2 rule.alternatives i
  case start =>
    intro i rule first hRule hFirst
    rw [List.getElem?_map, hRule] at hFirst
    obtain rfl := Option.some.inj hFirst
    exact ⟨Bool.false_ne_true.elim, fun _ h => absurd h FirstSet.not_lists_empty, rfl⟩

/-! ### What is reached is listed -/

theorem lists_cons {first : String → FirstSet} {expr : Expr} {exprs : List Expr} {start : Start} :
    (Alternative.sequenceFirst first (expr :: exprs)).Lists start ↔
      (expr.first first).Lists start ∨
        (expr.first first).nullable = true ∧
          (Alternative.sequenceFirst first exprs).Lists start := by
  rw [Alternative.sequenceFirst]
  exact FirstSet.lists_andThen

/-- What an expansion of a sequence starts with is listed. -/
theorem Reaches.lists {owner : Nat} {exprs : List Expr} {start : Start}
    (h : rules.Reaches owner exprs start) :
    (Alternative.sequenceFirst rules.first exprs).Lists start := by
  induction h with
  | token | node => exact lists_cons.2 (.inl (FirstSet.lists_ofLabel.2 rfl))
  | wildcard => exact lists_cons.2 (.inl (FirstSet.lists_anyNode.2 rfl))
  | call hCallee hRule hChosen _ ih =>
    refine lists_cons.2 (.inl ?_)
    rw [Expr.first, first_eq hCallee hRule]
    exact ih.mono (sequenceFirst_le_alternativesFirst hChosen)
  | enter hChosen _ ih =>
    refine lists_cons.2 (.inl (ih.mono ?_))
    exact (sequenceFirst_le_alternativesFirst hChosen).trans alternativesFirst_le_first
  | pass hNothing _ ih =>
    obtain ⟨derivation⟩ := hNothing
    have hNullable := (nullable_cons.1 (derivation.nullable rfl)).1
    exact lists_cons.2 (.inr ⟨hNullable, ih⟩)

/-! ### Both directions -/

section Characterization

variable {i : Nat} {first : FirstSet}

/-- A computed set is what the alternatives of its rule may start with. -/
theorem exists_rule_of_firstSets (h : rules.firstSets[i]? = some first) :
    ∃ rule, rules[i]? = some rule ∧
      first = Alternative.alternativesFirst rules.first rule.alternatives := by
  obtain ⟨hi, -⟩ := List.getElem?_eq_some_iff.1 h
  rw [length_firstSets] at hi
  have hRule : rules[i]? = some rules[i] := List.getElem?_eq_getElem hi
  exact ⟨rules[i], hRule, Option.some.inj (h.symm.trans (firstSets_getElem? hRule))⟩

/-- The rules that are noted to match nothing are those that derive the empty list. -/
theorem nullable_iff (h : rules.firstSets[i]? = some first) :
    first.nullable = true ↔ Nonempty (RuleDerivation rules i [] []) := by
  obtain ⟨rule, hRule, hFirst⟩ := exists_rule_of_firstSets h
  constructor
  · intro hNullable
    obtain ⟨index, alternative, hChosen, ⟨body⟩⟩ :=
      (rules.firstSets_sound i rule first hRule h).nothing hNullable
    exact ⟨⟨rule, hRule, index, alternative, hChosen, body⟩⟩
  · rintro ⟨⟨other, hOther, index, alternative, hChosen, body⟩⟩
    obtain rfl := Option.some.inj (hRule.symm.trans hOther)
    exact hFirst ▸ (sequenceFirst_le_alternativesFirst hChosen).2 (body.nullable rfl)

/-- The nodes that are listed for a rule are those with which its expansions start. -/
theorem lists_iff (h : rules.firstSets[i]? = some first) (start : Start) :
    first.Lists start ↔ rules.RuleReaches i start := by
  obtain ⟨rule, hRule, hFirst⟩ := exists_rule_of_firstSets h
  constructor
  · intro hLists
    exact ⟨rule, hRule, (rules.firstSets_sound i rule first hRule h).reaches start hLists⟩
  · rintro ⟨other, hOther, index, alternative, hChosen, hReaches⟩
    obtain rfl := Option.some.inj (hRule.symm.trans hOther)
    exact hFirst ▸ hReaches.lists.mono (sequenceFirst_le_alternativesFirst hChosen)

/-- No rule starts with the end of a list. -/
theorem atEnd_eq_false (h : rules.firstSets[i]? = some first) : first.set.atEnd = false := by
  obtain ⟨rule, hRule, -⟩ := exists_rule_of_firstSets h
  exact (rules.firstSets_sound i rule first hRule h).noEnd

end Characterization

end Rules

end TreeGrammar
