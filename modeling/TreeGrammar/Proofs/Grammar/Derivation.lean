import TreeGrammar.Lookahead.Decision
import TreeGrammar.Tree.Basic

/-!
# Derivations

What the elements of a grammar mean, without any reference to how trees are walked: a sequence of
elements derives some nodes at the start of a list of siblings and leaves the others. Guards and
predicates are left aside. A group that may be repeated is followed by itself, as a group that may
be left out then: `x+` means `x x*`, and `x*` means `x x*` or nothing.

A derivation is a value rather than a fact, so that its choices and its actions can be listed and
two derivations can be compared.

## Main definitions

* `Derivation`: how a sequence of elements derives nodes
* `RuleDerivation`: how a rule derives nodes
* `Derivation.choices`: the choices made at the decisions that a derivation passes
* `Derivation.actions`: the actions in a derivation, from left to right
* `Derivation.deeds`: the nodes and the actions in a derivation, from left to right

## Main results

* `Derivation.exists_append`: derivations are put one after the other
-/

namespace TreeGrammar

/-- What is collected from alternatives one after another holds what is collected from each. -/
theorem Alternative.subset_of_collects {α : Type} {collect : List Alternative → List α}
    {collectElements : List Expr → List α}
    (hCons : ∀ guard elements span alternatives,
      collect (.mk guard elements span :: alternatives) =
        collectElements elements ++ collect alternatives)
    {alternatives : List Alternative} {index : Nat} {alternative : Alternative}
    (hChosen : alternatives[index]? = some alternative) :
    collectElements alternative.elements ⊆ collect alternatives := by
  induction alternatives generalizing index with
  | nil => cases hChosen
  | cons head alternatives ih =>
    obtain ⟨guard, elements, span⟩ := head
    rw [hCons]
    cases index with
    | zero =>
      obtain rfl : Alternative.mk guard elements span = alternative := Option.some.inj hChosen
      exact List.subset_append_left _ _
    | succ index => exact List.subset_append_of_subset_right _ (ih hChosen)

/-- The label of the first of some siblings, none if there is none. -/
def Tree.firstLabel? (siblings : List Tree) : Option String := siblings.head?.map label

/-- What may follow one round of a group: the group once more, from now on with the freedom to leave
it out. -/
def Repetition.again (repetition : Repetition) (id : Nat) (span : Span)
    (alternatives : List Alternative) : List Expr :=
  if repetition.isRepeat then [.subrule id span .star alternatives] else []

/-- A derivation with elements of the rule with the number `owner`: the elements match the nodes
that stand in front of the list `before`, so that the list `after` is left. -/
inductive Derivation (rules : Rules) :
    (owner : Nat) → List Expr → (before after : List Tree) → Type where
  /-- No element matches no node. -/
  | done {owner : Nat} {siblings : List Tree} : Derivation rules owner [] siblings siblings
  /-- A token matches a node with its name. -/
  | token {owner : Nat} {id : Nat} {span : Span} {label : Option Ident} {name : Ident}
      {exprs : List Expr} {tree : Tree} {siblings after : List Tree}
      (hLabel : tree.label = name.name) (later : Derivation rules owner exprs siblings after) :
      Derivation rules owner (.token id span label name :: exprs) (tree :: siblings) after
  /-- A wildcard matches any node. -/
  | wildcard {owner : Nat} {id : Nat} {span : Span} {label : Option Ident} {exprs : List Expr}
      {tree : Tree} {siblings after : List Tree}
      (later : Derivation rules owner exprs siblings after) :
      Derivation rules owner (.wildcard id span label :: exprs) (tree :: siblings) after
  /-- A node match matches a node with its name if its elements match all children. -/
  | node {owner : Nat} {id : Nat} {span : Span} {label : Option Ident} {name : Ident}
      {children exprs : List Expr} {tree : Tree} {siblings after : List Tree}
      (hLabel : tree.label = name.name)
      (inner : Derivation rules owner children tree.children [])
      (later : Derivation rules owner exprs siblings after) :
      Derivation rules owner (.node id span label name children :: exprs) (tree :: siblings) after
  /-- A call matches what one of the alternatives of the rule matches. -/
  | call {owner : Nat} {id : Nat} {span : Span} {label : Option Ident} {name : Ident}
      {args : Option Fragment} {exprs : List Expr} {before middle after : List Tree}
      {callee : Nat} {rule : Rule} {index : Nat} {alternative : Alternative}
      (hCallee : rules.index? name.name = some callee) (hRule : rules[callee]? = some rule)
      (hChosen : rule.alternatives[index]? = some alternative)
      (body : Derivation rules callee alternative.elements before middle)
      (later : Derivation rules owner exprs middle after) :
      Derivation rules owner (.rule id span label name args :: exprs) before after
  /-- A group matches what one of its alternatives matches, and more if it may be repeated. -/
  | enter {owner : Nat} {id : Nat} {span : Span} {repetition : Repetition}
      {alternatives : List Alternative} {exprs : List Expr} {before middle after : List Tree}
      {index : Nat} {alternative : Alternative}
      (hChosen : alternatives[index]? = some alternative)
      (body : Derivation rules owner alternative.elements before middle)
      (later : Derivation rules owner (repetition.again id span alternatives ++ exprs)
        middle after) :
      Derivation rules owner (.subrule id span repetition alternatives :: exprs) before after
  /-- A group that may be left out matches no node. -/
  | leave {owner : Nat} {id : Nat} {span : Span} {repetition : Repetition}
      {alternatives : List Alternative} {exprs : List Expr} {before after : List Tree}
      (hSkip : repetition.maySkip = true) (later : Derivation rules owner exprs before after) :
      Derivation rules owner (.subrule id span repetition alternatives :: exprs) before after
  /-- An action matches no node. -/
  | action {owner : Nat} {id : Nat} {code : Fragment} {exprs : List Expr}
      {before after : List Tree} (later : Derivation rules owner exprs before after) :
      Derivation rules owner (.action id code :: exprs) before after
  /-- A predicate matches no node. -/
  | predicate {owner : Nat} {id : Nat} {code : Fragment} {exprs : List Expr}
      {before after : List Tree} (later : Derivation rules owner exprs before after) :
      Derivation rules owner (.predicate id code :: exprs) before after

/-- A derivation of the nodes in front of a list with one of the alternatives of a rule. -/
structure RuleDerivation (rules : Rules) (owner : Nat) (before after : List Tree) where
  rule : Rule
  hRule : rules[owner]? = some rule
  /-- The number of the alternative. -/
  index : Nat
  alternative : Alternative
  hChosen : rule.alternatives[index]? = some alternative
  body : Derivation rules owner alternative.elements before after

/-- A choice between the branches of a decision, with the nodes that remain to be matched then. -/
structure Choice where
  site : DecisionSite
  branch : Branch
  remaining : List Tree

/-- The choice of one of some alternatives of a rule or a plain group, if it needs a decision. -/
def Choice.ofAlternative (site : DecisionSite) (alternatives : List Alternative) (index : Nat)
    (remaining : List Tree) : List Choice :=
  if Alternative.needDecision alternatives then [⟨site, .alternative index, remaining⟩] else []

/-- The choice of one of the alternatives of a group. -/
def Choice.ofGroup (id : Nat) (repetition : Repetition) (alternatives : List Alternative)
    (index : Nat) (remaining : List Tree) : List Choice :=
  match repetition with
  | .once => ofAlternative (.subrule id) alternatives index remaining
  | _ => [⟨.subrule id, .alternative index, remaining⟩]

/-- What a derivation does from left to right. -/
inductive Deed where
  /-- A node is matched. What its children are matched with comes next. -/
  | pass (node : Tree)
  /-- An action of the rule with the number `owner` is run. -/
  | run (owner : Nat) (code : Fragment)

/-- The action that is run, with the number of its rule. -/
def Deed.action? : Deed → Option (Nat × Fragment)
  | pass _ => none
  | run owner code => some (owner, code)

namespace Derivation

variable {rules : Rules}

/-- The choices at the decisions that a derivation passes, from left to right. -/
def choices {owner : Nat} {exprs : List Expr} {before after : List Tree} :
    Derivation rules owner exprs before after → List Choice
  | done => []
  | token _ later | wildcard later | action later | predicate later => later.choices
  | node _ inner later => inner.choices ++ later.choices
  | @call _ _ _ _ _ _ _ _ before _ _ callee rule index _ _ _ _ body later =>
    Choice.ofAlternative (.rule callee) rule.alternatives index before ++ body.choices ++
      later.choices
  | @enter _ _ id _ repetition alternatives _ before _ _ index _ _ body later =>
    Choice.ofGroup id repetition alternatives index before ++ body.choices ++ later.choices
  | @leave _ _ id _ _ _ _ before _ _ later => ⟨.subrule id, .exit, before⟩ :: later.choices

/-- The actions in a derivation, from left to right, each with the number of its rule. -/
def actions {owner : Nat} {exprs : List Expr} {before after : List Tree} :
    Derivation rules owner exprs before after → List (Nat × Fragment)
  | done => []
  | token _ later | wildcard later | leave _ later | predicate later => later.actions
  | node _ inner later => inner.actions ++ later.actions
  | call _ _ _ body later | enter _ body later => body.actions ++ later.actions
  | @action _ owner _ code _ _ _ later => (owner, code) :: later.actions

/-- The nodes and the actions in a derivation, from left to right. -/
def deeds {owner : Nat} {exprs : List Expr} {before after : List Tree} :
    Derivation rules owner exprs before after → List Deed
  | done => []
  | @token _ _ _ _ _ _ _ tree _ _ _ later => .pass tree :: later.deeds
  | @wildcard _ _ _ _ _ _ tree _ _ later => .pass tree :: later.deeds
  | @node _ _ _ _ _ _ _ _ tree _ _ _ inner later => .pass tree :: (inner.deeds ++ later.deeds)
  | leave _ later | predicate later => later.deeds
  | call _ _ _ body later | enter _ body later => body.deeds ++ later.deeds
  | @action _ owner _ code _ _ _ later => .run owner code :: later.deeds

theorem actions_eq {owner : Nat} {exprs : List Expr} {before after : List Tree}
    (derivation : Derivation rules owner exprs before after) :
    derivation.actions = derivation.deeds.filterMap Deed.action? := by
  induction derivation with
  | done => rfl
  | token _ later ih | wildcard later ih | leave _ later ih | predicate later ih => exact ih
  | action later ih => exact congrArg _ ih
  | node _ inner later ihInner ih | call _ _ _ inner later ihInner ih
  | enter _ inner later ihInner ih =>
    simp only [actions, deeds, List.filterMap_append, List.filterMap_cons, Deed.action?, ihInner, ih]

/-- Two sequences that come one after the other derive what both of them derive. -/
theorem exists_append {owner : Nat} {xs ys : List Expr} {before middle after : List Tree}
    (first : Derivation rules owner xs before middle)
    (second : Derivation rules owner ys middle after) :
    ∃ derivation : Derivation rules owner (xs ++ ys) before after,
      derivation.deeds = first.deeds ++ second.deeds := by
  induction first with
  | done => exact ⟨second, rfl⟩
  | token hLabel later ih =>
    obtain ⟨derivation, hDeeds⟩ := ih second
    exact ⟨.token hLabel derivation, congrArg _ hDeeds⟩
  | wildcard later ih =>
    obtain ⟨derivation, hDeeds⟩ := ih second
    exact ⟨.wildcard derivation, congrArg _ hDeeds⟩
  | leave hSkip later ih =>
    obtain ⟨derivation, hDeeds⟩ := ih second
    exact ⟨.leave hSkip derivation, hDeeds⟩
  | predicate later ih =>
    obtain ⟨derivation, hDeeds⟩ := ih second
    exact ⟨.predicate derivation, hDeeds⟩
  | action later ih =>
    obtain ⟨derivation, hDeeds⟩ := ih second
    exact ⟨.action derivation, congrArg _ hDeeds⟩
  | node hLabel inner later _ ih =>
    obtain ⟨derivation, hDeeds⟩ := ih second
    refine ⟨.node hLabel inner derivation, ?_⟩
    simp only [deeds, hDeeds, List.append_assoc, List.cons_append]
  | call hCallee hRule hChosen body later _ ih =>
    obtain ⟨derivation, hDeeds⟩ := ih second
    refine ⟨.call hCallee hRule hChosen body derivation, ?_⟩
    simp only [deeds, hDeeds, List.append_assoc]
  | enter hChosen body later _ ih =>
    have hLater := ih second
    rw [List.append_assoc] at hLater
    obtain ⟨derivation, hDeeds⟩ := hLater
    refine ⟨.enter hChosen body derivation, ?_⟩
    simp only [deeds, hDeeds, List.append_assoc]

end Derivation

namespace RuleDerivation

variable {rules : Rules} {owner : Nat} {before after : List Tree}

/-- The choices at the decisions that a derivation passes, from left to right. -/
def choices (derivation : RuleDerivation rules owner before after) : List Choice :=
  Choice.ofAlternative (.rule owner) derivation.rule.alternatives derivation.index before ++
    derivation.body.choices

/-- The actions in a derivation, from left to right, each with the number of its rule. -/
def actions (derivation : RuleDerivation rules owner before after) : List (Nat × Fragment) :=
  derivation.body.actions

/-- The nodes and the actions in a derivation, from left to right. -/
def deeds (derivation : RuleDerivation rules owner before after) : List Deed :=
  derivation.body.deeds

end RuleDerivation

end TreeGrammar
