import TreeGrammar.Proofs.Analysis.Verdict
import TreeGrammar.Proofs.Lookahead.Table
import TreeGrammar.Proofs.Program.Procedures

/-!
# Decisions where code is generated

The generation of code goes through the elements of a rule on its own, and asks for the decision at
each place; where it finds none, it takes the alternatives one after the other. Since the decisions
are a table, whatever has been read of a text, it finds the decision that has been made for the
place, with a candidate for each alternative, and it finds none only where one alternative without
guard is taken exactly once.

## Main definitions

* `Grammar.FindsDecisions`: the generation of code finds what it looks for

## Main results

* `Grammar.decisions_exact`: the decisions of every grammar that is analysed
-/

namespace TreeGrammar

/-- The generation of code finds the decisions that have been made. -/
structure Grammar.FindsDecisions (grammar : Grammar) : Prop where
  /-- What is found at a place is the decision for this place. -/
  found : ∀ site decision, grammar.decisionAt? site = some decision ↔
    decision ∈ grammar.decisions ∧ decision.site = site
  /-- There is a candidate for each alternative. -/
  candidates : ∀ site decision, grammar.decisionAt? site = some decision →
    ∀ repetition alternatives, grammar.rules.StandsAt site repetition alternatives →
      ∀ i < alternatives.length, i < decision.candidates.length
  /-- A group that may be left out or repeated becomes a choice of this kind at its decision, with an
  arm for each alternative. -/
  groups : ∀ (index : Nat) (rule : Rule) (id : Nat) (span : Span) (repetition : Repetition)
    (alternatives : List Alternative), grammar.rules[index]? = some rule →
      rule.Holds (.subrule id span repetition alternatives) → repetition ≠ .once →
      ∀ (cursor : CursorVariable) (last : Nat), ∃ kind decision arms,
        (((Expr.subrule id span repetition alternatives).step (grammar.context index)
          cursor).run last).1 = .choice cursor kind decision arms ∧
        kind.repetition = repetition ∧ grammar.decisionAt? (.subrule id) = some decision ∧
        arms.length = alternatives.length
  /-- The steps of the procedure of a rule stand for the rule: alternatives are taken without a
  choice only where there is one of them, without guard, that is taken once. -/
  steps : ∀ (index : Nat) (rule : Rule), grammar.rules[index]? = some rule →
    ∃ procedure, grammar.program.procedures[index]? = some procedure ∧
      rule.Built (grammar.context index) procedure.steps

namespace Grammar

variable {grammar : Grammar}

/-- In a table, looking for a place finds the only decision there. -/
theorem decisionAt?_eq_some_iff (hSites : (grammar.decisions.map Decision.site).Nodup)
    {site : DecisionSite} {decision : Decision} : grammar.decisionAt? site = some decision ↔
      decision ∈ grammar.decisions ∧ decision.site = site := by
  constructor
  · intro h
    exact ⟨List.mem_of_find?_eq_some h, of_decide_eq_true (List.find?_some h :)⟩
  · rintro ⟨hMem, hSite⟩
    obtain ⟨found, hFound⟩ := Option.isSome_iff_exists.1
      (List.find?_isSome.2 ⟨decision, hMem, decide_eq_true hSite⟩ :
        (grammar.decisionAt? site).isSome)
    have hFoundSite : found.site = site := of_decide_eq_true (List.find?_some hFound :)
    obtain rfl := List.inj_on_of_nodup_map hSites (List.mem_of_find?_eq_some hFound) hMem
      (hFoundSite.trans hSite.symm)
    exact hFound

theorem length_arms {context : BuildContext} {cursor : CursorVariable}
    {predictions : List LookaheadSet} {alternatives : List Alternative}
    (h : predictions.length = alternatives.length) (last : Nat) :
    ((Alternative.arms context cursor predictions alternatives).run last).1.length =
      alternatives.length := by
  induction alternatives generalizing predictions last with
  | nil =>
    obtain rfl := List.length_eq_zero_iff.1 h
    rw [Alternative.arms_nil]
    rfl
  | cons alternative alternatives ih =>
    obtain ⟨guard, elements, span⟩ := alternative
    cases predictions with
    | nil => cases h
    | cons prediction predictions =>
      rw [Alternative.arms]
      exact congrArg (· + 1) (ih (Nat.succ.inj h) _)

/-- If the decisions are a table, then what has been made for a place is found there. -/
theorem findsDecisions_of_isTable {first : String → FirstSet}
    (hTable : grammar.rules.IsTable first grammar.decisions) (hSettled : grammar.IsSettled) :
    grammar.FindsDecisions := by
  have hFound : ∀ site decision, grammar.decisionAt? site = some decision ↔
      decision ∈ grammar.decisions ∧ decision.site = site :=
    fun _ _ => decisionAt?_eq_some_iff hTable.sites
  have hLength : ∀ site decision, grammar.decisionAt? site = some decision →
      ∀ repetition alternatives, grammar.rules.StandsAt site repetition alternatives →
        decision.candidates.length = alternatives.length := by
    intro site decision hDecision repetition alternatives hStands
    obtain ⟨hMem, rfl⟩ := (hFound site decision).1 hDecision
    obtain ⟨follow, hCandidates⟩ := (hTable.fits decision hMem _ _ hStands).candidates
    exact hCandidates.length_eq
  refine ⟨hFound, ?candidates, ?groups, ?steps⟩
  case candidates =>
    intro site decision hDecision repetition alternatives hStands i hi
    exact hLength site decision hDecision repetition alternatives hStands ▸ hi
  case groups =>
    intro index rule id span repetition alternatives hRule hGroup hNot cursor last
    have hStands : grammar.rules.StandsAt (.subrule id) repetition alternatives :=
      .subrule (List.mem_of_getElem? hRule) hGroup
    obtain ⟨decision, hMem, hSite⟩ := List.mem_map.1
      ((hTable.places (.subrule id)).2 ⟨repetition, alternatives, hStands, .inl hNot⟩)
    have hDecision := (hFound (.subrule id) decision).2 ⟨hMem, hSite⟩
    have hContext : (grammar.context index).decisionAt? (.subrule id) = some decision := hDecision
    have hPredictions : (decision.candidates.map (·.prediction)).length = alternatives.length :=
      (List.length_map _).trans (hLength _ _ hDecision _ _ hStands)
    rw [Expr.step, hContext]
    exact ⟨_, decision, _, rfl, (repetition.choiceKind_spec last).1, hDecision,
      length_arms hPredictions _⟩
  case steps =>
    intro index rule hRule
    refine ⟨grammar.procedure index rule, ?_, hSettled.built hRule⟩
    rw [getElem?_procedures, hRule]
    rfl

variable {source : List Char} {options : Options}

/-- A grammar that is analysed has the decisions of its rules, which are rules of the text. -/
theorem rules_of_analyse (h : (analyse source options).grammar = some grammar) :
    grammar.rules = (SourceGrammar.parse source).2.rules.distinct ∧
      grammar.decisions = grammar.rules.decisions grammar.rules.first grammar.rules.follows := by
  cases hRules : (SourceGrammar.parse source).2.rules.isEmpty with
  | true => simp [analyse, hRules] at h
  | false =>
    rw [analyse_of_rules source options hRules] at h
    obtain rfl := Option.some.inj h
    exact ⟨rfl, rfl⟩

/-- The decisions of every grammar that is analysed, be it accepted or not, are a table, and the
generation of code finds in it what it looks for. -/
theorem decisions_exact (h : (analyse source options).grammar = some grammar) :
    grammar.rules.IsTable grammar.rules.first grammar.decisions ∧ grammar.FindsDecisions := by
  obtain ⟨hRules, hDecisions⟩ := rules_of_analyse h
  have hNumbers := SourceGrammar.wellNumbered_parse source
  -- rules that are declared again are left out, the elements of the others stay
  have hExprs : grammar.rules.exprs.Sublist (SourceGrammar.parse source).2.rules.exprs := by
    rw [hRules, Rules.distinct, exprs_map_distinct]
    exact (firstOfNames_sublist Rule.name _).flatMap Rule.exprs
  have hIds : (grammar.rules.exprs.map Expr.id).Nodup :=
    (hNumbers.increasing.sublist (hExprs.map Expr.id)).imp Nat.ne_of_lt
  have hSettled : grammar.IsSettled := by
    refine ⟨?_, fun expr hExpr => hNumbers.hasAlternatives expr (hExprs.subset hExpr), ?_⟩
    · rw [hDecisions]
      exact Rules.settled_decisions hIds
    · rw [hRules, Rules.distinct]
      refine List.forall_mem_map.2 fun rule hRule => ?_
      exact hNumbers.alternatives rule ((firstOfNames_sublist Rule.name _).subset hRule)
  have hTable : grammar.rules.IsTable grammar.rules.first
      (grammar.rules.decisions grammar.rules.first grammar.rules.follows) :=
    Rules.isTable_decisions hIds (Rules.length_follows grammar.rules)
  rw [← hDecisions] at hTable
  exact ⟨hTable, findsDecisions_of_isTable hTable hSettled⟩

end Grammar

namespace Sample

/-- The group of the small grammar becomes a choice with one arm at the decision that has been made
for it. -/
theorem decisions_exact_group : (analyse source {}).grammar = some grammar ∧
    ∃ kind arms, (((Expr.subrule 2 (place 12) .optional group).step (grammar.context 1)
      .given).run 0).1 = .choice .given kind decision arms ∧
      kind.repetition = .optional ∧ arms.length = 1 := by
  have hGrammar : (analyse source {}).grammar = some grammar :=
    (Option.ite_none_right_eq_some.1 accepted).2
  have hHolds : callee.Holds (.subrule 2 (place 12) .optional group) :=
    ⟨_, List.mem_cons_self, .refl⟩
  obtain ⟨-, hFinds⟩ := Grammar.decisions_exact hGrammar
  obtain ⟨kind, found, arms, hStep, hKind, hFound, hArms⟩ :=
    hFinds.groups 1 callee 2 (place 12) .optional group rfl hHolds (by simp) .given 0
  obtain rfl : decision = found := Option.some.inj hFound
  exact ⟨hGrammar, kind, arms, hStep, hKind, hArms⟩

end Sample

end TreeGrammar
