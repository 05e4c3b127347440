import TreeGrammar.Proofs.Analysis.Accepted

/-!
# Accepted grammars predict what they derive

The lookahead sets of an accepted grammar are complete: whatever list of roots is derived, the
branches that the derivation takes are predicted at their decisions.

## Main results

* `Grammar.Checked.admits_choices`: the choices of a derivation are predicted
* `Grammar.admits_derivation`: no derivation of a list of roots is ruled out by a decision
-/

namespace TreeGrammar

/-- The choices of a derivation of a list of roots are predicted at their decisions. -/
theorem Grammar.Checked.admits_choices {grammar : Grammar} (hChecked : grammar.Checked)
    {entry : Nat} (hEntry : entry ∈ grammar.rules.entries) {roots : List Tree}
    (derivation : RuleDerivation grammar.rules entry roots []) :
    ∀ choice ∈ derivation.choices, ∃ decision,
      grammar.decisionAt? choice.site = some decision ∧ decision.Admits choice := by
  -- whoever starts a walk has consumed all nodes at its end
  have hEnd : (grammar.rules.follow entry).accepts (Tree.firstLabel? []) :=
    LookaheadSet.accepts_mono (Rules.endOfList_le_of_entry hEntry) rfl
  exact derivation.admits_choices hChecked.settled hEnd

/-- No derivation of a list of roots is ruled out by a decision of an accepted grammar: where the
derivation enters an alternative, the prediction of the alternative accepts the label of the next
node, or the end of the list if no node remains, and where it leaves a group, the exit of the
decision does. -/
theorem Grammar.admits_derivation {source : List Char} {options : Options} {grammar : Grammar}
    (hAccepted : (analyse source options).accepted? = some grammar) {entry : Nat}
    (hEntry : entry ∈ grammar.rules.entries) {roots : List Tree}
    (derivation : RuleDerivation grammar.rules entry roots []) :
    ∀ choice ∈ derivation.choices, ∃ decision,
      grammar.decisionAt? choice.site = some decision ∧ decision.Admits choice :=
  (Grammar.checked_of_accepted hAccepted).admits_choices hEntry derivation

namespace Sample

/-- A derivation of a single node in the small grammar, which enters the optional group. -/
def derivation (tree : Tree) : RuleDerivation grammar.rules 0 [tree] [] where
  rule := caller
  hRule := rfl
  index := 0
  alternative := .mk none [.rule 0 (place 8) none ⟨"t", place 8⟩ none] (place 8)
  hChosen := rfl
  body :=
    have hCallee : grammar.rules.index? "t" = some 1 := by decide
    have hRule : grammar.rules[1]? = some callee := rfl
    have hChosen : callee.alternatives[0]? =
      some (.mk none [.subrule 2 (place 12) .optional group, .action 3 code] (place 12)) := rfl
    have hGroup : group[0]? = some (.mk none [.wildcard 1 (place 12) none] (place 12)) := rfl
    .call hCallee hRule hChosen (.enter hGroup (.wildcard .done) (.action .done)) .done

/-- The derivation of a node makes a choice at the decision of the small grammar, which admits
it. -/
theorem admits_derivation_leaf :
    (derivation (.leaf "a" "")).choices = [⟨.subrule 2, .alternative 0, [.leaf "a" ""]⟩] ∧
      ∀ choice ∈ (derivation (.leaf "a" "")).choices, ∃ decision,
        grammar.decisionAt? choice.site = some decision ∧ decision.Admits choice :=
  ⟨rfl, Grammar.admits_derivation accepted (by decide) (derivation (.leaf "a" ""))⟩

end Sample

end TreeGrammar
