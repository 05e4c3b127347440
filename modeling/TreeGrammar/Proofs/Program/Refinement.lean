import TreeGrammar.Proofs.Analysis.Predictions
import TreeGrammar.Proofs.Program.Completeness
import TreeGrammar.Proofs.Program.Soundness

/-!
# Walks find exactly the derivations

If an accepted grammar has no conflicts, no guards and no predicates, then its walks decide whether
trees are derived, and they run the actions of the derivation, of which there is one at most.

## Main results

* `Grammar.walk_refines_derivation`: walks find exactly the derivations
-/

namespace TreeGrammar

/-- In an accepted grammar without conflicts, guards and predicates, a walk from an entry succeeds
on a tree if and only if the entry derives the tree, provided that the depth of calls is not
limited. The tree has one derivation at most, and a walk that succeeds has run the actions of this
derivation from left to right. -/
theorem Grammar.walk_refines_derivation {source : List Char} {options : Options}
    {grammar : Grammar} (hAccepted : (analyse source options).accepted? = some grammar)
    (hPlain : grammar.IsPlain) {entry : Nat} (hEntry : entry ∈ grammar.rules.entries)
    (oracle : Oracle) (walker : Walker) (hLimit : walker.depthLimit = none) (tree : Tree) :
    ((∃ fuel walk, grammar.program.walk oracle fuel walker entry tree = .finished () walk) ↔
      Nonempty (RuleDerivation grammar.rules entry [tree] [])) ∧
    Subsingleton (RuleDerivation grammar.rules entry [tree] []) ∧
    ∀ (fuel : Nat) (walk : Walk) (derivation : RuleDerivation grammar.rules entry [tree] []),
      grammar.program.walk oracle fuel walker entry tree = .finished () walk →
        walk.actions = derivation.actions.map grammar.actionCode := by
  have hChecked := checked_of_accepted hAccepted
  have hPredicted : ∀ derivation : RuleDerivation grammar.rules entry [tree] [],
      Predicted grammar.decisions derivation.choices := hChecked.admits_choices hEntry
  have hUnique : ∀ derivation other : RuleDerivation grammar.rules entry [tree] [],
      derivation = other := fun derivation other =>
    derivation.unique hPlain.disjoint other (hPredicted derivation) (hPredicted other)
  refine ⟨⟨?sound, ?complete⟩, ⟨hUnique⟩, ?actions⟩
  case sound =>
    rintro ⟨fuel, walk, hWalk⟩
    obtain ⟨derivation, -⟩ := Program.exists_derivation hChecked hWalk
    exact ⟨derivation⟩
  case complete =>
    rintro ⟨derivation⟩
    exact Program.exists_walk hChecked hPlain hEntry derivation (hPredicted derivation) oracle
      hLimit
  case actions =>
    intro fuel walk derivation hWalk
    obtain ⟨found, hActions⟩ := Program.exists_derivation hChecked hWalk
    rw [hActions, hUnique found derivation]

namespace Sample

/-- The small grammar has no conflicts, no guards and no predicates. -/
theorem isPlain : grammar.IsPlain where
  disjoint := by
    intro decision' hMem
    obtain rfl := List.mem_singleton.1 hMem
    decide
  guards := by decide
  exprs := by
    have hExprs : grammar.rules.exprs = [.rule 0 (place 8) none ⟨"t", place 8⟩ none,
      .wildcard 1 (place 12) none, .subrule 2 (place 12) .optional group, .action 3 code] := rfl
    rw [hExprs]
    simp only [List.forall_mem_cons]
    exact ⟨trivial, trivial, rfl, trivial, nofun⟩

/-- A walk of the small grammar succeeds on a node, and it runs the action after the group. -/
theorem walk_refines_derivation_leaf :
    ∃ fuel walk, grammar.program.walk (fun _ _ => true) fuel {} 0 (.leaf "a" "") =
      .finished () walk ∧ walk.actions = [grammar.actionCode (1, code)] := by
  have hEntry : 0 ∈ grammar.rules.entries := by decide
  obtain ⟨hIff, -, hActions⟩ := Grammar.walk_refines_derivation accepted isPlain hEntry
    (fun _ _ => true) {} rfl (.leaf "a" "")
  obtain ⟨fuel, walk, hWalk⟩ := hIff.2 ⟨derivation (.leaf "a" "")⟩
  exact ⟨fuel, walk, hWalk, hActions fuel walk (derivation (.leaf "a" "")) hWalk⟩

end Sample

end TreeGrammar
