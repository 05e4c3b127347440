import TreeGrammar.Proofs.Analysis.Accepted
import TreeGrammar.Proofs.Program.Built

/-!
# The procedures of an accepted grammar

The program of a grammar has a procedure for each rule, under the number and the name of the rule.
If the grammar is accepted, then the steps of the procedure stand for the alternatives of the rule.

## Main definitions

* `Grammar.IsSettled`: what the steps of a procedure rely on

## Main results

* `Grammar.getElem?_procedures`, `Grammar.findIdx?_procedures`: procedures by number and by name
* `Grammar.IsSettled.built`, `Grammar.Checked.built`: the steps of a procedure stand for the rule
-/

namespace TreeGrammar

/-- What is known where the steps of a rule are built. -/
def Grammar.context (grammar : Grammar) (rule : Nat) : BuildContext where
  scopes := grammar.scopes
  variants := grammar.rules.scopeNames
  decisions := grammar.decisions
  rule := rule

/-- The procedure of a rule. -/
def Grammar.procedure (grammar : Grammar) (index : Nat) (rule : Rule) : Procedure where
  rule := rule
  isEntry := index ∈ grammar.rules.entries
  variant := grammar.rules.scopeNames[index]?.join
  steps := rule.steps (grammar.context index)

namespace Grammar

variable {grammar : Grammar}

theorem getElem?_procedures (index : Nat) :
    grammar.program.procedures[index]? = grammar.rules[index]?.map (grammar.procedure index) := by
  simp only [program, List.getElem?_map, List.getElem?_zipIdx, Option.map_map, Nat.zero_add]
  rfl

theorem length_procedures : grammar.program.procedures.length = grammar.rules.length := by
  simp only [program, List.length_map, List.length_zipIdx]

theorem map_rule_procedures :
    grammar.program.procedures.map Procedure.rule = grammar.rules := by
  simp only [program, List.map_map]
  exact List.zipIdx_map_fst 0 grammar.rules

theorem findIdx?_procedures (name : String) :
    grammar.program.procedures.findIdx? (·.name = name) = grammar.rules.index? name := by
  rw [Rules.index?, ← map_rule_procedures, List.findIdx?_map]
  rfl

/-- The frames in a call: one more if the rule that is called declares attributes. -/
def pushed (grammar : Grammar) (rule level : Nat) (frame : Frame Scope) : Frame Scope :=
  match grammar.rules.scopeNames[rule]?.join with
  | some variant => .push ⟨variant, rule, level⟩ frame
  | none => frame

/-- What a call of the rule with the given number does not change. -/
def activation (grammar : Grammar) (frame : Frame Scope) (active : List Invocation) (number : Nat)
    (rule : Rule) (cursor : Cursor) : Activation where
  procedure := number
  name := rule.name.name
  frame := grammar.pushed number (active.length + 1) frame
  active := ⟨number, cursor⟩ :: active

/-- A call takes the steps of the rule between entering and leaving it. -/
theorem enter_program {number : Nat} {rule : Rule} (hRule : grammar.rules[number]? = some rule)
    (run : Runner) (frame : Frame Scope) (active : List Invocation) (cursor : Cursor)
    (walk : Walk) : grammar.program.enter run frame active number cursor walk =
      (Outcome.ofWalker walk (walk.walker.enter rule.name.name)).andThen fun _ walk =>
        ((run (grammar.activation frame active number rule cursor)
          (rule.steps (grammar.context number)) (fun _ => cursor)
          (walk.record (.entered (⟨number, cursor⟩ :: active)))).andThen fun cursors walk =>
            .finished (cursors .given) walk).leave := by
  rw [Program.enter, getElem?_procedures, hRule]
  rfl

/-- What the steps of a rule do is what a call of it does. -/
theorem enter_ensures {number : Nat} {rule : Rule} (hRule : grammar.rules[number]? = some rule)
    {run : Runner} {frame : Frame Scope} {active : List Invocation} {cursor : Cursor}
    {walk : Walk} {p : Cursors → Walk → Prop} {e : Failure → Prop}
    (hBound : ∀ failure : Failure, failure.IsBound → e failure)
    (hSteps : ∀ inner : Walk,
      inner.history = walk.history ++ [.entered (⟨number, cursor⟩ :: active)] →
        (run (grammar.activation frame active number rule cursor)
          (rule.steps (grammar.context number)) (fun _ => cursor) inner).Ensures p e) :
    (grammar.program.enter run frame active number cursor walk).Ensures
      (fun next after => ∃ cursors inner, p cursors inner ∧ next = cursors .given ∧
        after.history = inner.history ++ [.left]) e := by
  rw [enter_program hRule]
  refine ((Walker.enter_ensures ..).mono (fun _ _ h => h) hBound).andThen fun _ entered h => ?_
  subst h
  refine Outcome.Ensures.mono (Outcome.Ensures.leave <| (hSteps _ rfl).andThen
    (r := fun next inner => ∃ cursors, p cursors inner ∧ next = cursors .given)
    fun cursors inner hInner => ⟨cursors, hInner, rfl⟩) ?_ fun _ h => h
  rintro next after ⟨inner, ⟨cursors, hInner, hNext⟩, rfl⟩
  exact ⟨cursors, inner, hInner, hNext, rfl⟩

section Decided

variable {decisions : List Decision} {decision : Decision} {site : DecisionSite}
  {follow : LookaheadSet} {alternatives : List Alternative} {exit : Option LookaheadSet}

theorem decided_of_offers (hDecision : TreeGrammar.decisionAt? decisions site = some decision)
    (hOffers : decision.Offers grammar.rules.first follow alternatives exit)
    {repetition : Repetition} (hNeed : repetition = .once → Alternative.needDecision alternatives) :
    Alternative.Decided (TreeGrammar.decisionAt? decisions site) repetition alternatives := by
  rw [hDecision]
  refine ⟨?_, hNeed⟩
  rw [hOffers.1, Alternative.candidates, List.length_map]

/-- Alternatives that are settled have a decision if there is something to choose. -/
theorem decided_of_settled (h : AlternativesSettled grammar.rules decisions site follow alternatives)
    (hNonempty : alternatives ≠ []) :
    Alternative.Decided (TreeGrammar.decisionAt? decisions site) .once alternatives := by
  rw [AlternativesSettled] at h
  split at h
  · next hNeed =>
    obtain ⟨decision, hDecision, hOffers⟩ := h
    exact decided_of_offers hDecision hOffers fun _ => hNeed
  · next hNeed =>
    rw [h]
    refine ⟨rfl, ?_⟩
    simp only [Alternative.needDecision, Bool.or_eq_true, decide_eq_true_eq, not_or,
      Bool.not_eq_true] at hNeed
    obtain ⟨hLength, hGuards⟩ := hNeed
    obtain _ | ⟨⟨guard, elements, span⟩, _ | ⟨other, others⟩⟩ := alternatives
    · exact absurd rfl hNonempty
    · obtain rfl : guard = none := by simpa [Alternative.isGuarded, Alternative.guard] using hGuards
      exact ⟨elements, span, rfl⟩
    · exact absurd (Nat.le_add_left 2 _) hLength

end Decided

/-- There is an alternative wherever one is taken, and the decisions fit. -/
structure IsSettled (grammar : Grammar) : Prop where
  settled : grammar.rules.Settled grammar.decisions
  groups : ∀ expr ∈ grammar.rules.exprs, expr.HasAlternatives
  alternatives : ∀ rule ∈ grammar.rules, rule.alternatives ≠ []

theorem Checked.isSettled (h : grammar.Checked) : grammar.IsSettled :=
  ⟨h.settled, h.groups, h.alternatives⟩

/-- The groups of a grammar are decided. -/
theorem IsSettled.decided (h : grammar.IsSettled) (index : Nat) {expr : Expr}
    (hExpr : expr ∈ grammar.rules.exprs) : expr.Decided (grammar.context index) := by
  have hPerm := Rules.perm_exprs grammar.rules.first (Rules.length_follows grammar.rules)
  obtain ⟨⟨expr, follow⟩, hOccurrence, rfl⟩ := List.mem_map.1 (hPerm.mem_iff.2 hExpr)
  have hSettled := h.settled.occurrence _ hOccurrence
  cases expr with
  | subrule id span repetition alternatives =>
    have hNonempty : alternatives ≠ [] := h.groups _ hExpr
    -- only a group that is matched once may do without a decision
    cases repetition with
    | once => exact decided_of_settled hSettled hNonempty
    | optional | star | plus =>
      obtain ⟨decision, hDecision, hOffers⟩ := hSettled
      exact decided_of_offers hDecision hOffers nofun
  | _ => trivial

/-- The steps of the procedure of a rule stand for the rule. -/
theorem IsSettled.built (h : grammar.IsSettled) {index : Nat} {rule : Rule}
    (hRule : grammar.rules[index]? = some rule) :
    rule.Built (grammar.context index) (rule.steps (grammar.context index)) := by
  have hMem : rule ∈ grammar.rules := List.mem_of_getElem? hRule
  have hDecided := decided_of_settled (h.settled.rule index rule hRule) (h.alternatives rule hMem)
  refine Rule.built_steps hDecided fun expr hExpr => h.decided index ?_
  exact List.mem_flatMap.2 ⟨rule, hMem, hExpr⟩

/-- The steps of the procedure of a rule of a checked grammar stand for the rule. -/
theorem Checked.built (h : grammar.Checked) {index : Nat} {rule : Rule}
    (hRule : grammar.rules[index]? = some rule) :
    rule.Built (grammar.context index) (rule.steps (grammar.context index)) :=
  h.isSettled.built hRule

end Grammar

end TreeGrammar
