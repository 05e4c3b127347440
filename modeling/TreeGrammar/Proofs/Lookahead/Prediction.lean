import TreeGrammar.Proofs.Grammar.Derivation
import TreeGrammar.Proofs.Lookahead.FixedPoint

/-!
# Predictions admit derivations

What the elements of a sequence may start with is computed without any tree. Here it is compared
with the derivations of lists of siblings: no derivation is ruled out by a prediction or by the exit
of a decision.

## Main definitions

* `Decision.Admits`: a choice is predicted at a decision
* `Occurrence.Settled`, `Rules.Settled`: the decisions and the sets of rules fit what follows the
  elements

## Main results

* `Derivation.predict_accepts`: a derived list starts with what the elements may start with
* `Derivation.admits_choices`: the choices of a derivation are predicted
-/

namespace TreeGrammar

variable {rules : Rules}

/-! ### What derived lists start with -/

namespace FirstSet

variable {a b : FirstSet} {f g : LookaheadSet}

theorem predict_nothing_andThen (b : FirstSet) (f : LookaheadSet) :
    b.predict f ≤ (nothing.andThen b).predict f := by
  have hSet : (nothing.andThen b).set = (∅ : LookaheadSet).union b.set := rfl
  refine predict_mono ⟨?_, id⟩ (le_refl f)
  exact hSet ▸ LookaheadSet.le_union_right ..

theorem predict_orNothing_andThen (a b : FirstSet) (f : LookaheadSet) :
    b.predict f ≤ (a.orNothing.andThen b).predict f := by
  refine predict_mono ⟨?_, id⟩ (le_refl f)
  exact LookaheadSet.le_union_right a.set b.set

/-- Where a group may be repeated, its own first nodes may follow it. -/
theorem orNothing_andThen_predict_le (a b : FirstSet) (f : LookaheadSet) :
    (a.orNothing.andThen b).predict f ≤ (b.predict f).union a.set := by
  have hSet : (a.orNothing.andThen b).set = a.set.union b.set := rfl
  have hNullable : (a.orNothing.andThen b).nullable = b.nullable := rfl
  have hUnion : a.set.union b.set ≤ (b.predict f).union a.set :=
    LookaheadSet.union_le (LookaheadSet.le_union_right ..)
      ((set_le_predict b f).trans (LookaheadSet.le_union_left ..))
  rw [predict, hSet, hNullable]
  split
  · next h =>
    exact LookaheadSet.union_le hUnion
      ((follow_le_predict h).trans (LookaheadSet.le_union_left ..))
  · exact hUnion

theorem predict_union_set_le (a : FirstSet) (f : LookaheadSet) :
    a.predict (f.union a.set) ≤ a.predict f := by
  by_cases h : a.nullable
  · rw [predict, if_pos h]
    exact LookaheadSet.union_le (set_le_predict a f)
      (LookaheadSet.union_le (follow_le_predict h) (set_le_predict a f))
  · rw [predict, if_neg h]
    exact set_le_predict a f

theorem le_orNothing (a : FirstSet) : a ≤ a.orNothing := ⟨le_refl _, fun _ => rfl⟩

end FirstSet

theorem LookaheadSet.accepts_ofLabel {label name : String} (h : label = name) :
    (ofLabel name).accepts (some label) := by
  have hMem : label ∈ (ofLabel name).labels := LabelSet.mem_singleton.2 h
  simp [accepts, acceptsLabel, hMem]

/-- What one of some alternatives may start with. -/
theorem sequenceFirst_le_alternativesFirst {first : String → FirstSet} {index : Nat}
    {alternatives : List Alternative} {alternative : Alternative}
    (h : alternatives[index]? = some alternative) :
    Alternative.sequenceFirst first alternative.elements ≤
      Alternative.alternativesFirst first alternatives := by
  induction alternatives generalizing index with
  | nil => cases h
  | cons head alternatives ih =>
    obtain ⟨guard, elements, span⟩ := head
    cases index with
    | zero =>
      obtain rfl : Alternative.mk guard elements span = alternative := Option.some.inj h
      exact FirstSet.le_orElse_left ..
    | succ index => exact (ih h).trans (FirstSet.le_orElse_right ..)

theorem alternativesFirst_le_first {first : String → FirstSet} {id : Nat} {span : Span}
    {repetition : Repetition} {alternatives : List Alternative} :
    Alternative.alternativesFirst first alternatives ≤
      (Expr.subrule id span repetition alternatives).first first := by
  rw [Expr.first]
  split
  · exact FirstSet.le_orNothing _
  · exact le_refl _

/-- What follows one round of a group, if `follow` follows the group. -/
def Repetition.followOfRound (repetition : Repetition) (first : String → FirstSet)
    (follow : LookaheadSet) (alternatives : List Alternative) : LookaheadSet :=
  if repetition.isRepeat then follow.union (Alternative.alternativesFirst first alternatives).set
  else follow

/-- What may come after one round of a group is what follows the round. -/
theorem again_predict_le (first : String → FirstSet) (id : Nat) (span : Span)
    (repetition : Repetition) (alternatives : List Alternative) (exprs : List Expr)
    (f : LookaheadSet) :
    (Alternative.sequenceFirst first (repetition.again id span alternatives ++ exprs)).predict f ≤
      repetition.followOfRound first ((Alternative.sequenceFirst first exprs).predict f)
        alternatives := by
  rw [Repetition.again, Repetition.followOfRound]
  split
  · exact FirstSet.orNothing_andThen_predict_le ..
  · exact le_refl _

/-- A round that starts a group is predicted by the group. -/
theorem predict_followOfRound_le (first : String → FirstSet) (repetition : Repetition)
    (alternatives : List Alternative) (f : LookaheadSet) :
    (Alternative.alternativesFirst first alternatives).predict
      (repetition.followOfRound first f alternatives) ≤
        (Alternative.alternativesFirst first alternatives).predict f := by
  rw [Repetition.followOfRound]
  split
  · exact FirstSet.predict_union_set_le ..
  · exact le_refl _

/-- A derived list starts with what its elements may start with: if the set `f` accepts the nodes
that are left, then the elements followed by `f` predict the list. -/
theorem Derivation.predict_accepts {owner : Nat} {exprs : List Expr} {before after : List Tree}
    (derivation : Derivation rules owner exprs before after) {f : LookaheadSet}
    (h : f.accepts (Tree.firstLabel? after)) :
    ((Alternative.sequenceFirst rules.first exprs).predict f).accepts
      (Tree.firstLabel? before) := by
  induction derivation generalizing f with
  | done => exact LookaheadSet.accepts_mono (FirstSet.follow_le_predict rfl) h
  | token hLabel _ _ => exact LookaheadSet.accepts_ofLabel hLabel
  | wildcard _ _ => rfl
  | node hLabel _ _ _ _ => exact LookaheadSet.accepts_ofLabel hLabel
  | @call _ _ _ _ name _ _ _ _ _ _ _ _ alternative hCallee hRule hChosen _ _ ihBody ihLater =>
    have hFirst : Alternative.sequenceFirst rules.first alternative.elements ≤
        rules.first name.name := by
      rw [Rules.first_eq hCallee hRule]
      exact sequenceFirst_le_alternativesFirst hChosen
    refine LookaheadSet.accepts_mono ?_ (ihBody (ihLater h))
    exact (FirstSet.predict_mono hFirst (le_refl _)).trans (FirstSet.predict_andThen ..)
  | @enter _ id span repetition alternatives exprs _ _ _ _ alternative hChosen _ _ ihBody ihLater =>
    let rest := (Alternative.sequenceFirst rules.first exprs).predict f
    have hBody := ihBody (LookaheadSet.accepts_mono (again_predict_le ..) (ihLater h))
    refine LookaheadSet.accepts_mono ?_ hBody
    calc (Alternative.sequenceFirst rules.first alternative.elements).predict
          (repetition.followOfRound rules.first rest alternatives)
        ≤ (Alternative.alternativesFirst rules.first alternatives).predict
          (repetition.followOfRound rules.first rest alternatives) :=
          FirstSet.predict_mono (sequenceFirst_le_alternativesFirst hChosen) (le_refl _)
      _ ≤ (Alternative.alternativesFirst rules.first alternatives).predict rest :=
          predict_followOfRound_le ..
      _ ≤ ((Expr.subrule id span repetition alternatives).first rules.first).predict rest :=
          FirstSet.predict_mono alternativesFirst_le_first (le_refl _)
      _ ≤ _ := FirstSet.predict_andThen ..
  | @leave _ id span repetition alternatives exprs _ _ hSkip _ ihLater =>
    refine LookaheadSet.accepts_mono ?_ (ihLater h)
    rw [Alternative.sequenceFirst, Expr.first, if_pos hSkip]
    exact FirstSet.predict_orNothing_andThen ..
  | action _ ihLater =>
    exact LookaheadSet.accepts_mono (FirstSet.predict_nothing_andThen ..) (ihLater h)
  | predicate _ ihLater =>
    exact LookaheadSet.accepts_mono (FirstSet.predict_nothing_andThen ..) (ihLater h)

/-! ### Decisions that fit -/

/-- The first decision at a place. -/
def decisionAt? (decisions : List Decision) (site : DecisionSite) : Option Decision :=
  decisions.find? (·.site = site)

/-- A decision chooses between some alternatives, where `follow` may be seen after them. -/
def Decision.Offers (decision : Decision) (first : String → FirstSet) (follow : LookaheadSet)
    (alternatives : List Alternative) (exit : Option LookaheadSet) : Prop :=
  decision.candidates = Alternative.candidates first follow alternatives ∧ decision.exit = exit

/-- A choice is predicted at a decision: the decision has the branch, and the branch accepts the
next label, or the end if no node remains. -/
def Decision.Admits (decision : Decision) (choice : Choice) : Prop :=
  match choice.branch with
  | .alternative index => ∃ candidate, decision.candidates[index]? = some candidate ∧
      candidate.prediction.accepts (Tree.firstLabel? choice.remaining)
  | .exit => ∃ exit, decision.exit = some exit ∧
      exit.accepts (Tree.firstLabel? choice.remaining)

/-- Alternatives of which one has to be taken have the decision that they need, and no other one. -/
def AlternativesSettled (rules : Rules) (decisions : List Decision) (site : DecisionSite)
    (follow : LookaheadSet) (alternatives : List Alternative) : Prop :=
  if Alternative.needDecision alternatives then
    ∃ decision, decisionAt? decisions site = some decision ∧
      decision.Offers rules.first follow alternatives none
  else decisionAt? decisions site = none

/-- An element fits what follows it: the set of a rule that it calls has what follows the call, and
if the element is a group, then it has the decision that it needs. -/
def Occurrence.Settled (rules : Rules) (decisions : List Decision) (occurrence : Occurrence) :
    Prop :=
  match occurrence.expr with
  | .rule _ _ _ name _ => ∀ callee, rules.index? name.name = some callee →
      occurrence.follow ≤ rules.follow callee
  | .subrule id _ .once alternatives =>
    AlternativesSettled rules decisions (.subrule id) occurrence.follow alternatives
  | .subrule id _ repetition alternatives => ∃ decision,
      decisionAt? decisions (.subrule id) = some decision ∧
      decision.Offers rules.first
        (repetition.followOfRound rules.first occurrence.follow alternatives) alternatives
        (some occurrence.follow)
  | _ => True

/-- All elements and all rules fit what follows them. -/
structure Rules.Settled (rules : Rules) (decisions : List Decision) : Prop where
  occurrence : ∀ occurrence ∈ rules.occurrences rules.first rules.follows,
    occurrence.Settled rules decisions
  rule : ∀ (i : Nat) (rule : Rule), rules[i]? = some rule →
    AlternativesSettled rules decisions (.rule i) (rules.follow i) rule.alternatives

section Settled

variable {decisions : List Decision} {decision : Decision} {follow : LookaheadSet}
  {alternatives : List Alternative} {alternative : Alternative} {exit : Option LookaheadSet}
  {index : Nat} {remaining : List Tree}

theorem Decision.Offers.admits_alternative
    (h : decision.Offers rules.first follow alternatives exit)
    (hChosen : alternatives[index]? = some alternative) (site : DecisionSite)
    (hAccepts : ((Alternative.sequenceFirst rules.first alternative.elements).predict
      follow).accepts (Tree.firstLabel? remaining)) :
    decision.Admits ⟨site, .alternative index, remaining⟩ := by
  have hCandidate : decision.candidates[index]? = some
      { prediction := (alternative.first rules.first).predict follow
        guarded := alternative.isGuarded
        nullable := (alternative.first rules.first).nullable } := by
    rw [h.1, Alternative.candidates, List.getElem?_map, hChosen]
    rfl
  exact ⟨_, hCandidate, hAccepts⟩

/-- The choice of an alternative is predicted where the alternatives are settled. -/
theorem AlternativesSettled.admits {site : DecisionSite}
    (h : AlternativesSettled rules decisions site follow alternatives)
    (hChosen : alternatives[index]? = some alternative)
    (hAccepts : ((Alternative.sequenceFirst rules.first alternative.elements).predict
      follow).accepts (Tree.firstLabel? remaining)) :
    ∀ choice ∈ Choice.ofAlternative site alternatives index remaining,
      ∃ decision, decisionAt? decisions choice.site = some decision ∧ decision.Admits choice := by
  intro choice hChoice
  rw [Choice.ofAlternative] at hChoice
  rw [AlternativesSettled] at h
  split at hChoice
  · next hNeed =>
    obtain rfl := List.mem_singleton.1 hChoice
    rw [if_pos hNeed] at h
    obtain ⟨decision, hDecision, hOffers⟩ := h
    exact ⟨decision, hDecision, hOffers.admits_alternative hChosen site hAccepts⟩
  · exact absurd hChoice List.not_mem_nil

theorem mem_alternativesOccurrences {first : String → FirstSet} {o : Occurrence}
    (hChosen : alternatives[index]? = some alternative)
    (ho : o ∈ Alternative.sequenceOccurrences first follow alternative.elements) :
    o ∈ Alternative.alternativesOccurrences first follow alternatives :=
  Alternative.subset_of_collects (fun _ _ _ _ => rfl) hChosen ho

/-- The occurrences at a group: the group itself, the elements inside it, and those after it. -/
theorem sequenceOccurrences_subrule (first : String → FirstSet) (follow : LookaheadSet) (id : Nat)
    (span : Span) (repetition : Repetition) (alternatives : List Alternative)
    (exprs : List Expr) :
    Alternative.sequenceOccurrences first follow
        (.subrule id span repetition alternatives :: exprs) =
      ⟨.subrule id span repetition alternatives,
        (Alternative.sequenceFirst first exprs).predict follow⟩ ::
      (Alternative.alternativesOccurrences first
        (repetition.followOfRound first ((Alternative.sequenceFirst first exprs).predict follow)
          alternatives) alternatives ++
        Alternative.sequenceOccurrences first follow exprs) := rfl

/-- If the elements of a sequence that starts with a group are settled, then so are those that may
come after one round. -/
theorem settled_again {id : Nat} {span : Span} {repetition : Repetition} {exprs : List Expr}
    (h : ∀ o ∈ Alternative.sequenceOccurrences rules.first follow
      (.subrule id span repetition alternatives :: exprs), o.Settled rules decisions) :
    ∀ o ∈ Alternative.sequenceOccurrences rules.first follow
      (repetition.again id span alternatives ++ exprs), o.Settled rules decisions := by
  rw [sequenceOccurrences_subrule, List.forall_mem_cons, List.forall_mem_append] at h
  obtain ⟨hGroup, hInner, hLater⟩ := h
  rw [Repetition.again]
  split
  · next hRepeat =>
    have hRound : ∀ f, repetition.followOfRound rules.first f alternatives =
        Repetition.star.followOfRound rules.first f alternatives := by
      intro f
      rw [Repetition.followOfRound, if_pos hRepeat]
      rfl
    rw [List.singleton_append, sequenceOccurrences_subrule, List.forall_mem_cons,
      List.forall_mem_append]
    refine ⟨?_, hRound _ ▸ hInner, hLater⟩
    cases repetition with
    | once => cases hRepeat
    | optional => cases hRepeat
    | star => exact hGroup
    | plus => exact hGroup
  · exact hLater

end Settled

/-- No derivation is ruled out: if the set `f` accepts the nodes that are left and all elements fit
what follows them, then every choice is predicted at its decision. -/
theorem Derivation.admits_choices {decisions : List Decision} (hRules : rules.Settled decisions)
    {owner : Nat} {exprs : List Expr} {before after : List Tree}
    (derivation : Derivation rules owner exprs before after) {f : LookaheadSet}
    (hAfter : f.accepts (Tree.firstLabel? after))
    (h : ∀ o ∈ Alternative.sequenceOccurrences rules.first f exprs, o.Settled rules decisions) :
    ∀ choice ∈ derivation.choices, ∃ decision,
      decisionAt? decisions choice.site = some decision ∧ decision.Admits choice := by
  induction derivation generalizing f with
  | done => exact fun _ hChoice => absurd hChoice List.not_mem_nil
  | token _ _ ih => exact ih hAfter (List.forall_mem_cons.1 h).2
  | wildcard _ ih => exact ih hAfter (List.forall_mem_cons.1 h).2
  | action _ ih => exact ih hAfter (List.forall_mem_cons.1 h).2
  | predicate _ ih => exact ih hAfter (List.forall_mem_cons.1 h).2
  | node _ _ _ ihInner ihLater =>
    rw [Alternative.sequenceOccurrences, List.forall_mem_append] at h
    -- the children are a list of their own, whose end follows the last element
    have hInner := ihInner (f := .endOfList) rfl (List.forall_mem_cons.1 h.1).2
    exact List.forall_mem_append.2 ⟨hInner, ihLater hAfter h.2⟩
  | @call _ _ _ _ _ _ exprs _ _ _ callee rule index alternative hCallee hRule hChosen body later
      ihBody ihLater =>
    obtain ⟨hCall, hLater⟩ := List.forall_mem_cons.1 h
    have hMiddle : (rules.follow callee).accepts (Tree.firstLabel? _) :=
      LookaheadSet.accepts_mono (hCall callee hCallee) (later.predict_accepts hAfter)
    have hBody := ihBody hMiddle fun o ho =>
      hRules.occurrence o (Rules.mem_occurrences hRule (mem_alternativesOccurrences hChosen ho))
    have hChoice := (hRules.rule callee rule hRule).admits hChosen (body.predict_accepts hMiddle)
    exact List.forall_mem_append.2
      ⟨List.forall_mem_append.2 ⟨hChoice, hBody⟩, ihLater hAfter hLater⟩
  | @enter _ id span repetition alternatives exprs before _ _ index alternative hChosen body later
      ihBody ihLater =>
    have hAgain := ihLater hAfter (settled_again h)
    rw [sequenceOccurrences_subrule, List.forall_mem_cons, List.forall_mem_append] at h
    obtain ⟨hGroup, hInner, -⟩ := h
    have hMiddle := LookaheadSet.accepts_mono (again_predict_le ..) (later.predict_accepts hAfter)
    have hBody := ihBody hMiddle fun o ho => hInner o (mem_alternativesOccurrences hChosen ho)
    have hAccepts := body.predict_accepts hMiddle
    have hChoice : ∀ choice ∈ Choice.ofGroup id repetition alternatives index before,
        ∃ decision, decisionAt? decisions choice.site = some decision ∧ decision.Admits choice := by
      cases repetition with
      | once => exact AlternativesSettled.admits hGroup hChosen hAccepts
      | optional | star | plus =>
        intro choice hChoice
        obtain rfl := List.mem_singleton.1 hChoice
        obtain ⟨decision, hDecision, hOffers⟩ := hGroup
        exact ⟨decision, hDecision, hOffers.admits_alternative hChosen _ hAccepts⟩
    exact List.forall_mem_append.2 ⟨List.forall_mem_append.2 ⟨hChoice, hBody⟩, hAgain⟩
  | @leave _ id span repetition alternatives exprs before _ hSkip later ihLater =>
    rw [sequenceOccurrences_subrule, List.forall_mem_cons, List.forall_mem_append] at h
    obtain ⟨hGroup, -, hLater⟩ := h
    refine List.forall_mem_cons.2 ⟨?_, ihLater hAfter hLater⟩
    have hAccepts := later.predict_accepts hAfter
    cases repetition with
    | once => cases hSkip
    | plus => cases hSkip
    | optional | star =>
      obtain ⟨decision, hDecision, hOffers⟩ := hGroup
      exact ⟨decision, hDecision, _, hOffers.2, hAccepts⟩

/-- No derivation of a rule is ruled out if what follows the rule accepts the nodes that are
left. -/
theorem RuleDerivation.admits_choices {decisions : List Decision}
    (hRules : rules.Settled decisions) {owner : Nat} {before after : List Tree}
    (derivation : RuleDerivation rules owner before after)
    (hAfter : (rules.follow owner).accepts (Tree.firstLabel? after)) :
    ∀ choice ∈ derivation.choices, ∃ decision,
      decisionAt? decisions choice.site = some decision ∧ decision.Admits choice := by
  obtain ⟨rule, hRule, index, alternative, hChosen, body⟩ := derivation
  have hChoice := (hRules.rule owner rule hRule).admits hChosen (body.predict_accepts hAfter)
  have hBody := body.admits_choices hRules hAfter fun o ho =>
    hRules.occurrence o (Rules.mem_occurrences hRule (mem_alternativesOccurrences hChosen ho))
  exact List.forall_mem_append.2 ⟨hChoice, hBody⟩

end TreeGrammar
