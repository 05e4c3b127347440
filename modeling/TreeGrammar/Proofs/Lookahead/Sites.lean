import Mathlib.Data.List.Nodup
import TreeGrammar.Proofs.Lookahead.Prediction

/-!
# The decisions at their sites

The decisions of a grammar are collected in one pass over its rules and elements. If no two elements
have the same number, then the first decision at the place of a group or a rule is the one that has
been made for it, so that looking it up by its place finds what the element or the rule needs.

## Main definitions

* `Decision.IsMade`: what a decision is that is made for some alternatives
* `Rules.sites`: what may need a decision, in the order of the decisions
* `Rules.Offers`: the alternatives at a place

## Main results

* `Rules.mem_decisions_iff`: where the decisions come from
* `Rules.settled_decisions`: the decisions of a grammar fit its elements and rules
-/

namespace TreeGrammar

/-- The decisions with one more, if there is one at a site; it is given the next number. -/
def addDecision (decisions : List Decision) (site : Nat → Option Decision) : List Decision :=
  decisions ++ (site decisions.length).toList

section Collect

variable {sites : List (Nat → Option Decision)} {start : List Decision} {decision : Decision}

theorem subset_collect : start ⊆ sites.foldl addDecision start := by
  induction sites generalizing start with
  | nil => exact List.Subset.refl _
  | cons site sites ih => exact fun _ h => ih (List.mem_append_left _ h)

/-- Every collected decision has been made at one of the sites. -/
theorem exists_site_of_mem_collect (h : decision ∈ sites.foldl addDecision start) :
    decision ∈ start ∨ ∃ site ∈ sites, ∃ id, site id = some decision := by
  induction sites generalizing start with
  | nil => exact .inl h
  | cons site sites ih =>
    rcases ih h with hStart | ⟨other, hOther, hMade⟩
    · rcases List.mem_append.1 hStart with hStart | hHead
      · exact .inl hStart
      · exact .inr ⟨site, List.mem_cons_self, _, Option.mem_toList.1 hHead⟩
    · exact .inr ⟨other, List.mem_cons_of_mem _ hOther, hMade⟩

/-- Every site that needs a decision has one among the collected ones. -/
theorem exists_id_of_mem {site : Nat → Option Decision} (h : site ∈ sites) :
    ∃ id, ∀ decision, site id = some decision → decision ∈ sites.foldl addDecision start := by
  induction sites generalizing start with
  | nil => exact absurd h List.not_mem_nil
  | cons head sites ih =>
    rcases List.mem_cons.1 h with rfl | h
    · refine ⟨start.length, fun decision hDecision => ?_⟩
      have hHead : decision ∈ addDecision start site :=
        List.mem_append_right _ (Option.mem_toList.2 hDecision)
      exact (subset_collect : addDecision start site ⊆ sites.foldl addDecision _) hHead
    · exact ih h

end Collect

namespace Rules

variable {rules : Rules} {first : String → FirstSet} {follows : List LookaheadSet}

/-- What may need a decision in a rule: its alternatives, and the elements inside. -/
def sitesOf (first : String → FirstSet) (rule : Rule) (follow : LookaheadSet) (index : Nat) :
    List (Nat → Option Decision) :=
  (fun id => rule.decision? first follow index id) ::
    (Alternative.alternativesOccurrences first follow rule.alternatives).map fun occurrence id =>
      occurrence.decision? first index id

/-- What may need a decision in a grammar, in the order in which the decisions are numbered. -/
def sites (rules : Rules) (first : String → FirstSet) (follows : List LookaheadSet) :
    List (Nat → Option Decision) :=
  (rules.zip follows).zipIdx.flatMap fun ((rule, follow), index) => sitesOf first rule follow index

/-- The decisions of a grammar are collected from its sites. -/
theorem decisions_eq : rules.decisions first follows =
    (rules.sites first follows).foldl addDecision [] := by
  rw [decisions, sites, List.foldl_flatMap]
  congr
  funext decisions ⟨⟨rule, follow⟩, index⟩
  simp only [sitesOf, List.foldl_cons, List.foldl_map]
  rfl

/-- A site is that of a rule or of an element of a rule. -/
theorem mem_sites {site : Nat → Option Decision} (h : site ∈ rules.sites first follows) :
    ∃ index rule follow, rules[index]? = some rule ∧ follows[index]? = some follow ∧
      site ∈ sitesOf first rule follow index := by
  obtain ⟨⟨⟨rule, follow⟩, index⟩, hMem, hSite⟩ := List.mem_flatMap.1 h
  have hGet := (List.getElem?_zip_eq_some.1 (List.mem_zipIdx_iff_getElem?.1 hMem))
  exact ⟨index, rule, follow, hGet.1, hGet.2, hSite⟩

theorem mem_sites_of {index : Nat} {rule : Rule} {follow : LookaheadSet}
    (hRule : rules[index]? = some rule) (hFollow : follows[index]? = some follow)
    {site : Nat → Option Decision} (h : site ∈ sitesOf first rule follow index) :
    site ∈ rules.sites first follows := by
  refine List.mem_flatMap.2 ⟨((rule, follow), index), ?_, h⟩
  exact List.mem_zipIdx_iff_getElem?.2 (List.getElem?_zip_eq_some.2 ⟨hRule, hFollow⟩)

end Rules

/-- A decision is made for some alternatives with the number and the place that it is given. -/
structure Decision.IsMade (first : String → FirstSet) (decision : Decision) (id : Nat)
    (site : DecisionSite) (repetition : Repetition) (alternatives : List Alternative) : Prop where
  number : decision.id = id
  place : decision.site = site
  kind : decision.kind = repetition.decisionKind
  /-- There is an exit if the alternatives may be left out or repeated. -/
  exit : decision.exit.isSome = true ↔ repetition ≠ .once
  /-- Alternatives that are matched once may need no decision. -/
  need : repetition = .once → Alternative.needDecision alternatives = true
  /-- There is one candidate for each alternative, in order. -/
  candidates : ∃ follow, decision.candidates = Alternative.candidates first follow alternatives

section Made

variable {first : String → FirstSet} {follow : LookaheadSet} {index id : Nat} {rule : Rule}
  {occurrence : Occurrence} {decision : Decision}

/-- The decision at the alternatives of a rule chooses between these. -/
theorem Rule.isMade_of_decision? (h : rule.decision? first follow index id = some decision) :
    decision.IsMade first id (.rule index) .once rule.alternatives := by
  rw [Rule.decision?] at h
  split at h
  · next hNeed =>
    obtain rfl := Option.some.inj h
    exact ⟨rfl, rfl, rfl, by simp, fun _ => hNeed, follow, rfl⟩
  · cases h

/-- An element with a decision is a group, and the decision chooses between its alternatives. -/
theorem Occurrence.isMade_of_decision? (h : occurrence.decision? first index id = some decision) :
    ∃ span repetition alternatives,
      occurrence.expr = .subrule occurrence.expr.id span repetition alternatives ∧
        decision.IsMade first id (.subrule occurrence.expr.id) repetition alternatives := by
  obtain ⟨expr, follow⟩ := occurrence
  cases expr with
  | subrule expr span repetition alternatives =>
    refine ⟨span, repetition, alternatives, rfl, ?_⟩
    cases repetition with
    | once =>
      simp only [Occurrence.decision?] at h
      split at h
      · next hNeed =>
        obtain rfl := Option.some.inj h
        exact ⟨rfl, rfl, rfl, by simp, fun _ => hNeed, follow, rfl⟩
      · cases h
    | optional | star | plus =>
      obtain rfl := Option.some.inj h
      exact ⟨rfl, rfl, rfl, by simp, nofun, _, rfl⟩
  | _ => cases h

theorem Occurrence.site_of_decision? (h : occurrence.decision? first index id = some decision) :
    decision.site = .subrule occurrence.expr.id := by
  obtain ⟨_, _, _, -, hMade⟩ := Occurrence.isMade_of_decision? h
  exact hMade.place

end Made

/-! ### Looking up decisions -/

/-- If all decisions at a place have a property and there is one, then the first one has it. -/
theorem exists_decisionAt? {decisions : List Decision} {site : DecisionSite}
    {p : Decision → Prop} {decision : Decision} (hMem : decision ∈ decisions)
    (hSite : decision.site = site) (h : ∀ decision ∈ decisions, decision.site = site → p decision) :
    ∃ decision, decisionAt? decisions site = some decision ∧ p decision := by
  have hSome : (decisionAt? decisions site).isSome :=
    List.find?_isSome.2 ⟨decision, hMem, decide_eq_true hSite⟩
  obtain ⟨found, hFound⟩ := Option.isSome_iff_exists.1 hSome
  have hFoundSite : found.site = site := of_decide_eq_true (List.find?_some hFound :)
  exact ⟨found, hFound, h found (List.mem_of_find?_eq_some hFound) hFoundSite⟩

namespace Rules

variable {rules : Rules} {first : String → FirstSet} {follows : List LookaheadSet}

/-- A decision at the alternatives of a rule has been made for this rule. -/
theorem decision?_of_rule_site {i : Nat} {rule : Rule} {follow : LookaheadSet}
    (hRule : rules[i]? = some rule) (hFollow : follows[i]? = some follow) {decision : Decision}
    (hMem : decision ∈ rules.decisions first follows) (hSite : decision.site = .rule i) :
    ∃ id, rule.decision? first follow i id = some decision := by
  rw [decisions_eq] at hMem
  obtain ⟨site, hIn, id, hMade⟩ := (exists_site_of_mem_collect hMem).resolve_left List.not_mem_nil
  obtain ⟨index, rule', follow', hRule', hFollow', hSites⟩ := mem_sites hIn
  rcases List.mem_cons.1 hSites with rfl | hOccurrence
  · have hIndex : index = i := DecisionSite.rule.inj ((Rule.isMade_of_decision? hMade).place.symm.trans hSite)
    subst hIndex
    obtain rfl : rule' = rule := Option.some.inj (hRule'.symm.trans hRule)
    obtain rfl : follow' = follow := Option.some.inj (hFollow'.symm.trans hFollow)
    exact ⟨id, hMade⟩
  · obtain ⟨occurrence, -, rfl⟩ := List.mem_map.1 hOccurrence
    exact absurd (hSite.symm.trans (Occurrence.site_of_decision? hMade)) nofun

/-- The occurrences in a grammar are its elements, in another order. -/
theorem perm_exprs (first : String → FirstSet) (h : follows.length = rules.length) :
    ((rules.occurrences first follows).map Occurrence.expr).Perm rules.exprs := by
  rw [occurrences, exprs]
  induction rules generalizing follows with
  | nil => exact .nil
  | cons rule rules ih =>
    cases follows with
    | nil => cases h
    | cons follow follows =>
      simp only [List.zip_cons_cons, List.flatMap_cons, List.map_append]
      exact (rule.perm_occurrences first follow).append (ih (Nat.succ.inj h))

/-- If the numbers of elements differ, then an element occurs once. -/
theorem occurrence_ext (hIds : (rules.exprs.map Expr.id).Nodup)
    (hLength : follows.length = rules.length) {a b : Occurrence}
    (ha : a ∈ rules.occurrences first follows) (hb : b ∈ rules.occurrences first follows)
    (h : a.expr.id = b.expr.id) : a = b := by
  have hNodup : ((rules.occurrences first follows).map fun o => o.expr.id).Nodup := by
    have hPerm := (perm_exprs first hLength).map Expr.id
    rw [List.map_map] at hPerm
    exact hPerm.nodup_iff.2 hIds
  exact List.inj_on_of_nodup_map hNodup ha hb h

/-- A decision at an element has been made for this element. -/
theorem decision?_of_subrule_site (hIds : (rules.exprs.map Expr.id).Nodup)
    (hLength : follows.length = rules.length) {occurrence : Occurrence}
    (hOccurrence : occurrence ∈ rules.occurrences first follows) {decision : Decision}
    (hMem : decision ∈ rules.decisions first follows)
    (hSite : decision.site = .subrule occurrence.expr.id) :
    ∃ index id, occurrence.decision? first index id = some decision := by
  rw [decisions_eq] at hMem
  obtain ⟨site, hIn, id, hMade⟩ := (exists_site_of_mem_collect hMem).resolve_left List.not_mem_nil
  obtain ⟨index, rule, follow, hRule, hFollow, hSites⟩ := mem_sites hIn
  rcases List.mem_cons.1 hSites with rfl | hElement
  · exact absurd (hSite.symm.trans (Rule.isMade_of_decision? hMade).place) nofun
  · obtain ⟨other, hOther, rfl⟩ := List.mem_map.1 hElement
    have hId := hSite.symm.trans (Occurrence.site_of_decision? hMade)
    have hZip : (rule, follow) ∈ rules.zip follows :=
      List.mem_of_getElem? (List.getElem?_zip_eq_some.2 ⟨hRule, hFollow⟩ : _[index]? = _)
    have hOtherMem : other ∈ rules.occurrences first follows :=
      List.mem_flatMap.2 ⟨(rule, follow), hZip, hOther⟩
    obtain rfl := occurrence_ext hIds hLength hOccurrence hOtherMem (DecisionSite.subrule.inj hId)
    exact ⟨index, id, hMade⟩

/-- The alternatives at a place: those of a rule, or those of a group. -/
def Offers (rules : Rules) : DecisionSite → List Alternative → Prop
  | .rule i, alternatives => ∃ rule, rules[i]? = some rule ∧ rule.alternatives = alternatives
  | .subrule id, alternatives =>
    ∃ span repetition, .subrule id span repetition alternatives ∈ rules.exprs

/-- A decision has one candidate for each of the alternatives at its place, in order. -/
theorem exists_candidates {decision : Decision} (h : decision ∈ rules.decisions first follows) :
    ∃ alternatives follow, rules.Offers decision.site alternatives ∧
      decision.candidates = Alternative.candidates first follow alternatives := by
  rw [decisions_eq] at h
  obtain ⟨site, hIn, id, hMade⟩ := (exists_site_of_mem_collect h).resolve_left List.not_mem_nil
  obtain ⟨index, rule, follow, hRule, -, hSites⟩ := mem_sites hIn
  rcases List.mem_cons.1 hSites with rfl | hElement
  · have hDecision := Rule.isMade_of_decision? hMade
    obtain ⟨inner, hCandidates⟩ := hDecision.candidates
    rw [hDecision.place]
    exact ⟨rule.alternatives, inner, ⟨rule, hRule, rfl⟩, hCandidates⟩
  · obtain ⟨occurrence, hOccurrence, rfl⟩ := List.mem_map.1 hElement
    obtain ⟨span, repetition, alternatives, hExpr, hDecision⟩ :=
      Occurrence.isMade_of_decision? hMade
    obtain ⟨inner, hCandidates⟩ := hDecision.candidates
    have hMem : occurrence.expr ∈ rule.exprs :=
      (rule.perm_occurrences first follow).mem_iff.1 (List.mem_map_of_mem hOccurrence)
    have hMem' : occurrence.expr ∈ rules.exprs :=
      List.mem_flatMap.2 ⟨rule, List.mem_of_getElem? hRule, hMem⟩
    rw [hDecision.place]
    exact ⟨alternatives, inner, ⟨span, repetition, hExpr ▸ hMem'⟩, hCandidates⟩

/-- What a site decides is among the decisions. -/
theorem exists_mem_decisions {site : Nat → Option Decision}
    (h : site ∈ rules.sites first follows) :
    ∃ id, ∀ decision, site id = some decision → decision ∈ rules.decisions first follows := by
  rw [decisions_eq]
  exact exists_id_of_mem h

/-- The alternatives of a rule have the decision that they need. -/
theorem rule_settled {i : Nat} {rule : Rule} (h : rules[i]? = some rule) :
    AlternativesSettled rules (rules.decisions rules.first rules.follows) (.rule i)
      (rules.follow i) rule.alternatives := by
  have hFrom : ∀ decision ∈ rules.decisions rules.first rules.follows, decision.site = .rule i →
      ∃ id, rule.decision? rules.first (rules.follow i) i id = some decision :=
    fun _ => decision?_of_rule_site h (follows_getElem? h)
  rw [AlternativesSettled]
  split
  · next hNeed =>
    obtain ⟨id, hMade⟩ := exists_mem_decisions
      (mem_sites_of h (follows_getElem? h) (List.mem_cons_self (l := _)))
    refine exists_decisionAt? (hMade _ (if_pos hNeed)) rfl fun decision hMem hSite => ?_
    obtain ⟨id, hDecision⟩ := hFrom decision hMem hSite
    rw [Rule.decision?, if_pos hNeed] at hDecision
    exact Option.some.inj hDecision ▸ ⟨rfl, rfl⟩
  · next hNeed =>
    refine List.find?_eq_none.2 fun decision hMem hSite => ?_
    obtain ⟨id, hDecision⟩ := hFrom decision hMem (of_decide_eq_true hSite)
    rw [Rule.decision?, if_neg hNeed] at hDecision
    cases hDecision

/-- An element may need a decision. -/
theorem exists_mem_sites {occurrence : Occurrence}
    (h : occurrence ∈ rules.occurrences first follows) :
    ∃ index, (fun id => occurrence.decision? first index id) ∈ rules.sites first follows := by
  obtain ⟨⟨rule, follow⟩, hZip, hOccurrence⟩ := List.mem_flatMap.1 h
  obtain ⟨index, hGet⟩ := List.mem_iff_getElem?.1 hZip
  obtain ⟨hRule, hFollow⟩ := List.getElem?_zip_eq_some.1 hGet
  refine ⟨index, mem_sites_of hRule hFollow (List.mem_cons_of_mem _ ?_)⟩
  exact List.mem_map.2 ⟨occurrence, hOccurrence, rfl⟩

/-- The decision that an element needs is found at its place, and there is none if it needs none:
what holds of every decision made for it holds of the one found. -/
theorem decisionAt?_subrule (hIds : (rules.exprs.map Expr.id).Nodup)
    {occurrence : Occurrence} (h : occurrence ∈ rules.occurrences rules.first rules.follows)
    {p : Decision → Prop}
    (hp : ∀ index id decision, occurrence.decision? rules.first index id = some decision →
      p decision)
    (hSome : ∀ index id, (occurrence.decision? rules.first index id).isSome) :
    ∃ decision, decisionAt? (rules.decisions rules.first rules.follows)
      (.subrule occurrence.expr.id) = some decision ∧ p decision := by
  obtain ⟨index, hSite⟩ := exists_mem_sites h
  obtain ⟨id, hMade⟩ := exists_mem_decisions hSite
  obtain ⟨decision, hDecision⟩ := Option.isSome_iff_exists.1 (hSome index id)
  refine exists_decisionAt? (hMade decision hDecision)
    (Occurrence.site_of_decision? hDecision) fun other hMem hOther => ?_
  obtain ⟨index', id', hOtherMade⟩ :=
    decision?_of_subrule_site hIds rules.length_follows h hMem hOther
  exact hp index' id' other hOtherMade

/-- The elements of a grammar fit what follows them. -/
theorem occurrence_settled (hIds : (rules.exprs.map Expr.id).Nodup) {occurrence : Occurrence}
    (h : occurrence ∈ rules.occurrences rules.first rules.follows) :
    occurrence.Settled rules (rules.decisions rules.first rules.follows) := by
  obtain ⟨expr, follow⟩ := occurrence
  cases expr with
  | rule id span label name args => exact fun callee hCallee => follow_le_of_call h rfl hCallee
  | subrule id span repetition alternatives =>
    cases repetition with
    | once =>
      show AlternativesSettled ..
      rw [AlternativesSettled]
      split
      · next hNeed =>
        refine decisionAt?_subrule hIds h (fun index id decision hMade => ?_) fun index id => ?_
        · simp only [Occurrence.decision?, if_pos hNeed] at hMade
          exact Option.some.inj hMade ▸ ⟨rfl, rfl⟩
        · simp only [Occurrence.decision?, if_pos hNeed, Option.isSome_some]
      · next hNeed =>
        refine List.find?_eq_none.2 fun decision hMem hSite => ?_
        obtain ⟨index, id, hMade⟩ := decision?_of_subrule_site hIds rules.length_follows h hMem
          (of_decide_eq_true hSite)
        simp only [Occurrence.decision?, if_neg hNeed] at hMade
        cases hMade
    | optional | star | plus =>
      refine decisionAt?_subrule hIds h (fun index id decision hMade => ?_) fun _ _ => rfl
      exact Option.some.inj hMade ▸ ⟨rfl, rfl⟩
  | _ => trivial

/-- The decisions of a grammar whose elements have different numbers fit its elements and rules. -/
theorem settled_decisions (hIds : (rules.exprs.map Expr.id).Nodup) :
    rules.Settled (rules.decisions rules.first rules.follows) where
  occurrence _ h := occurrence_settled hIds h
  rule _ _ h := rule_settled h

end Rules

end TreeGrammar
