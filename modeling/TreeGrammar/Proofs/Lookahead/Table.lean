import Mathlib.Data.List.Flatten
import Mathlib.Data.List.Perm.Basic
import TreeGrammar.Proofs.Grammar.Calls
import TreeGrammar.Proofs.Lookahead.Sites

/-!
# The table of decisions

The decisions of a grammar are listed in one pass over its rules. If the elements have different
numbers, then the list is a table: every place at which there is something to choose has one
decision, no other place has one, the number of a decision is its position, and its candidates are
the alternatives at its place.

## Main definitions

* `Rules.StandsAt`: the alternatives at a place, and how often they are matched
* `Repetition.Chooses`: there is something to choose
* `Decision.Fits`: a decision is made for some alternatives
* `Rules.IsTable`: decisions are a table

## Main results

* `Rules.isTable_decisions`: the decisions of a grammar are a table
-/

namespace TreeGrammar

/-- The alternatives at a place, and how often they are matched. A group may stand at any depth of
its rule. -/
inductive Rules.StandsAt (rules : Rules) : DecisionSite → Repetition → List Alternative → Prop where
  | rule {i : Nat} {rule : Rule} (hRule : rules[i]? = some rule) :
      StandsAt rules (.rule i) .once rule.alternatives
  | subrule {rule : Rule} {id : Nat} {span : Span} {repetition : Repetition}
      {alternatives : List Alternative} (hRule : rule ∈ rules)
      (hGroup : rule.Holds (.subrule id span repetition alternatives)) :
      StandsAt rules (.subrule id) repetition alternatives

/-- There is something to choose: the alternatives may be left out or repeated, or there are several
of them, or one has a guard. -/
def Repetition.Chooses (repetition : Repetition) (alternatives : List Alternative) : Prop :=
  repetition ≠ .once ∨ 2 ≤ alternatives.length ∨
    ∃ alternative ∈ alternatives, alternative.isGuarded = true

/-- A decision is made for some alternatives, in front of which `first` says what may be seen. -/
structure Decision.Fits (first : String → FirstSet) (decision : Decision) (repetition : Repetition)
    (alternatives : List Alternative) : Prop where
  chooses : repetition.Chooses alternatives
  kind : decision.kind = repetition.decisionKind
  /-- There is an exit if the alternatives may be left out or repeated. -/
  exit : decision.exit.isSome = true ↔ repetition ≠ .once
  /-- The candidates are the alternatives, in order. -/
  candidates : ∃ follow, List.Forall₂ (fun candidate alternative =>
    candidate.guarded = alternative.isGuarded ∧
      candidate.nullable = (alternative.first first).nullable ∧
      candidate.prediction = (alternative.first first).predict follow)
    decision.candidates alternatives

/-- Decisions are a table of the places of some rules. -/
structure Rules.IsTable (rules : Rules) (first : String → FirstSet) (decisions : List Decision) :
    Prop where
  /-- The number of a decision is its position. -/
  ids : decisions.map Decision.id = List.range decisions.length
  /-- No place has two decisions. -/
  sites : (decisions.map Decision.site).Nodup
  /-- The places with a decision are those at which there is something to choose. -/
  places : ∀ site, site ∈ decisions.map Decision.site ↔
    ∃ repetition alternatives, rules.StandsAt site repetition alternatives ∧
      repetition.Chooses alternatives
  /-- A decision is made for the alternatives at its place. -/
  fits : ∀ decision ∈ decisions, ∀ repetition alternatives,
    rules.StandsAt decision.site repetition alternatives →
      decision.Fits first repetition alternatives

/-! ### Decisions that are made -/

section Made

variable {first : String → FirstSet} {follow : LookaheadSet} {repetition : Repetition}
  {alternatives : List Alternative} {index id : Nat} {rule : Rule} {occurrence : Occurrence}
  {decision : Decision}

theorem Alternative.needDecision_iff : Alternative.needDecision alternatives = true ↔
    Repetition.once.Chooses alternatives := by
  simp [Alternative.needDecision, Repetition.Chooses]

theorem Alternative.forall₂_candidates (first : String → FirstSet) (follow : LookaheadSet)
    (alternatives : List Alternative) :
    List.Forall₂ (fun candidate alternative =>
      candidate.guarded = alternative.isGuarded ∧
        candidate.nullable = (alternative.first first).nullable ∧
        candidate.prediction = (alternative.first first).predict follow)
      (Alternative.candidates first follow alternatives) alternatives := by
  rw [Alternative.candidates, List.forall₂_map_left_iff]
  exact List.forall₂_same.2 fun _ _ => ⟨rfl, rfl, rfl⟩

/-- A decision that is made for some alternatives fits them. -/
theorem Decision.IsMade.fits {site : DecisionSite}
    (h : decision.IsMade first id site repetition alternatives) :
    decision.Fits first repetition alternatives := by
  obtain ⟨follow, hCandidates⟩ := h.candidates
  refine ⟨?chooses, h.kind, h.exit, follow, hCandidates ▸ Alternative.forall₂_candidates ..⟩
  by_cases hOnce : repetition = .once
  · exact hOnce ▸ Alternative.needDecision_iff.1 (h.need hOnce)
  · exact .inl hOnce

theorem Rule.exists_decision? (h : Repetition.once.Chooses rule.alternatives)
    (first : String → FirstSet) (follow : LookaheadSet) (index id : Nat) :
    ∃ decision, rule.decision? first follow index id = some decision := by
  rw [Rule.decision?, if_pos (Alternative.needDecision_iff.2 h)]
  exact ⟨_, rfl⟩

theorem Occurrence.exists_decision? {expr : Nat} {span : Span}
    (hExpr : occurrence.expr = .subrule expr span repetition alternatives)
    (h : repetition.Chooses alternatives) (first : String → FirstSet) (index id : Nat) :
    ∃ decision, occurrence.decision? first index id = some decision := by
  obtain ⟨_, follow⟩ := occurrence
  obtain rfl := hExpr
  cases repetition with
  | once =>
    simp only [Occurrence.decision?, if_pos (Alternative.needDecision_iff.2 h)]
    exact ⟨_, rfl⟩
  | optional | star | plus => exact ⟨_, rfl⟩

end Made

/-! ### Decisions that are collected -/

section Collect

variable {entries : List (DecisionSite × (Nat → Option Decision))} {start : List Decision}

/-- If decisions are made with the numbers that they are given, then the number of each is its
position. -/
theorem map_id_collect (hMade : ∀ entry ∈ entries, ∀ id decision,
      entry.2 id = some decision → decision.id = id)
    (hStart : start.map Decision.id = List.range start.length) :
    ((entries.map Prod.snd).foldl addDecision start).map Decision.id =
      List.range ((entries.map Prod.snd).foldl addDecision start).length := by
  induction entries generalizing start with
  | nil => exact hStart
  | cons entry entries ih =>
    obtain ⟨hEntry, hOthers⟩ := List.forall_mem_cons.1 hMade
    refine ih hOthers ?_
    rw [addDecision]
    cases hDecision : entry.2 start.length with
    | none => simpa using hStart
    | some decision =>
      simp [hStart, hEntry _ _ hDecision, List.range_succ]

/-- If decisions are made at the places for which they are meant, then their places are among
these, in the same order. -/
theorem map_site_collect_sublist (hMade : ∀ entry ∈ entries, ∀ id decision,
      entry.2 id = some decision → decision.site = entry.1) :
    (((entries.map Prod.snd).foldl addDecision start).map Decision.site).Sublist
      (start.map Decision.site ++ entries.map Prod.fst) := by
  induction entries generalizing start with
  | nil => simp
  | cons entry entries ih =>
    obtain ⟨hEntry, hOthers⟩ := List.forall_mem_cons.1 hMade
    show (((entries.map Prod.snd).foldl addDecision (addDecision start entry.2)).map
      Decision.site).Sublist _
    refine (ih hOthers).trans ?_
    rw [addDecision, List.map_append, List.append_assoc]
    refine (List.Sublist.refl _).append ?_
    cases hDecision : entry.2 start.length with
    | none => simp
    | some decision => simp [hEntry _ _ hDecision]

end Collect

namespace Rules

variable {rules : Rules} {first : String → FirstSet} {follows : List LookaheadSet}
  {site : DecisionSite} {repetition : Repetition} {alternatives : List Alternative}
  {decision : Decision}

/-- What may need a decision in a rule, with its place. -/
def entriesOf (first : String → FirstSet) (rule : Rule) (follow : LookaheadSet) (index : Nat) :
    List (DecisionSite × (Nat → Option Decision)) :=
  (.rule index, fun id => rule.decision? first follow index id) ::
    (Alternative.alternativesOccurrences first follow rule.alternatives).map fun occurrence =>
      (.subrule occurrence.expr.id, fun id => occurrence.decision? first index id)

/-- What may need a decision in a grammar, with its place. -/
def siteEntries (rules : Rules) (first : String → FirstSet) (follows : List LookaheadSet) :
    List (DecisionSite × (Nat → Option Decision)) :=
  (rules.zip follows).zipIdx.flatMap fun entry =>
    entriesOf first entry.1.1 entry.1.2 entry.2

theorem map_snd_siteEntries : (rules.siteEntries first follows).map Prod.snd =
    rules.sites first follows := by
  rw [siteEntries, sites, List.map_flatMap]
  refine List.flatMap_congr fun entry _ => ?_
  simp [entriesOf, sitesOf]

/-- Decisions are made with the numbers that they are given, and at their places. -/
theorem made_of_mem_siteEntries {entry : DecisionSite × (Nat → Option Decision)}
    (hEntry : entry ∈ rules.siteEntries first follows) {id : Nat}
    (h : entry.2 id = some decision) : decision.id = id ∧ decision.site = entry.1 := by
  obtain ⟨⟨⟨rule, follow⟩, index⟩, -, hMem⟩ := List.mem_flatMap.1 hEntry
  rcases List.mem_cons.1 hMem with rfl | hMem
  · have hMade := Rule.isMade_of_decision? h
    exact ⟨hMade.number, hMade.place⟩
  · obtain ⟨occurrence, -, rfl⟩ := List.mem_map.1 hMem
    obtain ⟨_, _, _, -, hMade⟩ := Occurrence.isMade_of_decision? h
    exact ⟨hMade.number, hMade.place⟩

/-- The places of a grammar are those of its rules and those of its elements. -/
theorem perm_map_fst_siteEntries : ((rules.siteEntries first follows).map Prod.fst).Perm
    ((rules.zip follows).zipIdx.map (fun entry => DecisionSite.rule entry.2) ++
      (rules.occurrences first follows).map fun occurrence =>
        DecisionSite.subrule occurrence.expr.id) := by
  have hGroups : (rules.occurrences first follows).map (fun occurrence =>
      DecisionSite.subrule occurrence.expr.id) =
      (rules.zip follows).zipIdx.flatMap fun entry =>
        (Alternative.alternativesOccurrences first entry.1.2 entry.1.1.alternatives).map
          fun occurrence => DecisionSite.subrule occurrence.expr.id := by
    conv_lhs => rw [occurrences, ← List.zipIdx_map_fst 0 (rules.zip follows), List.flatMap_map,
      List.map_flatMap]
  rw [siteEntries, List.map_flatMap, hGroups, List.map_eq_flatMap]
  refine ((List.flatMap_append_perm _ _ _).trans (.of_eq ?_)).symm
  refine List.flatMap_congr fun entry _ => ?_
  simp [entriesOf]

/-- If the numbers of elements differ, then no place comes twice. -/
theorem nodup_siteEntries (hIds : (rules.exprs.map Expr.id).Nodup)
    (hLength : follows.length = rules.length) :
    ((rules.siteEntries first follows).map Prod.fst).Nodup := by
  refine perm_map_fst_siteEntries.nodup_iff.2 (List.nodup_append.2 ⟨?heads, ?groups, ?apart⟩)
  case heads =>
    have hNumbers : ((rules.zip follows).zipIdx.map Prod.snd).Nodup := by
      rw [List.zipIdx_map_snd]
      exact List.nodup_range'
    exact List.pairwise_map.2 ((List.pairwise_map.1 hNumbers).imp
      fun hNe hSame => hNe (DecisionSite.rule.inj hSame))
  case groups =>
    have hNumbers := ((perm_exprs first hLength).map Expr.id).nodup_iff.2 hIds
    rw [List.map_map] at hNumbers
    exact List.pairwise_map.2 ((List.pairwise_map.1 hNumbers).imp
      fun hNe hSame => hNe (DecisionSite.subrule.inj hSame))
  case apart =>
    rintro a ha b hb rfl
    obtain ⟨_, -, rfl⟩ := List.mem_map.1 ha
    obtain ⟨_, -, hSite⟩ := List.mem_map.1 hb
    cases hSite

/-! ### Places -/

/-- If the numbers of elements differ, then different alternatives stand at different places. -/
theorem StandsAt.unique (hIds : (rules.exprs.map Expr.id).Nodup)
    (h : rules.StandsAt site repetition alternatives) {repetition' : Repetition}
    {alternatives' : List Alternative} (h' : rules.StandsAt site repetition' alternatives') :
    repetition = repetition' ∧ alternatives = alternatives' := by
  cases h with
  | rule hRule =>
    cases h' with
    | rule hRule' =>
      obtain rfl := Option.some.inj (hRule.symm.trans hRule')
      exact ⟨rfl, rfl⟩
  | subrule hRule hGroup =>
    cases h' with
    | subrule hRule' hGroup' =>
      have hExpr := List.inj_on_of_nodup_map hIds
        (List.mem_flatMap.2 ⟨_, hRule, Rule.mem_exprs_iff.2 hGroup⟩)
        (List.mem_flatMap.2 ⟨_, hRule', Rule.mem_exprs_iff.2 hGroup'⟩) rfl
      obtain ⟨-, -, rfl, rfl⟩ := Expr.subrule.inj hExpr
      exact ⟨rfl, rfl⟩

/-- Every decision is made for the alternatives at a place. -/
theorem exists_standsAt (h : decision ∈ rules.decisions first follows) :
    ∃ repetition alternatives, rules.StandsAt decision.site repetition alternatives ∧
      decision.Fits first repetition alternatives := by
  rw [decisions_eq] at h
  obtain ⟨made, hIn, id, hMade⟩ := (exists_site_of_mem_collect h).resolve_left List.not_mem_nil
  obtain ⟨index, rule, follow, hRule, -, hSites⟩ := mem_sites hIn
  rcases List.mem_cons.1 hSites with rfl | hElement
  · have hDecision := Rule.isMade_of_decision? hMade
    exact ⟨.once, rule.alternatives, hDecision.place ▸ .rule hRule, hDecision.fits⟩
  · obtain ⟨occurrence, hOccurrence, rfl⟩ := List.mem_map.1 hElement
    obtain ⟨span, repetition, alternatives, hExpr, hDecision⟩ :=
      Occurrence.isMade_of_decision? hMade
    have hHolds : rule.Holds (.subrule occurrence.expr.id span repetition alternatives) := by
      rw [← hExpr, ← Rule.mem_exprs_iff]
      exact (rule.perm_occurrences first follow).mem_iff.1 (List.mem_map_of_mem hOccurrence)
    exact ⟨repetition, alternatives,
      hDecision.place ▸ .subrule (List.mem_of_getElem? hRule) hHolds, hDecision.fits⟩

/-- There is a decision at every place at which there is something to choose. -/
theorem StandsAt.exists_decision (h : rules.StandsAt site repetition alternatives)
    (hLength : follows.length = rules.length) (hChooses : repetition.Chooses alternatives) :
    ∃ decision ∈ rules.decisions first follows, decision.site = site := by
  cases h with
  | @rule i rule hRule =>
    have hFollow := List.getElem?_eq_getElem
      (hLength ▸ (List.getElem?_eq_some_iff.1 hRule).1 : i < follows.length)
    have hSite : (fun id => rule.decision? first _ i id) ∈ rules.sites first follows :=
      mem_sites_of hRule hFollow List.mem_cons_self
    obtain ⟨id, hMem⟩ := exists_mem_decisions hSite
    obtain ⟨decision, hDecision⟩ := Rule.exists_decision? hChooses first _ i id
    exact ⟨decision, hMem decision hDecision, (Rule.isMade_of_decision? hDecision).place⟩
  | @subrule rule id span _ _ hRule hGroup =>
    have hMem : .subrule id span repetition alternatives ∈ rules.exprs :=
      List.mem_flatMap.2 ⟨rule, hRule, Rule.mem_exprs_iff.2 hGroup⟩
    obtain ⟨occurrence, hOccurrence, hExpr⟩ :=
      List.mem_map.1 ((perm_exprs first hLength).mem_iff.2 hMem)
    obtain ⟨index, hSite⟩ := exists_mem_sites hOccurrence
    obtain ⟨number, hIn⟩ := exists_mem_decisions hSite
    obtain ⟨decision, hDecision⟩ :=
      Occurrence.exists_decision? hExpr hChooses first index number
    have hPlace := Occurrence.site_of_decision? hDecision
    rw [hExpr] at hPlace
    exact ⟨decision, hIn decision hDecision, hPlace⟩

/-- The decisions of a grammar are a table if its elements have different numbers. -/
theorem isTable_decisions (hIds : (rules.exprs.map Expr.id).Nodup)
    (hLength : follows.length = rules.length) :
    rules.IsTable first (rules.decisions first follows) := by
  have hMade := fun entry (hEntry : entry ∈ rules.siteEntries first follows) id decision
    (h : entry.2 id = some decision) => made_of_mem_siteEntries hEntry h
  refine ⟨?ids, ?sites, fun site => ⟨?_, ?_⟩, ?fits⟩
  case ids =>
    rw [decisions_eq, ← map_snd_siteEntries]
    exact map_id_collect (fun entry hEntry id decision h => (hMade entry hEntry id decision h).1) rfl
  case sites =>
    rw [decisions_eq, ← map_snd_siteEntries]
    exact (nodup_siteEntries hIds hLength).sublist (map_site_collect_sublist
      fun entry hEntry id decision h => (hMade entry hEntry id decision h).2)
  · intro hSite
    obtain ⟨decision, hDecision, rfl⟩ := List.mem_map.1 hSite
    obtain ⟨repetition, alternatives, hStands, hFits⟩ := exists_standsAt hDecision
    exact ⟨repetition, alternatives, hStands, hFits.chooses⟩
  · rintro ⟨repetition, alternatives, hStands, hChooses⟩
    obtain ⟨decision, hDecision, rfl⟩ := hStands.exists_decision hLength hChooses
    exact List.mem_map_of_mem hDecision
  case fits =>
    intro decision hDecision repetition alternatives hStands
    obtain ⟨repetition', alternatives', hStands', hFits⟩ := exists_standsAt hDecision
    obtain ⟨rfl, rfl⟩ := hStands.unique hIds hStands'
    exact hFits

end Rules

end TreeGrammar
