import TreeGrammar.Proofs.Analysis.Integrity
import TreeGrammar.Proofs.Analysis.Verdict
import TreeGrammar.Proofs.Grammar.Calls

/-!
# Rules that are not used

A rule is used if a chain of references, of any length, leads to it from a rule at which walks
start. The analysis of an accepted grammar warns about exactly the other rules, in their order, and
about each of them once.

## Main definitions

* `Rules.IsUsed`: a chain of references leads to a rule
* `Rule.usageWarning`: the warning about a rule

## Main results

* `usageWarnings_exact`: which rules are reported
-/

namespace TreeGrammar

/-- A chain of references leads from an entry rule to the rule with the number `i`. -/
def Rules.IsUsed (rules : Rules) (i : Nat) : Prop :=
  ∃ entry ∈ rules.entries, Relation.ReflTransGen rules.Refers entry i

/-- The warning about a rule that is not used. -/
def Rule.usageWarning (rule : Rule) : Diagnostic := ⟨rule.name.span, .unusedRule rule.name.name⟩

/-- The diagnostic is about a rule that is not used. -/
def Diagnostic.isUsage (diagnostic : Diagnostic) : Bool := diagnostic.problem.kind = .unusedRule

section Kinds

variable {diagnostics : List Diagnostic}

/-- Fatal diagnostics are about other things. -/
theorem filter_isUsage_of_isFatal (h : ∀ diagnostic ∈ diagnostics, diagnostic.isFatal) :
    diagnostics.filter Diagnostic.isUsage = [] := by
  refine List.filter_eq_nil_iff.2 fun diagnostic hMem hUsage => ?_
  have hKind : diagnostic.problem.kind = .unusedRule := of_decide_eq_true hUsage
  have hFatal := h diagnostic hMem
  rw [Diagnostic.isFatal, hKind] at hFatal
  cases hFatal

theorem filter_isUsage_optionWarnings (grammar : SourceGrammar) :
    grammar.optionWarnings.filter Diagnostic.isUsage = [] := by
  refine List.filter_eq_nil_iff.2 fun warning hWarning => ?_
  obtain ⟨option, -, hOption⟩ := List.mem_filterMap.1 hWarning
  simp only [GrammarOption.warning?] at hOption
  split at hOption
  · split at hOption
    · cases hOption
    · obtain rfl := Option.some.inj hOption
      exact Bool.false_ne_true
  · split at hOption
    · obtain ⟨args, -, rfl⟩ := Option.map_eq_some_iff.1 hOption
      exact Bool.false_ne_true
    · obtain rfl := Option.some.inj hOption
      exact Bool.false_ne_true

theorem filter_isUsage_ambiguityWarnings (rules : Rules) (decisions : List Decision) :
    (rules.ambiguityWarnings decisions).filter Diagnostic.isUsage = [] := by
  refine List.filter_eq_nil_iff.2 fun warning hWarning => ?_
  obtain ⟨decision, -, hDecision⟩ := List.mem_flatMap.1 hWarning
  obtain ⟨conflict, -, rfl⟩ := List.mem_map.1 hDecision
  exact Bool.false_ne_true

theorem filter_isUsage_usageWarnings (rules : Rules) :
    rules.usageWarnings.filter Diagnostic.isUsage = rules.usageWarnings := by
  refine List.filter_eq_self.2 fun warning hWarning => ?_
  obtain ⟨⟨rule, i⟩, -, hEntry⟩ := List.mem_filterMap.1 hWarning
  dsimp only at hEntry
  split at hEntry
  · cases hEntry
  · exact Option.some.inj hEntry ▸ rfl

end Kinds

namespace Rules

variable {rules : Rules}

open Classical in
/-- If the names of rules differ, then the rules about which warnings are given are those that are
not used. -/
theorem usageWarnings_eq (hNames : (rules.map fun rule => rule.name.name).Nodup) :
    rules.usageWarnings = (rules.zipIdx.filter fun entry => ¬ rules.IsUsed entry.2).map
      fun entry => entry.1.usageWarning := by
  rw [usageWarnings, ← List.filterMap_eq_map, List.filterMap_filter]
  refine List.filterMap_congr fun entry _ => ?_
  obtain ⟨rule, i⟩ := entry
  by_cases hUsed : rules.IsUsed i
  · have hMem := (mem_reachable_iff hNames).2 hUsed
    simp [hMem, hUsed]
  · have hNot := mt (mem_reachable_iff hNames).1 hUsed
    simp [hNot, hUsed, Rule.usageWarning]

/-- The warnings are about different rules if the names of rules differ. -/
theorem nodup_usageWarnings (hNames : (rules.map fun rule => rule.name.name).Nodup) :
    rules.usageWarnings.Nodup := by
  have hEntries : (rules.zipIdx.map fun entry => entry.1.name.name).Nodup := by
    rw [← List.zipIdx_map_fst 0 rules, List.map_map] at hNames
    exact hNames
  rw [usageWarnings_eq hNames]
  refine List.pairwise_map.2 (((List.pairwise_map.1 hEntries).filter _).imp ?_)
  intro a b hNe hWarning
  exact hNe (Problem.unusedRule.inj (Diagnostic.mk.inj hWarning).2)

end Rules

/-- The usage warnings of an analysis that finds nothing fatal are those about its rules. -/
theorem filter_isUsage_analyse {source : List Char} {options : Options} {grammar : Grammar}
    (h : (analyse source options).accepted? = some grammar) :
    (analyse source options).diagnostics.filter Diagnostic.isUsage =
      grammar.rules.usageWarnings := by
  have hText := Grammar.isAnalysed_of_accepted h
  have hDeclarations : ((SourceGrammar.parse source).2.declarationErrors).filter
      Diagnostic.isUsage = [] :=
    filter_isUsage_of_isFatal (List.forall_mem_append.2
      ⟨SourceGrammar.isFatal_repetitionErrors, SourceGrammar.isFatal_nameErrors⟩)
  -- only one of the lists of diagnostics holds usage warnings
  rw [hText.analyse_eq, hText.rules]
  simp only [SourceGrammar.analyse, List.filter_append, hText.isClean.malformed, List.isEmpty_nil,
    if_true, hDeclarations, filter_isUsage_optionWarnings,
    filter_isUsage_of_isFatal SourceGrammar.isFatal_codeErrors,
    filter_isUsage_of_isFatal Rules.isFatal_recursionErrors,
    filter_isUsage_of_isFatal Rules.isFatal_repeatErrors, filter_isUsage_usageWarnings,
    filter_isUsage_ambiguityWarnings, filter_isUsage_of_isFatal Rules.isFatal_scopeErrors,
    Rules.distinct_eq_self hText.isClean.repetitions, List.append_nil, List.nil_append]

open Classical in
/-- For an accepted grammar, the warnings about unused rules are those about the rules to which no
chain of references leads from an entry rule, in the order of the rules, and none is given twice. -/
theorem usageWarnings_exact {source : List Char} {options : Options} {grammar : Grammar}
    (h : (analyse source options).accepted? = some grammar) :
    (analyse source options).diagnostics.filter Diagnostic.isUsage =
        (grammar.rules.zipIdx.filter fun entry => ¬ grammar.rules.IsUsed entry.2).map
          (fun entry => entry.1.usageWarning) ∧
      ((analyse source options).diagnostics.filter Diagnostic.isUsage).Nodup := by
  have hNames := (Grammar.checked_of_accepted h).names
  rw [filter_isUsage_analyse h]
  exact ⟨Rules.usageWarnings_eq hNames, Rules.nodup_usageWarnings hNames⟩

/-! ### A rule that only calls itself -/

namespace Idle

/-- The text `a:(b)?;b:.;c:.c?;`. -/
def source : List Char :=
  ['a', ':', '(', 'b', ')', '?', ';', 'b', ':', '.', ';', 'c', ':', '.', 'c', '?', ';']

/-- An optional call of a rule, with the number `id`. -/
def optionalCall (id : Nat) (span name : Span) (rule : String) : Expr :=
  .subrule (id + 1) span .optional [.mk none [.rule id name none ⟨rule, name⟩ none] name]

/-- A rule without attributes with one alternative. -/
def rule (name : String) (start place : Nat) (elements : List Expr) : Rule where
  name := ⟨name, Sample.place start⟩
  isPublic := false
  attributes := []
  params := none
  returns := none
  alternatives := [.mk none elements (Sample.place place)]

/-- The rules. -/
def rules : Rules :=
  [rule "a" 0 2 [optionalCall 0 (Sample.place 2) (Sample.place 3) "b"],
    rule "b" 7 9 [.wildcard 2 (Sample.place 9) none],
    rule "c" 11 13 [.wildcard 3 (Sample.place 13) none,
      optionalCall 4 (Sample.place 14) (Sample.place 14) "c"]]

/-- The grammar as it is read. -/
def written : SourceGrammar where
  rules
  elements := rules.exprs
  infos := rules.exprs.map fun expr => ⟨expr.span, none⟩

/-- The grammar that the analysis makes of the text. -/
def grammar : Grammar where
  name := written.name
  options := {}
  tokens := []
  prelude := []
  rules
  decisions := rules.decisions rules.first rules.follows
  scopes := []

theorem accepted : (analyse source {}).accepted? = some grammar := by
  have hParse : SourceGrammar.parse source = ([], written) := by with_unfolding_all rfl
  have hClean : written.IsClean {} := by decide +kernel
  have hScopes : rules.scopes = [] := by decide +kernel
  exact (analyse_of_isClean hParse rfl hClean rfl hScopes).1

open Classical in
/-- A warning is given about the rule `c`, which calls itself, but not about the rule `b`, which is
called in a group. -/
theorem usageWarnings_exact_source : (analyse source {}).accepted? = some grammar ∧
    (rules.zipIdx.filter fun entry => ¬ rules.IsUsed entry.2).map
      (fun entry => entry.1.usageWarning) = [⟨Sample.place 11, .unusedRule "c"⟩] := by
  have hWarnings : rules.usageWarnings = [⟨Sample.place 11, .unusedRule "c"⟩] := by
    decide +kernel
  have hExact := (usageWarnings_exact accepted).1
  rw [filter_isUsage_analyse accepted] at hExact
  exact ⟨accepted, hExact.symm.trans hWarnings⟩

end Idle

end TreeGrammar
