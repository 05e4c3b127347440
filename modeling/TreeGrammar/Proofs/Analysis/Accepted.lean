import TreeGrammar.Analysis.Verdict
import TreeGrammar.Proofs.Grammar.Numbering
import TreeGrammar.Proofs.Lookahead.Sites

/-!
# Accepted grammars

What is known about a grammar that the analysis accepts: nothing fatal has been found, so that every
check has passed. Everything that is proved about accepted grammars is proved from these facts.

## Main definitions

* `SourceGrammar.IsClean`: a text in which nothing fatal is found
* `Grammar.Checked`: the checks that a grammar passes

## Main results

* `Rules.distinct_eq_self`: without repetitions, no declaration is dropped
* `Grammar.isAnalysed_of_accepted`: what the analysis has made of an accepted text
* `exists_accepted_iff`: which texts are accepted
* `Grammar.checked_of_accepted`: an accepted grammar passes the checks
-/

namespace TreeGrammar

/-! ### Declarations -/

section Names

variable {α : Type} {ident : α → Ident} {items : List α}

/-- Without repetitions, no item has the name of an earlier one. -/
theorem not_any_of_repetitions_eq_nil (h : repetitions ident items = []) {item : α} {i : Nat}
    (hItem : items[i]? = some item) :
    ¬ (items.take i).any fun other => (ident other).name = (ident item).name := by
  intro hAny
  obtain ⟨other, hOther⟩ := Option.isSome_iff_exists.1
    (List.find?_isSome.2 (List.any_eq_true.1 hAny))
  have hMem : (item, other) ∈ repetitions ident items := by
    refine List.mem_filterMap.2 ⟨(item, i), List.mem_zipIdx_iff_getElem?.2 hItem, ?_⟩
    simp only [hOther, Option.map_some]
  -- otherwise the item would be repeated
  rw [h] at hMem
  exact absurd hMem List.not_mem_nil

theorem firstOfNames_eq_self (h : repetitions ident items = []) :
    firstOfNames ident items = items := by
  -- the test by which an item is dropped fails for each of them
  have hAll : ∀ entry ∈ items.zipIdx, (fun (entry : α × Nat) =>
      if (items.take entry.2).any fun other => (ident other).name = (ident entry.1).name then none
      else some entry.1) entry = some entry.1 := by
    intro entry hEntry
    exact if_neg (not_any_of_repetitions_eq_nil h (List.mem_zipIdx_iff_getElem?.1 hEntry))
  calc firstOfNames ident items
      = items.zipIdx.filterMap (some ∘ Prod.fst) := List.filterMap_congr hAll
    _ = items.zipIdx.map Prod.fst := by rw [List.filterMap_eq_map]
    _ = items := List.zipIdx_map_fst 0 items

/-- Without repetitions, all names differ. -/
theorem nodup_of_repetitions_eq_nil (h : repetitions ident items = []) :
    (items.map fun item => (ident item).name).Nodup := by
  refine List.pairwise_map.2 (List.pairwise_iff_getElem.2 fun i j hi hj hij hName => ?_)
  refine not_any_of_repetitions_eq_nil h (List.getElem?_eq_getElem hj) ?_
  refine List.any_eq_true.2 ⟨items[i], ?_, decide_eq_true hName⟩
  exact List.mem_take_iff_getElem.2 ⟨i, by omega, rfl⟩

end Names

namespace Rules

variable {rules : Rules}

theorem repetitionErrors_eq_nil (h : rules.repetitionErrors = []) :
    repetitions Rule.name rules = [] ∧
      ∀ rule ∈ rules, repetitions Attribute.name rule.attributes = [] := by
  obtain ⟨hRules, hOthers⟩ := List.append_eq_nil_iff.1 h
  have hNames := List.map_eq_nil_iff.1 hRules
  refine ⟨hNames, fun rule hRule => ?_⟩
  rw [firstOfNames_eq_self hNames] at hOthers
  have hErrors := List.flatMap_eq_nil_iff.1 hOthers rule hRule
  exact List.map_eq_nil_iff.1 (List.append_eq_nil_iff.1 hErrors).1

/-- Without repetitions, no declaration is dropped. -/
theorem distinct_eq_self (h : rules.repetitionErrors = []) : rules.distinct = rules := by
  obtain ⟨hNames, hAttributes⟩ := repetitionErrors_eq_nil h
  rw [distinct, firstOfNames_eq_self hNames]
  refine (List.map_congr_left fun rule hRule => ?_).trans (List.map_id rules)
  rw [Rule.distinct, firstOfNames_eq_self (hAttributes rule hRule)]
  rfl

/-- A rule that is declared has a number. -/
theorem exists_index? {name : String} (h : rules.any (·.name.name = name)) :
    ∃ i, rules.index? name = some i := by
  have hSome : (rules.index? name).isSome := by
    rw [index?, List.findIdx?_isSome]
    exact h
  exact Option.isSome_iff_exists.1 hSome

end Rules

/-! ### Fatal diagnostics -/

theorem acceptable_append (a b : List Diagnostic) :
    Acceptable (a ++ b) = (Acceptable a && Acceptable b) := by
  simp [Acceptable]

/-- Fatal diagnostics are acceptable if there are none of them. -/
theorem acceptable_eq_isEmpty {errors : List Diagnostic} (h : ∀ error ∈ errors, error.isFatal) :
    Acceptable errors = errors.isEmpty := by
  cases errors with
  | nil => rfl
  | cons error errors => simp [Acceptable, h error List.mem_cons_self]

theorem acceptable_of_warnings {warnings : List Diagnostic}
    (h : ∀ warning ∈ warnings, warning.isFatal = false) : Acceptable warnings = true := by
  simpa [Acceptable] using h

theorem eq_nil_of_acceptable {errors : List Diagnostic} (h : Acceptable errors)
    (hFatal : ∀ error ∈ errors, error.isFatal) : errors = [] :=
  List.isEmpty_iff.1 ((acceptable_eq_isEmpty hFatal).symm.trans h)

namespace Rules

variable {rules : Rules}

theorem isFatal_resolve {graph : CallGraph} {rule : Nat} {name : String} {problem : Problem}
    (h : rules.resolve graph rule name = .error problem) : problem.kind.isFatal := by
  rw [resolve] at h
  split at h
  · cases h
  · split at h
    · exact Except.error.inj h ▸ rfl
    · dsimp only at h
      split at h
      · exact Except.error.inj h ▸ rfl
      · split at h
        · cases h
        · exact Except.error.inj h ▸ rfl

theorem isFatal_scopeErrors : ∀ error ∈ rules.scopeErrors, error.isFatal := by
  intro error hError
  obtain ⟨resolution, hMem, hResolution⟩ := List.mem_filterMap.1 hError
  obtain ⟨⟨rule, index⟩, -, hReferences⟩ := List.mem_flatMap.1 hMem
  obtain ⟨reference, -, rfl⟩ := List.mem_map.1 hReferences
  split at hResolution
  · cases hResolution
  · next diagnostic hEq =>
    obtain rfl := Option.some.inj hResolution
    split at hEq
    · cases hEq
    · next problem hProblem =>
      obtain rfl := Except.error.inj hEq
      exact isFatal_resolve hProblem

theorem isFatal_recursionErrors {first : String → FirstSet} :
    ∀ error ∈ rules.recursionErrors first, error.isFatal := by
  intro error hError
  obtain ⟨cycle, -, hCycle⟩ := List.mem_filterMap.1 hError
  obtain ⟨rule, -, rfl⟩ := Option.map_eq_some_iff.1 hCycle
  rfl

theorem isFatal_repeatErrors {first : String → FirstSet} :
    ∀ error ∈ rules.repeatErrors first, error.isFatal := by
  intro error hError
  obtain ⟨expr, -, hExpr⟩ := List.mem_filterMap.1 hError
  -- only a repeated group is reported
  cases expr with
  | subrule id span repetition alternatives =>
    rw [Expr.repeatError?] at hExpr
    split at hExpr
    · obtain ⟨alternative, -, rfl⟩ := Option.map_eq_some_iff.1 hExpr
      rfl
    · cases hExpr
  | _ => cases hExpr

theorem isFatal_ambiguityWarnings {decisions : List Decision} :
    ∀ warning ∈ rules.ambiguityWarnings decisions, warning.isFatal = false := by
  intro warning hWarning
  obtain ⟨decision, -, hDecision⟩ := List.mem_flatMap.1 hWarning
  obtain ⟨conflict, -, rfl⟩ := List.mem_map.1 hDecision
  rfl

theorem isFatal_usageWarnings : ∀ warning ∈ rules.usageWarnings, warning.isFatal = false := by
  intro warning hWarning
  obtain ⟨⟨rule, i⟩, -, hEntry⟩ := List.mem_filterMap.1 hWarning
  dsimp only at hEntry
  split at hEntry
  · cases hEntry
  · exact Option.some.inj hEntry ▸ rfl

end Rules

namespace SourceGrammar

variable {grammar : SourceGrammar}

theorem isFatal_declarationErrors {rule : Rule} :
    ∀ error ∈ rule.declarationErrors, error.isFatal := by
  intro error hError
  rcases List.mem_append.1 hError with hAttribute | hReturn
  · obtain ⟨_, -, rfl⟩ := List.mem_map.1 hAttribute
    rfl
  · obtain ⟨returns, -, hClash⟩ := Option.bind_eq_some_iff.1 (Option.mem_toList.1 hReturn)
    obtain ⟨attr, -, rfl⟩ := Option.map_eq_some_iff.1 hClash
    rfl

theorem isFatal_repetitionErrors {rules : Rules} :
    ∀ error ∈ rules.repetitionErrors, error.isFatal := by
  intro error hError
  rcases List.mem_append.1 hError with hRule | hOther
  · obtain ⟨_, -, rfl⟩ := List.mem_map.1 hRule
    rfl
  · obtain ⟨rule, -, hErrors⟩ := List.mem_flatMap.1 hOther
    exact isFatal_declarationErrors error hErrors

theorem isFatal_nameError {expr : Expr} {problem : Problem}
    (h : grammar.nameError? expr = some problem) : problem.kind.isFatal := by
  unfold nameError? at h
  split at h
  -- the elements that name nothing are never reported
  case h_4 => cases h
  all_goals
    split at h
    · cases h
    · exact Option.some.inj h ▸ rfl

theorem isFatal_nameErrors : ∀ error ∈ grammar.nameErrors, error.isFatal := by
  intro error hError
  obtain ⟨expr, -, hExpr⟩ := List.mem_filterMap.1 hError
  obtain ⟨problem, hProblem, rfl⟩ := Option.map_eq_some_iff.1 hExpr
  exact isFatal_nameError hProblem

end SourceGrammar

theorem NameRole.isFatal_error {role : NameRole} {name : String} {problem : Problem}
    (h : role.error? name = some problem) : problem.kind.isFatal := by
  rw [error?] at h
  split at h
  · exact Option.some.inj h ▸ rfl
  · split at h
    · exact Option.some.inj h ▸ rfl
    · cases h

theorem Ident.isFatal_roleError {role : NameRole} {ident : Ident} {error : Diagnostic}
    (h : ident.roleError? role = some error) : error.isFatal := by
  obtain ⟨problem, hProblem, rfl⟩ := Option.map_eq_some_iff.1 h
  exact NameRole.isFatal_error hProblem

theorem Attribute.isFatal_initError {kind : DeclarationKind} {attr : Attribute} {error : Diagnostic}
    (h : attr.initError? kind = some error) : error.isFatal := by
  obtain ⟨init, -, hInit⟩ := Option.bind_eq_some_iff.1 h
  split at hInit
  · exact Option.some.inj hInit ▸ rfl
  · split at hInit
    · cases hInit
    · exact Option.some.inj hInit ▸ rfl

theorem Attribute.isFatal_codeErrors {kind : DeclarationKind} {attr : Attribute} :
    ∀ error ∈ attr.codeErrors kind, error.isFatal := by
  simp only [codeErrors, List.forall_mem_append]
  refine ⟨⟨fun error hError => ?_, fun error hError => ?_⟩, fun error hError => ?_⟩
  · exact Ident.isFatal_roleError (Option.mem_toList.1 hError)
  · split at hError
    · cases hError
    · exact List.mem_singleton.1 hError ▸ rfl
  · exact isFatal_initError (Option.mem_toList.1 hError)

namespace Rule

variable {rule : Rule}

theorem isFatal_paramErrors : ∀ problem ∈ rule.paramErrors, problem.kind.isFatal := by
  intro problem hProblem
  rw [paramErrors] at hProblem
  split at hProblem
  · exact List.mem_singleton.1 hProblem ▸ rfl
  · obtain ⟨parameter, -, hParameter⟩ := List.mem_filterMap.1 hProblem
    cases parameter with
    | named name => exact NameRole.isFatal_error hParameter
    | receiver | complex => exact Option.some.inj hParameter ▸ rfl

theorem isFatal_codeErrors : ∀ error ∈ rule.codeErrors, error.isFatal := by
  simp only [codeErrors, List.forall_mem_append]
  refine ⟨⟨⟨fun error hError => ?_, fun error hError => ?_⟩, fun error hError => ?_⟩,
    fun error hError => ?_⟩
  · exact Ident.isFatal_roleError (Option.mem_toList.1 hError)
  · obtain ⟨attr, -, hAttr⟩ := List.mem_flatMap.1 hError
    exact Attribute.isFatal_codeErrors error hAttr
  · obtain ⟨attr, -, hAttr⟩ := List.mem_flatMap.1 hError
    exact Attribute.isFatal_codeErrors error hAttr
  · obtain ⟨params, -, hParams⟩ := List.mem_flatMap.1 hError
    obtain ⟨problem, hProblem, rfl⟩ := List.mem_map.1 hParams
    exact isFatal_paramErrors problem hProblem

theorem isFatal_strayMarkErrors : ∀ error ∈ rule.strayMarkErrors, error.isFatal := by
  intro error hError
  obtain ⟨code, -, hCode⟩ := List.mem_flatMap.1 hError
  obtain ⟨span, -, rfl⟩ := List.mem_map.1 hCode
  rfl

end Rule

theorem SourceGrammar.isFatal_codeErrors {grammar : SourceGrammar} {options : Options}
    {rules : Rules} : ∀ error ∈ grammar.codeErrors options rules, error.isFatal := by
  simp only [codeErrors, List.forall_mem_append]
  refine ⟨⟨⟨⟨⟨fun error hError => ?_, fun error hError => ?_⟩, fun error hError => ?_⟩,
    fun error hError => ?_⟩, fun error hError => ?_⟩, fun error hError => ?_⟩
  · exact Ident.isFatal_roleError (Option.mem_toList.1 hError)
  · obtain ⟨type, -, hType⟩ := Option.bind_eq_some_iff.1 (Option.mem_toList.1 hError)
    split at hType
    · cases hType
    · exact Option.some.inj hType ▸ rfl
  · obtain ⟨prelude, -, hPrelude⟩ := List.mem_filterMap.1 hError
    split at hPrelude
    · cases hPrelude
    · exact Option.some.inj hPrelude ▸ rfl
  · obtain ⟨rule, -, hRule⟩ := List.mem_flatMap.1 hError
    exact Rule.isFatal_codeErrors error hRule
  · obtain ⟨rule, -, hRule⟩ := List.mem_flatMap.1 hError
    exact Rule.isFatal_strayMarkErrors error hRule
  · obtain ⟨label, -, hLabel⟩ := List.mem_filterMap.1 hError
    exact Ident.isFatal_roleError hLabel

theorem GrammarOption.isFatal_warning {option : GrammarOption} {warning : Diagnostic}
    (h : option.warning? = some warning) : warning.isFatal = false := by
  simp only [warning?] at h
  split at h
  · split at h
    · cases h
    · exact Option.some.inj h ▸ rfl
  · split at h
    · obtain ⟨args, -, rfl⟩ := Option.map_eq_some_iff.1 h
      rfl
    · exact Option.some.inj h ▸ rfl

theorem SourceGrammar.isFatal_optionWarnings {grammar : SourceGrammar} :
    ∀ warning ∈ grammar.optionWarnings, warning.isFatal = false := by
  intro warning hWarning
  obtain ⟨option, -, hOption⟩ := List.mem_filterMap.1 hWarning
  exact GrammarOption.isFatal_warning hOption

section Text

variable (source : List Char) (options : Options)

/-- The syntax errors of a text. -/
def syntaxErrors : List Diagnostic :=
  (SourceGrammar.parse source).1.map fun error => ⟨error.span, .syntaxError error.cause⟩

theorem isFatal_syntaxErrors : ∀ error ∈ syntaxErrors source, error.isFatal := by
  intro error hError
  obtain ⟨_, -, rfl⟩ := List.mem_map.1 hError
  rfl

theorem analyse_of_rules (hRules : (SourceGrammar.parse source).2.rules.isEmpty = false) :
    analyse source options =
      (SourceGrammar.parse source).2.analyse options (syntaxErrors source) := by
  rw [analyse]
  simp only [hRules]
  rfl

end Text

/-! ### The checks -/

/-- Nothing is found in what is read of a text that is fatal. -/
structure SourceGrammar.IsClean (written : SourceGrammar) (options : Options) : Prop where
  malformed : written.malformed = []
  repetitions : written.rules.repetitionErrors = []
  names : written.nameErrors = []
  code : written.codeErrors (written.mergedOptions options) written.rules = []
  recursion : written.rules.recursionErrors written.rules.first = []
  repeats : written.rules.repeatErrors written.rules.first = []
  scopes : written.rules.scopeErrors = []

instance (written : SourceGrammar) (options : Options) : Decidable (written.IsClean options) :=
  decidable_of_iff (written.malformed = [] ∧ written.rules.repetitionErrors = [] ∧
      written.nameErrors = [] ∧
      written.codeErrors (written.mergedOptions options) written.rules = [] ∧
      written.rules.recursionErrors written.rules.first = [] ∧
      written.rules.repeatErrors written.rules.first = [] ∧ written.rules.scopeErrors = [])
    ⟨fun ⟨hMalformed, hRepetitions, hNames, hCode, hRecursion, hRepeats, hScopes⟩ =>
        ⟨hMalformed, hRepetitions, hNames, hCode, hRecursion, hRepeats, hScopes⟩,
      fun h => ⟨h.malformed, h.repetitions, h.names, h.code, h.recursion, h.repeats, h.scopes⟩⟩

theorem SourceGrammar.isClean_of_acceptable {written : SourceGrammar} {options : Options}
    (hMalformed : written.malformed = [])
    (h : Acceptable (written.analyse options []).diagnostics) : written.IsClean options := by
  simp only [analyse, declarationErrors, acceptable_append, Bool.and_eq_true, hMalformed,
    List.isEmpty_nil, if_true] at h
  obtain ⟨⟨⟨⟨⟨⟨⟨⟨-, hRepetitions, hNames⟩, -⟩, hCode⟩, hRecursion⟩, hRepeats⟩, -⟩, -⟩, hScopes⟩ := h
  have hNone := eq_nil_of_acceptable hRepetitions isFatal_repetitionErrors
  -- the later checks look at the rules without repetitions, which are all rules
  rw [Rules.distinct_eq_self hNone] at hCode hRecursion hRepeats hScopes
  exact ⟨hMalformed, hNone, eq_nil_of_acceptable hNames isFatal_nameErrors,
    eq_nil_of_acceptable hCode isFatal_codeErrors,
    eq_nil_of_acceptable hRecursion Rules.isFatal_recursionErrors,
    eq_nil_of_acceptable hRepeats Rules.isFatal_repeatErrors,
    eq_nil_of_acceptable hScopes Rules.isFatal_scopeErrors⟩

theorem SourceGrammar.IsClean.nameError?_eq_none {written : SourceGrammar} {options : Options}
    (h : written.IsClean options) {expr : Expr} (hExpr : expr ∈ written.rules.exprs) :
    written.nameError? expr = none := by
  rw [← Rules.distinct_eq_self h.repetitions] at hExpr
  simpa using (List.filterMap_eq_nil_iff.1 h.names) expr hExpr

/-- The grammar is what the analysis makes of a text in which it finds nothing fatal. -/
structure Grammar.IsAnalysed (source : List Char) (options : Options) (grammar : Grammar) :
    Prop where
  errors : (SourceGrammar.parse source).1 = []
  hasRules : (SourceGrammar.parse source).2.rules.isEmpty = false
  analyse_eq : TreeGrammar.analyse source options =
    (SourceGrammar.parse source).2.analyse options []
  isClean : (SourceGrammar.parse source).2.IsClean options
  rules : grammar.rules = (SourceGrammar.parse source).2.rules
  tokens : grammar.tokens = (SourceGrammar.parse source).2.tokens
  prelude : grammar.prelude = (SourceGrammar.parse source).2.prelude
  options : grammar.options = (SourceGrammar.parse source).2.mergedOptions options
  decisions : grammar.decisions = grammar.rules.decisions grammar.rules.first grammar.rules.follows
  scopes : grammar.scopes = grammar.rules.scopes

theorem Grammar.isAnalysed_of_accepted {source : List Char} {options : Options} {grammar : Grammar}
    (h : (TreeGrammar.analyse source options).accepted? = some grammar) :
    grammar.IsAnalysed source options := by
  rw [Analysis.accepted?] at h
  split at h
  case isFalse => cases h
  case isTrue hAcceptable =>
    cases hRules : (SourceGrammar.parse source).2.rules.isEmpty with
    | true => simp [TreeGrammar.analyse, hRules] at h
    | false =>
      have hAnalyse := analyse_of_rules source options hRules
      rw [hAnalyse] at h hAcceptable
      -- syntax errors are fatal, so that the text is well written
      have hErrors : syntaxErrors source = [] := by
        refine eq_nil_of_acceptable ?_ (isFatal_syntaxErrors source)
        simp only [SourceGrammar.analyse, acceptable_append, Bool.and_eq_true] at hAcceptable
        tauto
      have hParse := List.map_eq_nil_iff.1 hErrors
      rw [hErrors] at hAnalyse hAcceptable
      have hClean := SourceGrammar.isClean_of_acceptable (SourceGrammar.malformed_parse hParse)
        hAcceptable
      obtain rfl := Option.some.inj h
      exact ⟨hParse, hRules, hAnalyse, hClean, Rules.distinct_eq_self hClean.repetitions, rfl, rfl, rfl,
        rfl, rfl⟩

/-- The checks that an accepted grammar passes. -/
structure Grammar.Checked (grammar : Grammar) : Prop where
  decisions : grammar.decisions = grammar.rules.decisions grammar.rules.first grammar.rules.follows
  scopes : grammar.scopes = grammar.rules.scopes
  /-- The elements are numbered in order. -/
  increasing : (grammar.rules.exprs.map Expr.id).Pairwise (· < ·)
  groups : ∀ expr ∈ grammar.rules.exprs, expr.HasAlternatives
  alternatives : ∀ rule ∈ grammar.rules, rule.alternatives ≠ []
  names : (grammar.rules.map fun rule => rule.name.name).Nodup
  /-- The rules that are called are declared. -/
  calls : ∀ expr ∈ grammar.rules.exprs, ∀ name, expr.called? = some name →
    ∃ i, grammar.rules.index? name = some i
  recursion : grammar.rules.recursionErrors grammar.rules.first = []
  repeats : grammar.rules.repeatErrors grammar.rules.first = []
  scopeErrors : grammar.rules.scopeErrors = []

namespace Grammar

/-- An accepted grammar passes the checks. -/
theorem checked_of_accepted {source : List Char} {options : Options} {grammar : Grammar}
    (h : (analyse source options).accepted? = some grammar) : grammar.Checked := by
  have hText := isAnalysed_of_accepted h
  have hNumbers := SourceGrammar.wellNumbered_parse source
  refine ⟨hText.decisions, hText.scopes, ?increasing, ?groups, ?alternatives, ?names, ?calls,
    ?recursion, ?repeats, ?scopeErrors⟩
  all_goals rw [hText.rules]
  case increasing => exact hNumbers.increasing
  case groups => exact hNumbers.hasAlternatives
  case alternatives => exact hNumbers.alternatives
  case names =>
    exact nodup_of_repetitions_eq_nil (Rules.repetitionErrors_eq_nil hText.isClean.repetitions).1
  case recursion => exact hText.isClean.recursion
  case repeats => exact hText.isClean.repeats
  case scopeErrors => exact hText.isClean.scopes
  case calls =>
    intro expr hExpr name hCalled
    have hError := hText.isClean.nameError?_eq_none hExpr
    cases expr with
    | rule id span label called args =>
      obtain rfl := Option.some.inj hCalled
      have hDeclared : (SourceGrammar.parse source).2.declaresRule called.name := by
        by_contra hNot
        simp [SourceGrammar.nameError?, hNot] at hError
      -- the names of rules that are not well written count as declared, but there are none
      rw [SourceGrammar.declaresRule, hText.isClean.malformed, List.any_nil, Bool.or_false]
        at hDeclared
      exact Rules.exists_index? hDeclared
    | _ => cases hCalled

/-- An analysis reports the conflicts of the grammar that it makes. -/
theorem ambiguityWarnings_subset {source : List Char} {options : Options} {grammar : Grammar}
    (h : (analyse source options).accepted? = some grammar) :
    grammar.rules.ambiguityWarnings grammar.decisions ⊆ (analyse source options).diagnostics := by
  have hText := isAnalysed_of_accepted h
  rw [hText.decisions, hText.rules, hText.analyse_eq]
  intro warning hWarning
  simp only [SourceGrammar.analyse, Rules.distinct_eq_self hText.isClean.repetitions,
    List.mem_append]
  exact .inl (.inr hWarning)

/-- The decisions of an accepted grammar fit its elements and rules. -/
theorem Checked.settled {grammar : Grammar} (h : grammar.Checked) :
    grammar.rules.Settled grammar.decisions := by
  rw [h.decisions]
  exact Rules.settled_decisions (h.increasing.imp Nat.ne_of_lt)

end Grammar

/-- A text in which nothing fatal is found is accepted, with warnings about its options, about rules
that are not used and about conflicts. -/
theorem analyse_of_isClean {source : List Char} {written : SourceGrammar} {options : Options}
    {decisions : List Decision} {scopes : ScopePlan}
    (hParse : SourceGrammar.parse source = ([], written)) (hRules : written.rules.isEmpty = false)
    (hClean : written.IsClean options)
    (hDecisions : written.rules.decisions written.rules.first written.rules.follows = decisions)
    (hScopes : written.rules.scopes = scopes) :
    (analyse source options).accepted? = some {
      name := written.name
      options := written.mergedOptions options
      tokens := written.tokens
      prelude := written.prelude
      rules := written.rules
      decisions
      scopes } ∧
    (analyse source options).diagnostics =
      written.optionWarnings ++ written.rules.usageWarnings ++
        written.rules.ambiguityWarnings decisions := by
  have hFirst : written.rules.firstOf written.rules.firstSets = written.rules.first := rfl
  have hFollows : written.rules.followSets written.rules.first = written.rules.follows := rfl
  have hDistinct := Rules.distinct_eq_self hClean.repetitions
  have hAnalyse : analyse source options = written.analyse options [] := by
    rw [analyse, hParse]
    simp only [hRules, List.map_nil]
    rfl
  have hDiagnostics : (written.analyse options []).diagnostics =
      written.optionWarnings ++ written.rules.usageWarnings ++
        written.rules.ambiguityWarnings decisions := by
    simp only [SourceGrammar.analyse, SourceGrammar.declarationErrors, hDistinct, hFirst, hFollows,
      hDecisions, hClean.malformed, hClean.repetitions, hClean.names, hClean.code,
      hClean.recursion, hClean.repeats, hClean.scopes, List.isEmpty_nil, if_true, List.append_nil,
      List.nil_append]
  have hAcceptable : Acceptable (written.optionWarnings ++ written.rules.usageWarnings ++
      written.rules.ambiguityWarnings decisions) := by
    rw [acceptable_append, acceptable_append,
      acceptable_of_warnings SourceGrammar.isFatal_optionWarnings,
      acceptable_of_warnings Rules.isFatal_usageWarnings,
      acceptable_of_warnings Rules.isFatal_ambiguityWarnings]
    rfl
  rw [hAnalyse]
  refine ⟨?_, hDiagnostics⟩
  rw [Analysis.accepted?, hDiagnostics, if_pos hAcceptable]
  simp only [SourceGrammar.analyse, hDistinct, hFirst, hFollows, hDecisions, hScopes]

/-- The analysis accepts a text if and only if there are rules in it and nothing that is fatal. -/
theorem exists_accepted_iff {source : List Char} {options : Options} :
    (∃ grammar, (analyse source options).accepted? = some grammar) ↔
      (SourceGrammar.parse source).1 = [] ∧
        (SourceGrammar.parse source).2.rules.isEmpty = false ∧
        (SourceGrammar.parse source).2.IsClean options := by
  constructor
  · rintro ⟨grammar, h⟩
    have hText := Grammar.isAnalysed_of_accepted h
    exact ⟨hText.errors, hText.hasRules, hText.isClean⟩
  · rintro ⟨hErrors, hRules, hClean⟩
    exact ⟨_, (analyse_of_isClean (Prod.ext hErrors rfl) hRules hClean rfl rfl).1⟩

/-! ### A small grammar

The rule `s` declares an attribute and calls `t`, which may match a node and then runs code that
refers to the attribute. -/

namespace Sample

/-- The text `s[x:u8]:t;t:.?{@x};`. -/
def source : List Char :=
  ['s', '[', 'x', ':', 'u', '8', ']', ':', 't', ';', 't', ':', '.', '?', '\x7b', '@', 'x', '\x7d',
    ';']

/-- The position after the given number of characters of the text. -/
def place (offset : Nat) : Span := { line := 1, column := offset + 1, offset }

/-- The rule `s`. -/
def caller : Rule where
  name := ⟨"s", place 0⟩
  isPublic := false
  attributes := [⟨⟨"x", place 2⟩, ⟨"u8", place 4⟩, none⟩]
  params := none
  returns := none
  alternatives := [.mk none [.rule 0 (place 8) none ⟨"t", place 8⟩ none] (place 8)]

/-- The alternatives of the group in the rule `t`. -/
def group : List Alternative := [.mk none [.wildcard 1 (place 12) none] (place 12)]

/-- The code in the rule `t`. -/
def code : Fragment := ⟨"@x", place 15⟩

/-- The rule `t`. -/
def callee : Rule where
  name := ⟨"t", place 10⟩
  isPublic := false
  attributes := []
  params := none
  returns := none
  alternatives := [.mk none [.subrule 2 (place 12) .optional group, .action 3 code] (place 12)]

/-- The rules. -/
def rules : Rules := [caller, callee]

/-- The decision at the group. -/
def decision : Decision where
  id := 0
  site := .subrule 2
  kind := .optional
  rule := 1
  span := place 12
  candidates := [{ prediction := .anyNode, guarded := false, nullable := false }]
  exit := some .endOfList

/-- The grammar that the analysis makes of the text. -/
def grammar : Grammar where
  name := ⟨"tree_grammar", Span.start⟩
  options := {}
  tokens := []
  prelude := []
  rules
  decisions := [decision]
  scopes := [{ rule := 1, name := "x", resolution := { declaring := [0], type := "u8" } }]

/-- The grammar as it is read. -/
def written : SourceGrammar where
  rules
  elements := rules.exprs
  infos := rules.exprs.map fun expr => ⟨expr.span, none⟩

theorem parse_source : SourceGrammar.parse source = ([], written) := by
  with_unfolding_all rfl

/-- The small grammar is accepted. -/
theorem accepted : (analyse source {}).accepted? = some grammar := by
  have hClean : written.IsClean {} := by decide +kernel
  have hDecisions : rules.decisions rules.first rules.follows = [decision] := by decide +kernel
  have hScopes : rules.scopes =
      [{ rule := 1, name := "x", resolution := { declaring := [0], type := "u8" } }] := by
    decide +kernel
  exact (analyse_of_isClean parse_source rfl hClean hDecisions hScopes).1

end Sample

end TreeGrammar
