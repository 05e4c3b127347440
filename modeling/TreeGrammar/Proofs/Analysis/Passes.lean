import Mathlib.Data.List.Basic
import TreeGrammar.Passes
import TreeGrammar.Proofs.Analysis.Accepted
import TreeGrammar.Proofs.Analysis.Cycles

/-!
# What the passes report

Every pass of the analysis reports what `analyse` says, and its flag is set if and only if one of
its own diagnostics is fatal.

## Main definitions

* `Pass.Reports`: what a pass makes of a result, and what it adds to the diagnostics

## Main results

* `keepFirst_reports`, `Draft.endingWalks_reports`, ...: what the passes report
-/

namespace TreeGrammar

/-! ### Results of passes -/

@[simp] theorem Partial.isValue_demote {α : Type} (outcome : Partial α) :
    outcome.demote.isValue = false := by
  cases outcome <;> rfl

@[simp] theorem Partial.result?_demote {α : Type} (outcome : Partial α) :
    outcome.demote.result? = outcome.result? := by
  cases outcome <;> rfl

theorem Partial.demote_demote {α : Type} (outcome : Partial α) :
    outcome.demote.demote = outcome.demote := by
  cases outcome <;> rfl

/-- A result, a value if nothing has been found against it. -/
def Partial.judged {α : Type} (verdict : Bool) (result : α) : Partial α :=
  if verdict then .value result else .fake result

section Judged

variable {α β : Type} (verdict : Bool) (result : α)

@[simp] theorem Partial.isValue_judged : (judged verdict result).isValue = verdict := by
  cases verdict <;> rfl

@[simp] theorem Partial.result?_judged : (judged verdict result).result? = some result := by
  cases verdict <;> rfl

@[simp] theorem Partial.demote_judged : (judged verdict result).demote = .fake result := by
  cases verdict <;> rfl

@[simp] theorem Partial.map_judged (f : α → β) :
    (judged verdict result).map f = judged verdict (f result) := by
  cases verdict <;> rfl

end Judged

/-- What a pass makes of a result, and what it adds to the diagnostics: the new result is a value if
and only if no new diagnostic is fatal. -/
def Pass.Reports {α β : Type} (pass : Pass α β) (result : α) (next : β)
    (diagnostics : List Diagnostic) : Prop :=
  ∀ before, pass result before = ⟨.judged (Acceptable diagnostics) next, before ++ diagnostics⟩

theorem Pass.Reports.of_warnings {α β : Type} {pass : Pass α β} {result : α} {next : β}
    {warnings : List Diagnostic} (hWarnings : ∀ warning ∈ warnings, warning.isFatal = false)
    (h : ∀ before, pass result before = ⟨.value next, before ++ warnings⟩) :
    pass.Reports result next warnings := by
  intro before
  rw [h, acceptable_of_warnings hWarnings]
  rfl

/-! ### Flags -/

namespace Checker

/-- The state after some errors have been reported and noted. -/
def errors (checker : Checker) (errors : List Diagnostic) : Checker :=
  ⟨checker.diagnostics ++ errors, checker.failed || !errors.isEmpty⟩

@[simp] theorem errors_nil (checker : Checker) : checker.errors [] = checker := by
  simp [errors]

theorem error_eq (checker : Checker) (diagnostic : Diagnostic) :
    checker.error diagnostic = checker.errors [diagnostic] := by
  simp [error, report, fail, errors]

@[simp] theorem errors_errors (checker : Checker) (first second : List Diagnostic) :
    (checker.errors first).errors second = checker.errors (first ++ second) := by
  cases first <;> simp [errors]

theorem foldl_error (checker : Checker) (errors : List Diagnostic) :
    errors.foldl error checker = checker.errors errors := by
  induction errors generalizing checker with
  | nil => simp
  | cons first others ih => rw [List.foldl_cons, ih, error_eq, errors_errors, List.singleton_append]

/-- A pass that has noted what it has reported, if all of this is fatal. -/
theorem finish_errors {α : Type} {errors : List Diagnostic} (h : ∀ error ∈ errors, error.isFatal)
    (before : List Diagnostic) (result : α) :
    (Checker.errors ⟨before, false⟩ errors).finish result =
      ⟨.judged (Acceptable errors) result, before ++ errors⟩ := by
  rw [acceptable_eq_isEmpty h]
  cases errors <;> rfl

end Checker

theorem checkAll_reports {α : Type} {errors : List Diagnostic} (h : ∀ error ∈ errors, error.isFatal)
    (result : α) : (checkAll errors).Reports result result errors := by
  intro before
  rw [checkAll, Checker.foldl_error, Checker.finish_errors h]

/-! ### Repetitions -/

section Distinct

variable {α : Type} {ident : α → Ident} {items : List α}

/-- What stands in front of an item does not change if one more item comes at the end. -/
theorem take_concat_of_mem_zipIdx {items : List α} {entry : α × Nat} (h : entry ∈ items.zipIdx)
    (item : α) : (items ++ [item]).take entry.2 = items.take entry.2 :=
  List.take_append_of_le_length (Nat.le_of_lt (List.mem_zipIdx' h).1)

theorem firstOfNames_concat (items : List α) (item : α) :
    firstOfNames ident (items ++ [item]) = firstOfNames ident items ++
      if items.any fun other => (ident other).name = (ident item).name then [] else [item] := by
  rw [firstOfNames, List.zipIdx_append, List.filterMap_append]
  congr 1
  · refine List.filterMap_congr fun entry hEntry => ?_
    simp only [take_concat_of_mem_zipIdx hEntry]
  · have hTake : (items ++ [item]).take (0 + items.length) = items := by simp
    simp only [List.zipIdx_cons, List.zipIdx_nil, List.filterMap_cons, List.filterMap_nil, hTake]
    by_cases h : items.any fun other => (ident other).name = (ident item).name
    · simp only [if_pos h]
    · simp only [if_neg h]

theorem repetitions_concat (items : List α) (item : α) :
    repetitions ident (items ++ [item]) = repetitions ident items ++
      ((items.find? fun other => (ident other).name = (ident item).name).map (item, ·)).toList := by
  rw [repetitions, List.zipIdx_append, List.filterMap_append]
  congr 1
  · refine List.filterMap_congr fun entry hEntry => ?_
    simp only [take_concat_of_mem_zipIdx hEntry]
  · cases h : items.find? fun other => (ident other).name = (ident item).name <;> simp [h]

/-- The first item of a name is kept. -/
theorem find?_firstOfNames (items : List α) (name : String) :
    (firstOfNames ident items).find? (fun other => (ident other).name = name) =
      items.find? fun other => (ident other).name = name := by
  induction items using List.reverseRecOn with
  | nil => rfl
  | append_singleton items item ih =>
    rw [firstOfNames_concat, List.find?_append, List.find?_append, ih]
    split
    · next h =>
      -- an item that is dropped is not the first one of its name
      obtain ⟨first, hFirst⟩ :=
        Option.isSome_iff_exists.1 (List.find?_isSome.2 (List.any_eq_true.1 h))
      by_cases hName : (ident item).name = name
      · subst hName
        simp [hFirst]
      · simp [hName]
    · rfl

/-- The items that are kept are the first ones of their names. -/
theorem foldl_keepItem (problem : α → α → Diagnostic) (checker : Checker) (items : List α) :
    items.foldl (keepItem ident problem) ([], checker) =
      (firstOfNames ident items,
        checker.errors ((repetitions ident items).map fun pair =>
          problem pair.1 pair.2)) := by
  induction items using List.reverseRecOn with
  | nil => simp [firstOfNames, repetitions]
  | append_singleton items item ih =>
    rw [List.foldl_concat, ih, keepItem, find?_firstOfNames, firstOfNames_concat,
      repetitions_concat]
    cases h : items.find? fun other => (ident other).name = (ident item).name with
    | none =>
      have hAny : ¬ items.any fun other => (ident other).name = (ident item).name := by
        simpa using h
      rw [if_neg hAny]
      simp
    | some previous =>
      have hAny : items.any fun other => (ident other).name = (ident item).name :=
        List.any_eq_true.2 ⟨previous, List.mem_of_find?_eq_some h, by simpa using List.find?_some h⟩
      rw [if_pos hAny]
      simp [Checker.error_eq]

theorem keepFirst_eq (ident : α → Ident) (problem : α → α → Diagnostic) (items : List α)
    (before : List Diagnostic) :
    keepFirst ident problem items before =
      (Checker.errors ⟨before, false⟩ ((repetitions ident items).map fun pair =>
        problem pair.1 pair.2)).finish (firstOfNames ident items) := by
  rw [keepFirst, foldl_keepItem]

/-- The first item of each name is kept, and the others are reported. -/
theorem keepFirst_reports (ident : α → Ident) (problem : α → α → Diagnostic)
    (hProblem : ∀ item previous, (problem item previous).isFatal) (items : List α) :
    (keepFirst ident problem).Reports items (firstOfNames ident items)
      ((repetitions ident items).map fun pair => problem pair.1 pair.2) := by
  have hFatal : ∀ error ∈ (repetitions ident items).map (fun pair => problem pair.1 pair.2),
      error.isFatal := by
    intro error hError
    obtain ⟨pair, -, rfl⟩ := List.mem_map.1 hError
    exact hProblem pair.1 pair.2
  intro before
  rw [keepFirst_eq, Checker.finish_errors hFatal]

end Distinct

namespace Rule

/-- The first attribute of a name is kept. -/
theorem attribute?_distinct (rule : Rule) (name : String) :
    rule.distinct.attribute? name = rule.attribute? name :=
  find?_firstOfNames rule.attributes name

/-- The flag of the pass takes over the flag of the check of the attributes. -/
theorem keepAttributes_eq (rule : Rule) (checker : Checker) :
    rule.keepAttributes checker = (rule.distinct, checker.errors rule.declarationErrors) := by
  have hClash : rule.distinct.clash? = rule.clash? := by
    simp only [clash?, attribute?_distinct]
    rfl
  have hErrors : rule.declarationErrors =
      (repetitions Attribute.name rule.attributes).map (fun pair =>
        pair.1.repetition pair.2) ++ rule.clash?.toList := rfl
  have hLast : ∀ checker : Checker,
      rule.distinct.clash?.elim checker checker.error = checker.errors rule.clash?.toList := by
    intro checker
    rw [hClash]
    cases rule.clash? <;> simp [Checker.error_eq]
  rw [keepAttributes, keepFirst_eq, hErrors, ← Checker.errors_errors, ← hLast]
  generalize (repetitions Attribute.name rule.attributes).map (fun pair =>
    pair.1.repetition pair.2) = errors
  cases errors with
  | nil =>
    have hChecker : Checker.mk (checker.diagnostics ++ []) checker.failed = checker.errors [] := by
      simp
    exact hChecker ▸ rfl
  | cons error errors =>
    have hChecker : Checker.mk (checker.diagnostics ++ error :: errors) true =
        checker.errors (error :: errors) := by
      simp [Checker.errors]
    exact hChecker ▸ rfl

end Rule

/-! ### Results of the members of a list -/

/-- Each member of a list that has a result is related to its result. -/
theorem forall₂_filterMap {α β : Type} {r : α → β → Prop} {f : α → Option β} {xs : List α}
    (h : ∀ x ∈ xs, ∃ y, f x = some y ∧ r x y) : List.Forall₂ r xs (xs.filterMap f) := by
  induction xs with
  | nil => exact .nil
  | cons x xs ih =>
    obtain ⟨⟨y, hy, hr⟩, hOthers⟩ := List.forall_mem_cons.1 h
    rw [List.filterMap_cons_some hy]
    exact .cons hr (ih hOthers)

/-! ### The passes -/

namespace Draft

variable (draft : Draft)

theorem distinctRules_reports :
    distinctRules.Reports draft (draft.withRules (firstOfNames Rule.name draft.source.rules))
      ((repetitions Rule.name draft.source.rules).map fun pair =>
        pair.1.repetition pair.2) := by
  intro before
  rw [distinctRules, keepFirst_reports Rule.name Rule.repetition fun _ _ => rfl]
  simp

theorem foldl_keepRule (kept : Rules) (checker : Checker) (rules : Rules) :
    rules.foldl keepRule (kept, checker) =
      (kept ++ rules.map Rule.distinct, checker.errors (rules.flatMap Rule.declarationErrors)) := by
  induction rules generalizing kept checker with
  | nil => simp
  | cons rule rules ih =>
    have hRule : keepRule (kept, checker) rule =
        (kept ++ [rule.distinct], checker.errors rule.declarationErrors) := by
      rw [keepRule, Rule.keepAttributes_eq]
    rw [List.foldl_cons, hRule, ih]
    simp

theorem distinctAttributes_reports :
    distinctAttributes.Reports draft (draft.withRules (draft.source.rules.map Rule.distinct))
      (draft.source.rules.flatMap Rule.declarationErrors) := by
  have hFatal : ∀ error ∈ draft.source.rules.flatMap Rule.declarationErrors, error.isFatal := by
    intro error hError
    obtain ⟨rule, -, hRule⟩ := List.mem_flatMap.1 hError
    exact SourceGrammar.isFatal_declarationErrors error hRule
  intro before
  rw [distinctAttributes, foldl_keepRule]
  exact Checker.finish_errors hFatal before _

theorem declaredNames_reports :
    declaredNames.Reports draft draft
      (draft.source.rules.exprs.filterMap fun expr =>
        (draft.source.nameError? expr).map (⟨expr.span, ·⟩)) := by
  refine checkAll_reports (fun error hError => ?_) draft
  obtain ⟨expr, -, hExpr⟩ := List.mem_filterMap.1 hError
  obtain ⟨problem, hProblem, rfl⟩ := Option.map_eq_some_iff.1 hExpr
  exact SourceGrammar.isFatal_nameError hProblem

theorem mergeOptions_reports :
    mergeOptions.Reports draft
      { draft with options := draft.source.mergedOptions draft.options }
      draft.source.optionWarnings :=
  .of_warnings SourceGrammar.isFatal_optionWarnings fun _ => rfl

theorem validCode_reports :
    validCode.Reports draft draft
      (draft.source.codeErrors draft.options draft.source.rules) :=
  fun before => checkAll_reports SourceGrammar.isFatal_codeErrors draft before

theorem meetCycle_eq (rules : Rules) (before : List Diagnostic) (met : List (List Nat))
    (failed : Bool) (cycle : List Nat) :
    meetCycle rules (met, ⟨before ++ met.filterMap (cycleError? rules), failed⟩) cycle =
      let met := if met.any (sameRules cycle) then met else met ++ [cycle]
      (met, ⟨before ++ met.filterMap (cycleError? rules), true⟩) := by
  rw [meetCycle]
  by_cases hMet : met.any (sameRules cycle)
  · simp only [if_pos hMet, Checker.fail]
  · simp only [if_neg hMet]
    cases hError : cycleError? rules cycle <;> simp [hError, Checker.fail, Checker.report]

/-- What has been reported about cycles is what there is to say about those that differ, whereas the
flag is set by any cycle. -/
theorem foldl_meetCycle (rules : Rules) (before : List Diagnostic) (met : List (List Nat))
    (failed : Bool) (found : List (List Nat)) :
    found.foldl (meetCycle rules) (met, ⟨before ++ met.filterMap (cycleError? rules), failed⟩) =
      let all := found.foldl
        (fun met cycle => if met.any (sameRules cycle) then met else met ++ [cycle]) met
      (all, ⟨before ++ all.filterMap (cycleError? rules), failed || !found.isEmpty⟩) := by
  induction found generalizing met failed with
  | nil => simp
  | cons cycle found ih =>
    rw [List.foldl_cons, List.foldl_cons, meetCycle_eq]
    simp only [ih, Bool.true_or, List.isEmpty_cons, Bool.not_false, Bool.or_true]

/-- Elements that are numbered differently are all reported. -/
theorem foldl_meetExpr (first : String → FirstSet) (met : List Nat) (checker : Checker)
    {exprs : List Expr} (hIds : (exprs.map Expr.id).Nodup) (hMet : ∀ expr ∈ exprs, expr.id ∉ met) :
    (exprs.foldl (meetExpr first) (met, checker)).2 =
      checker.errors (exprs.filterMap (Expr.repeatError? first)) := by
  induction exprs generalizing met checker with
  | nil => simp
  | cons expr exprs ih =>
    obtain ⟨hHead, hTail⟩ := List.nodup_cons.1 hIds
    obtain ⟨hNew, hOthers⟩ := List.forall_mem_cons.1 hMet
    rw [List.foldl_cons, meetExpr]
    cases hError : expr.repeatError? first with
    | none => simp only [ih met checker hTail hOthers, List.filterMap_cons_none hError]
    | some error =>
      have hLater : ∀ other ∈ exprs, other.id ∉ met ++ [expr.id] := by
        intro other hOther
        have hNe : other.id ≠ expr.id := fun h => hHead (List.mem_map.2 ⟨other, hOther, h⟩)
        simp [hOthers other hOther, hNe]
      have hChecker : checker.fail.report error = checker.errors [error] :=
        Checker.error_eq checker error
      simp only [if_neg hNew, hChecker, ih _ _ hTail hLater, List.filterMap_cons_some hError]
      simp

/-- Each cycle that is met leads to a report, though maybe not of its own. -/
theorem isEmpty_metCycles (rules : Rules) (first : String → FirstSet) :
    (rules.metCycles first).isEmpty = (rules.recursionErrors first).isEmpty := by
  cases hErrors : rules.recursionErrors first with
  | nil =>
    exact List.isEmpty_iff.2 (Rules.cycles_eq_nil hErrors)
  | cons error errors =>
    cases hCycles : rules.metCycles first with
    | nil =>
      have hNone : rules.recursionErrors first = (distinctCycles (rules.metCycles first)).filterMap
        (cycleError? rules) := rfl
      rw [hErrors, hCycles] at hNone
      cases hNone
    | cons cycle others => rfl

theorem foldl_metCycles (rules : Rules) (first : String → FirstSet) (before : List Diagnostic) :
    ((rules.metCycles first).foldl (meetCycle rules) ([], ⟨before, false⟩)).2 =
      Checker.errors ⟨before, false⟩ (rules.recursionErrors first) := by
  have hFold := foldl_meetCycle rules before [] false (rules.metCycles first)
  rw [List.filterMap_nil, List.append_nil] at hFold
  rw [hFold, isEmpty_metCycles]
  rfl

theorem endingWalks_reports
    (hIds : (draft.source.rules.exprs.map Expr.id).Pairwise (· < ·)) :
    endingWalks.Reports draft draft
      (draft.source.rules.recursionErrors draft.source.rules.first ++
        draft.source.rules.repeatErrors draft.source.rules.first) := by
  have hFatal : ∀ error ∈ draft.source.rules.recursionErrors draft.source.rules.first ++
      draft.source.rules.repeatErrors draft.source.rules.first, error.isFatal :=
    List.forall_mem_append.2 ⟨Rules.isFatal_recursionErrors, Rules.isFatal_repeatErrors⟩
  intro before
  have hCycles := foldl_metCycles draft.source.rules draft.source.rules.first before
  have hExprs := foldl_meetExpr draft.source.rules.first []
    (Checker.errors ⟨before, false⟩ (draft.source.rules.recursionErrors draft.source.rules.first))
    (hIds.imp Nat.ne_of_lt) (fun _ _ => List.not_mem_nil)
  rw [← hCycles] at hExprs
  have hChecker := hExprs.trans (congrArg (Checker.errors · _) hCycles)
  rw [Checker.errors_errors] at hChecker
  exact (congrArg (Checker.finish · draft) hChecker).trans (Checker.finish_errors hFatal before _)

theorem usedRules_reports :
    usedRules.Reports draft draft
      (if draft.isMalformed then [] else draft.source.rules.usageWarnings) := by
  refine .of_warnings (fun warning hWarning => ?_) fun before => ?_
  · split at hWarning
    · cases hWarning
    · obtain ⟨⟨rule, index⟩, -, hRule⟩ := List.mem_filterMap.1 hWarning
      dsimp only at hRule
      split at hRule
      · cases hRule
      · exact Option.some.inj hRule ▸ rfl
  · rw [usedRules]
    split <;> simp

theorem predict_reports :
    predict.Reports draft
      { draft with
        decisions := draft.source.rules.decisions draft.source.rules.first
          draft.source.rules.follows }
      (draft.source.rules.ambiguityWarnings
        (draft.source.rules.decisions draft.source.rules.first draft.source.rules.follows)) := by
  exact .of_warnings Rules.isFatal_ambiguityWarnings fun _ => rfl

theorem foldl_resolveReference (plan : ScopePlan) (checker : Checker)
    (resolutions : List (Except Diagnostic ScopeEntry)) :
    resolutions.foldl resolveReference (plan, checker) =
      (plan ++ resolutions.filterMap Except.toOption,
        checker.errors (resolutions.filterMap fun
          | .ok _ => none
          | .error diagnostic => some diagnostic)) := by
  induction resolutions generalizing plan checker with
  | nil => simp
  | cons resolution resolutions ih =>
    rw [List.foldl_cons]
    cases resolution with
    | ok entry => rw [resolveReference, ih]; simp [Except.toOption]
    | error diagnostic =>
      have hError : (checker.report diagnostic).fail = checker.errors [diagnostic] :=
        Checker.error_eq checker diagnostic
      rw [resolveReference, ih, hError]
      simp [List.filterMap_cons, Except.toOption]

theorem resolveScopes_reports (hMalformed : draft.isMalformed = false) :
    resolveScopes.Reports draft { draft with scopes := draft.source.rules.scopes }
      draft.source.rules.scopeErrors := by
  intro before
  rw [resolveScopes, hMalformed, if_neg Bool.false_ne_true, foldl_resolveReference]
  exact Checker.finish_errors Rules.isFatal_scopeErrors before _

end Draft

end TreeGrammar
