import Mathlib.Data.List.Flatten
import TreeGrammar.Proofs.Analysis.Passes

/-!
# The verdict of an analysis

The flags of the passes agree with the diagnostics that they share: after any number of passes, the
result is a value if and only if nothing fatal has been reported. As a whole, the passes report and
hand out what `analyse` says.

## Main definitions

* `Draft.Fits`: what a pass may rely on
* `Run.IsFaithful`, `Pass.IsFaithful`: flags agree with diagnostics
* `Run.judged`: a result with a flag that agrees with its diagnostics

## Main results

* `isFaithful_through`: flags agree with diagnostics after any number of passes
* `diagnostics_runAnalysis`, `accepted?_runAnalysis`: the passes as a whole
-/

namespace TreeGrammar

/-! ### Flags and diagnostics -/

/-- What a pass may rely on: if a rule has been left out, then something fatal has been reported,
and the elements are numbered in order. -/
structure Draft.Fits (draft : Draft) (diagnostics : List Diagnostic) : Prop where
  malformed : draft.isMalformed → Acceptable diagnostics = false
  increasing : (draft.source.rules.exprs.map Expr.id).Pairwise (· < ·)

/-- The result is a value if and only if nothing fatal has been reported. -/
structure Run.IsFaithful (run : Run Draft) : Prop where
  verdict : run.outcome.isValue = Acceptable run.diagnostics
  fits : ∀ draft, run.outcome.result? = some draft → draft.Fits run.diagnostics

/-- What a pass has made is no value if and only if something fatal has been reported, by the pass
or before it. -/
structure Run.FollowsFrom (run : Run Draft) (before : List Diagnostic) : Prop where
  verdict : (run.outcome.isValue && Acceptable before) = Acceptable run.diagnostics
  fits : ∀ draft, run.outcome.result? = some draft → draft.Fits run.diagnostics

/-- The flag of the pass agrees with the diagnostics that it shares with the passes before it. -/
def Pass.IsFaithful (pass : Pass Draft Draft) : Prop :=
  ∀ (draft : Draft) (before : List Diagnostic), draft.Fits before →
    (pass draft before).FollowsFrom before

theorem Draft.Fits.append {draft : Draft} {diagnostics : List Diagnostic}
    (h : draft.Fits diagnostics) (more : List Diagnostic) : draft.Fits (diagnostics ++ more) where
  malformed hMalformed := by rw [acceptable_append, h.malformed hMalformed, Bool.false_and]
  increasing := h.increasing

/-- A pass whose flag is set by its own fatal diagnostics. -/
theorem Pass.Reports.followsFrom {pass : Pass Draft Draft} {draft next : Draft}
    {before diagnostics : List Diagnostic} (h : pass.Reports draft next diagnostics)
    (hNext : next.Fits before) : (pass draft before).FollowsFrom before := by
  rw [h before]
  refine ⟨?_, fun other hOther => ?_⟩
  · rw [Partial.isValue_judged, acceptable_append, Bool.and_comm]
  · rw [Partial.result?_judged] at hOther
    obtain rfl := Option.some.inj hOther
    exact hNext.append diagnostics

/-- A pass after a faithful run. -/
theorem Run.IsFaithful.andThen {run : Run Draft} (hRun : run.IsFaithful) {pass : Pass Draft Draft}
    (hPass : pass.IsFaithful) : (run.andThen pass).IsFaithful := by
  obtain ⟨outcome, diagnostics⟩ := run
  obtain ⟨hVerdict, hFits⟩ := hRun
  cases outcome with
  | value draft =>
    obtain ⟨hNext, hNextFits⟩ := hPass draft diagnostics (hFits draft rfl)
    rw [← hVerdict, Partial.isValue, Bool.and_true] at hNext
    exact ⟨hNext, hNextFits⟩
  | fake draft =>
    -- something fatal has been reported, which no pass takes back
    obtain ⟨hNext, hNextFits⟩ := hPass draft diagnostics (hFits draft rfl)
    rw [← hVerdict, Partial.isValue, Bool.and_false] at hNext
    refine ⟨?_, fun next hResult => hNextFits next ?_⟩
    · simp [Run.andThen, ← hNext]
    · simpa [Run.andThen] using hResult
  | nothing => exact ⟨hVerdict, nofun⟩

/-- Faithful passes after a faithful run. -/
theorem Run.IsFaithful.through {run : Run Draft} (hRun : run.IsFaithful)
    {passes : List (Pass Draft Draft)} (hPasses : ∀ pass ∈ passes, pass.IsFaithful) :
    (run.through passes).IsFaithful := by
  induction passes generalizing run with
  | nil => exact hRun
  | cons pass passes ih =>
    obtain ⟨hPass, hOthers⟩ := List.forall_mem_cons.1 hPasses
    exact ih (hRun.andThen hPass) hOthers

/-! ### The passes -/

theorem firstOfNames_sublist {α : Type} (ident : α → Ident) (items : List α) :
    (firstOfNames ident items).Sublist items := by
  induction items using List.reverseRecOn with
  | nil => exact .slnil
  | append_singleton items item ih =>
    rw [firstOfNames_concat]
    refine ih.append ?_
    split
    · exact List.nil_sublist _
    · exact List.Sublist.refl _

/-- Attributes are no elements. -/
theorem exprs_map_distinct (rules : Rules) :
    Rules.exprs (rules.map Rule.distinct) = Rules.exprs rules := by
  rw [Rules.exprs, List.flatMap_map]
  rfl

namespace Draft

variable {draft : Draft} {before : List Diagnostic}

theorem Fits.withRules (h : draft.Fits before) {rules : Rules}
    (hRules : (Rules.exprs rules).Sublist draft.source.rules.exprs) :
    (draft.withRules rules).Fits before where
  malformed := h.malformed
  increasing := h.increasing.sublist (hRules.map Expr.id)

theorem requireRule_isFaithful : Pass.IsFaithful requireRule := by
  intro draft before hFits
  rw [requireRule]
  split
  · next h =>
    -- nothing is reported, since a rule that is left out has been reported
    have hBefore := hFits.malformed (Bool.and_eq_true _ _ ▸ h).2
    exact ⟨hBefore.symm, nofun⟩
  · split
    · refine ⟨?_, nofun⟩
      rw [acceptable_append]
      exact (Bool.and_false _).symm
    · refine ⟨Bool.true_and _, fun next hNext => ?_⟩
      obtain rfl := Option.some.inj hNext
      exact hFits

theorem resolveScopes_isFaithful : Pass.IsFaithful resolveScopes := by
  intro draft before hFits
  cases hMalformed : draft.isMalformed with
  | true =>
    rw [resolveScopes, if_pos hMalformed]
    refine ⟨(hFits.malformed hMalformed).symm, fun next hNext => ?_⟩
    obtain rfl := Option.some.inj hNext
    exact hFits
  | false => exact (draft.resolveScopes_reports hMalformed).followsFrom ⟨hFits.1, hFits.2⟩

end Draft

/-- The flags of all passes agree with the diagnostics. -/
theorem isFaithful_of_mem_passes : ∀ pass ∈ passes, pass.IsFaithful := by
  simp only [passes, List.forall_mem_cons]
  refine ⟨Draft.requireRule_isFaithful, fun draft before hFits => ?_, fun draft before hFits => ?_,
    fun draft before hFits => ?_, fun draft before hFits => ?_, fun draft before hFits => ?_,
    fun draft before hFits => ?_, fun draft before hFits => ?_, fun draft before hFits => ?_,
    Draft.resolveScopes_isFaithful, nofun⟩
  · refine draft.distinctRules_reports.followsFrom (hFits.withRules ?_)
    exact (firstOfNames_sublist Rule.name _).flatMap Rule.exprs
  · refine draft.distinctAttributes_reports.followsFrom (hFits.withRules ?_)
    rw [exprs_map_distinct]
  · exact draft.declaredNames_reports.followsFrom hFits
  · exact draft.mergeOptions_reports.followsFrom ⟨hFits.malformed, hFits.increasing⟩
  · exact draft.validCode_reports.followsFrom hFits
  · exact (draft.endingWalks_reports hFits.increasing).followsFrom hFits
  · exact draft.usedRules_reports.followsFrom hFits
  · exact draft.predict_reports.followsFrom ⟨hFits.malformed, hFits.increasing⟩

/-! ### Passes one after the other -/

namespace Run

/-- How passes are grouped does not matter. -/
theorem andThen_andThen {α β γ : Type} (run : Run α) (first : Pass α β) (second : Pass β γ) :
    (run.andThen first).andThen second =
      run.andThen fun result before => (first result before).andThen second := by
  obtain ⟨outcome, diagnostics⟩ := run
  cases outcome with
  | value result => rfl
  | fake result =>
    simp only [andThen]
    cases (first result diagnostics).outcome with
    | value | nothing => rfl
    | fake next =>
      rw [Partial.demote_demote]
      rfl
  | nothing => rfl

/-- A result with what has been reported, if the flags agree with it. -/
def judged {α : Type} (result : α) (diagnostics : List Diagnostic) : Run α :=
  ⟨.judged (Acceptable diagnostics) result, diagnostics⟩

theorem judged_andThen {α β : Type} {pass : Pass α β} {result : α} {next : β}
    {diagnostics : List Diagnostic} (h : pass.Reports result next diagnostics)
    (before : List Diagnostic) :
    (judged result before).andThen pass = judged next (before ++ diagnostics) := by
  rw [judged, judged, acceptable_append]
  cases Acceptable before with
  | true => exact h before
  | false =>
    change Run.mk (pass result before).outcome.demote (pass result before).diagnostics = _
    rw [h before, Partial.demote_judged]
    rfl

theorem judged_andThen_nothing {α β : Type} {pass : Pass α β} {result : α}
    {before diagnostics : List Diagnostic} (h : pass result before = ⟨.nothing, diagnostics⟩) :
    (judged result before).andThen pass = ⟨.nothing, diagnostics⟩ := by
  rw [judged]
  cases Acceptable before with
  | true => exact h
  | false =>
    change Run.mk (pass result before).outcome.demote (pass result before).diagnostics = _
    rw [h]
    rfl

theorem nothing_through (diagnostics : List Diagnostic) (passes : List (Pass Draft Draft)) :
    through ⟨.nothing, diagnostics⟩ passes = ⟨.nothing, diagnostics⟩ := by
  induction passes with
  | nil => rfl
  | cons pass passes ih => exact ih

end Run

/-- The passes of the analysis are run one after the other, however they are grouped. -/
theorem runAnalysis_eq (source : List Char) (options : Options) :
    runAnalysis source options = (readSource source options).through passes := by
  unfold runAnalysis Draft.analyse Draft.check
  simp only [Run.through, passes, List.foldl_cons, List.foldl_nil, Run.andThen_andThen]

/-! ### Grammars without repetitions -/

/-- A rule is declared if the rules without repetitions declare it. -/
theorem SourceGrammar.declaresRule_distinct (grammar : SourceGrammar) (name : String) :
    ({ grammar with rules := grammar.rules.distinct } : SourceGrammar).declaresRule name =
      grammar.declaresRule name := by
  have hFind : (firstOfNames Rule.name grammar.rules).any (·.name.name = name) =
      grammar.rules.any (·.name.name = name) := by
    rw [← List.isSome_find?, ← List.isSome_find?, find?_firstOfNames]
  have hAny : grammar.rules.distinct.any (·.name.name = name) =
      grammar.rules.any (·.name.name = name) := by
    rw [Rules.distinct, List.any_map]
    exact hFind
  rw [declaresRule, declaresRule, hAny]

theorem SourceGrammar.nameError?_distinct (grammar : SourceGrammar) (expr : Expr) :
    ({ grammar with rules := grammar.rules.distinct } : SourceGrammar).nameError? expr =
      grammar.nameError? expr := by
  cases expr <;> simp only [nameError?, declaresRule_distinct] <;> rfl

/-- The rules without repetitions are numbered in order. -/
theorem Rules.increasing_distinct {rules : Rules}
    (h : (rules.exprs.map Expr.id).Pairwise (· < ·)) :
    (rules.distinct.exprs.map Expr.id).Pairwise (· < ·) := by
  rw [distinct, exprs_map_distinct]
  exact h.sublist (((firstOfNames_sublist Rule.name rules).flatMap Rule.exprs).map Expr.id)

/-! ### What the passes make -/

namespace Draft

/-- The draft without repetitions, with all options. -/
def merged (draft : Draft) : Draft :=
  { draft with
    source := { draft.source with rules := draft.source.rules.distinct }
    options := draft.source.mergedOptions draft.options }

/-- The draft without repetitions, with all options and decisions. -/
def decided (draft : Draft) : Draft :=
  let rules := draft.source.rules.distinct
  { draft.merged with decisions := rules.decisions rules.first rules.follows }

variable (draft : Draft) (before : List Diagnostic)

/-- A grammar with a rule may be analysed. -/
theorem requireRule_reports (h : draft.source.rules.isEmpty = false) :
    requireRule.Reports draft draft [] := by
  refine .of_warnings (fun _ h => absurd h List.not_mem_nil) fun before => ?_
  rw [requireRule, h]
  simp

/-- The declarations and options. -/
theorem judged_declarations :
    (((Run.judged draft before).andThen distinctRules).andThen distinctAttributes
        |>.andThen declaredNames |>.andThen mergeOptions) =
      .judged draft.merged
        (before ++ draft.source.declarationErrors ++ draft.source.optionWarnings) := by
  have hNames : (draft.source.rules.distinct.exprs.filterMap fun expr =>
      (SourceGrammar.nameError? { draft.source with rules := draft.source.rules.distinct } expr).map
        (⟨expr.span, ·⟩)) = draft.source.nameErrors := by
    simp only [SourceGrammar.nameError?_distinct]
    rfl
  rw [SourceGrammar.declarationErrors, Rules.repetitionErrors, ← hNames,
    Run.judged_andThen draft.distinctRules_reports,
    Run.judged_andThen (distinctAttributes_reports _),
    Run.judged_andThen (declaredNames_reports _), Run.judged_andThen (mergeOptions_reports _)]
  simp only [← List.append_assoc]
  rfl

/-- What has been reported before the scopes are looked at. -/
def reported : List Diagnostic :=
  let rules := draft.source.rules.distinct
  before ++ draft.source.declarationErrors ++ draft.source.optionWarnings ++
    draft.source.codeErrors draft.merged.options rules ++
    (rules.recursionErrors rules.first ++ rules.repeatErrors rules.first) ++
    (if draft.isMalformed then [] else rules.usageWarnings) ++
    rules.ambiguityWarnings draft.decided.decisions

/-- The passes before the scopes are looked at. -/
theorem judged_decided (hRules : draft.source.rules.isEmpty = false)
    (hIncreasing : (draft.source.rules.exprs.map Expr.id).Pairwise (· < ·)) :
    ((Run.judged draft before).andThen requireRule |>.andThen distinctRules
        |>.andThen distinctAttributes |>.andThen declaredNames |>.andThen mergeOptions
        |>.andThen validCode |>.andThen endingWalks |>.andThen usedRules |>.andThen predict) =
      .judged draft.decided (draft.reported before) := by
  rw [Run.judged_andThen (draft.requireRule_reports hRules), List.append_nil,
    judged_declarations, Run.judged_andThen draft.merged.validCode_reports,
    Run.judged_andThen (draft.merged.endingWalks_reports (Rules.increasing_distinct hIncreasing)),
    Run.judged_andThen draft.merged.usedRules_reports,
    Run.judged_andThen draft.merged.predict_reports]
  rfl

theorem diagnostics_analyse :
    (draft.source.analyse draft.options before).diagnostics = draft.reported before ++
      if draft.isMalformed then [] else draft.decided.source.rules.scopeErrors := by
  rw [SourceGrammar.analyse, reported, isMalformed]
  simp only [← List.append_assoc]
  cases draft.source.malformed.isEmpty <;> rfl

theorem Fits.decided {draft : Draft} {before : List Diagnostic} (h : draft.Fits before) :
    draft.decided.Fits (draft.reported before) where
  malformed hMalformed := by
    simp only [reported, acceptable_append, h.malformed hMalformed, Bool.false_and]
  increasing := Rules.increasing_distinct h.increasing

/-- If the calls are not all known, this has been reported. -/
theorem judged_resolveScopes {draft : Draft} {before : List Diagnostic}
    (hFits : draft.Fits before) :
    ∃ scopes, (Run.judged draft before).andThen resolveScopes =
        .judged { draft with scopes } (before ++
          if draft.isMalformed then [] else draft.source.rules.scopeErrors) ∧
      (Acceptable before → scopes = draft.source.rules.scopes) := by
  cases hMalformed : draft.isMalformed with
  | false =>
    exact ⟨_, Run.judged_andThen (draft.resolveScopes_reports hMalformed) before, fun _ => rfl⟩
  | true =>
    -- the pass gives no value, but the draft that it takes is none either
    have hBefore := hFits.malformed hMalformed
    refine ⟨draft.scopes, ?_, fun h => absurd h (Bool.eq_false_iff.1 hBefore)⟩
    simp [Run.judged, hBefore, Partial.judged, Run.andThen, resolveScopes, hMalformed,
      Partial.demote]

/-- The passes report and make what `SourceGrammar.analyse` says. -/
theorem exists_through_passes {draft : Draft} {before : List Diagnostic}
    (hRules : draft.source.rules.isEmpty = false) (hFits : draft.Fits before) :
    ∃ last, (Run.judged draft before).through passes =
        .judged last (draft.source.analyse draft.options before).diagnostics ∧
      (Acceptable (draft.source.analyse draft.options before).diagnostics →
        (draft.source.analyse draft.options before).grammar = some last.grammar) := by
  obtain ⟨scopes, hResolve, hScopes⟩ := judged_resolveScopes hFits.decided
  rw [diagnostics_analyse]
  refine ⟨{ draft.decided with scopes }, ?_, fun hAcceptable => ?_⟩
  · rw [← judged_decided draft before hRules hFits.increasing] at hResolve
    exact hResolve
  · rw [acceptable_append, Bool.and_eq_true] at hAcceptable
    rw [hScopes hAcceptable.1]
    rfl

end Draft

/-! ### Texts -/

section Text

variable (source : List Char) (options : Options)

theorem readSource_eq :
    readSource source options =
      .judged { source := (SourceGrammar.parse source).2, options } (syntaxErrors source) :=
  checkAll_reports (isFatal_syntaxErrors source) _ []

/-- A rule is left out only after a syntax error. -/
theorem acceptable_syntaxErrors (h : (SourceGrammar.parse source).2.malformed ≠ []) :
    Acceptable (syntaxErrors source) = false := by
  rw [acceptable_eq_isEmpty (isFatal_syntaxErrors source)]
  refine List.isEmpty_eq_false_iff.2 fun hNone => h ?_
  exact SourceGrammar.malformed_parse (List.map_eq_nil_iff.1 hNone)

theorem readSource_fits :
    Draft.Fits { source := (SourceGrammar.parse source).2, options } (syntaxErrors source) where
  malformed hMalformed := by
    refine acceptable_syntaxErrors source ?_
    simpa [Draft.isMalformed] using hMalformed
  increasing := (SourceGrammar.wellNumbered_parse source).increasing

theorem readSource_isFaithful : (readSource source options).IsFaithful := by
  rw [readSource_eq]
  refine ⟨Partial.isValue_judged _ _, fun draft hDraft => ?_⟩
  rw [Run.judged, Partial.result?_judged] at hDraft
  obtain rfl := Option.some.inj hDraft
  exact readSource_fits source options

/-- After any number of passes, the result is a value if and only if nothing fatal has been
reported. -/
theorem isFaithful_through (n : Nat) :
    ((readSource source options).through (passes.take n)).IsFaithful :=
  (readSource_isFaithful source options).through fun pass hPass =>
    isFaithful_of_mem_passes pass (List.mem_of_mem_take hPass)

/-- A text without rules is not analysed any further. -/
theorem runAnalysis_of_isEmpty (hRules : (SourceGrammar.parse source).2.rules.isEmpty) :
    runAnalysis source options = ⟨.nothing, (analyse source options).diagnostics⟩ := by
  have hFirst : (readSource source options).andThen Draft.requireRule =
      ⟨.nothing, (analyse source options).diagnostics⟩ := by
    rw [readSource_eq]
    refine Run.judged_andThen_nothing ?_
    rw [Draft.requireRule, analyse]
    cases hMalformed : (SourceGrammar.parse source).2.malformed.isEmpty <;>
      simp [Draft.isMalformed, hRules, hMalformed, syntaxErrors]
  rw [runAnalysis_eq, passes, Run.through, List.foldl_cons, hFirst]
  exact Run.nothing_through _ _

/-- What the passes of an analysis report and hand out. -/
theorem runAnalysis_of_rules (hRules : (SourceGrammar.parse source).2.rules.isEmpty = false) :
    ∃ draft, runAnalysis source options = .judged draft (analyse source options).diagnostics ∧
      (Acceptable (analyse source options).diagnostics →
        (analyse source options).grammar = some draft.grammar) := by
  have hFits := readSource_fits source options
  rw [analyse_of_rules source options hRules, runAnalysis_eq, readSource_eq]
  exact Draft.exists_through_passes hRules hFits

/-- The passes report what the analysis reports. -/
theorem diagnostics_runAnalysis :
    (runAnalysis source options).diagnostics = (analyse source options).diagnostics := by
  cases hRules : (SourceGrammar.parse source).2.rules.isEmpty with
  | true => rw [runAnalysis_of_isEmpty source options hRules]
  | false =>
    obtain ⟨draft, hRun, -⟩ := runAnalysis_of_rules source options hRules
    rw [hRun]
    rfl

/-- The passes hand out the grammar of the analysis. -/
theorem accepted?_runAnalysis :
    (runAnalysis source options).accepted?.map Draft.grammar =
      (analyse source options).accepted? := by
  cases hRules : (SourceGrammar.parse source).2.rules.isEmpty with
  | true =>
    rw [runAnalysis_of_isEmpty source options hRules, Analysis.accepted?]
    simp [analyse, hRules, Run.accepted?]
  | false =>
    obtain ⟨draft, hRun, hGrammar⟩ := runAnalysis_of_rules source options hRules
    rw [hRun, Analysis.accepted?, Run.accepted?, Run.judged]
    cases hAcceptable : Acceptable (analyse source options).diagnostics with
    | true => simp [Partial.judged, hGrammar hAcceptable]
    | false => simp [Partial.judged]

end Text

end TreeGrammar
