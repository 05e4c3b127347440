import TreeGrammar.Proofs.Analysis.Verdict
import TreeGrammar.Proofs.Program.Attributes

/-!
# The verdict of a compilation

Code is handed out if and only if nothing fatal has been reported, and the same holds for grammars.
The generation of code sees accepted grammars only. Their names and declarations have been checked,
so that it has nothing to say about them, nor about references to attributes; what is left is code
that nobody has looked at before.

## Main definitions

* `Grammar.Legible`: the checks of names and code that an accepted grammar passes
* `HandsOut`: what a compilation hands out for a text
* `VerdictsAgree`: what is handed out for a text agrees with what is reported about it

## Main results

* `Grammar.codeReports_eq_lexicalErrors`: what is reported about the code of an accepted grammar
* `runCompilation_isValue`: the generation of code gives up only after a fatal diagnostic
* `verdicts_agree`: the verdicts of all texts agree
-/

namespace TreeGrammar

/-! ### Code that has been checked -/

/-- Code that can be read consists of tokens. -/
theorem Host.isSome_lex_of_isOk {α : Type} {text : List Char}
    {read : List Host.Token → Except Host.Refusal α} (h : (Host.readTokens text >>= read).isOk) :
    (Host.lex text).isSome := by
  cases hTokens : Host.lex text with
  | some tokens => rfl
  | none =>
    rw [Host.readTokens, hTokens] at h
    cases h

theorem Fragment.textError?_eq_none {code : Fragment} (h : (Host.lex code.text.toList).isSome) :
    code.textError? = none :=
  if_pos h

theorem Attribute.reports_eq_none {kind : DeclarationKind} {attr : Attribute}
    (h : attr.codeErrors kind = []) : attr.typeReport? = none ∧ attr.initReport? = none := by
  simp only [codeErrors, List.append_eq_nil_iff, Option.toList_eq_nil_iff] at h
  obtain ⟨⟨-, hType⟩, hInit⟩ := h
  constructor
  · split at hType
    · next hOk => exact Fragment.textError?_eq_none (Host.isSome_lex_of_isOk hOk)
    · cases hType
  · rw [initReport?]
    cases hSome : attr.init with
    | none => rfl
    | some init =>
      rw [initError?, hSome, Option.bind_some] at hInit
      split at hInit
      · cases hInit
      · split at hInit
        · next hOk => exact Fragment.textError?_eq_none (Host.isSome_lex_of_isOk hOk)
        · cases hInit

namespace Rule

variable {rule : Rule}

theorem reports_eq_none (h : rule.codeErrors = []) {attr : Attribute}
    (hAttr : attr ∈ rule.attributes ++ rule.returns.toList) :
    attr.typeReport? = none ∧ attr.initReport? = none := by
  simp only [codeErrors, List.append_eq_nil_iff, List.flatMap_eq_nil_iff] at h
  obtain ⟨⟨⟨-, hAttributes⟩, hReturns⟩, -⟩ := h
  rcases List.mem_append.1 hAttr with hAttr | hAttr
  · exact Attribute.reports_eq_none (hAttributes attr hAttr)
  · exact Attribute.reports_eq_none (hReturns attr hAttr)

/-- Parameters that have been checked consist of tokens. -/
theorem paramsReport_eq_none (h : rule.codeErrors = []) {params : Fragment}
    (hParams : rule.params = some params) : params.textError? = none := by
  simp only [codeErrors, List.append_eq_nil_iff, List.flatMap_eq_nil_iff] at h
  have hErrors : rule.paramErrors = [] :=
    List.map_eq_nil_iff.1 (h.2 params (Option.mem_toList.2 hParams))
  refine Fragment.textError?_eq_none ?_
  rw [paramErrors] at hErrors
  split at hErrors
  · cases hErrors
  · next parameters hRead =>
    have hOk : rule.readParameters.isOk := by
      rw [hRead]
      rfl
    rw [readParameters, hParams] at hOk
    exact Host.isSome_lex_of_isOk hOk

theorem headReports_eq_nil (h : rule.codeErrors = []) : rule.headReports = [] := by
  refine List.append_eq_nil_iff.2 ⟨?_, ?_⟩
  · exact List.filterMap_eq_nil_iff.2 fun params hParams =>
      paramsReport_eq_none h (Option.mem_toList.1 hParams)
  · exact List.filterMap_eq_nil_iff.2 fun returns hReturns =>
      (reports_eq_none h (List.mem_append_right _ hReturns)).1

end Rule

/-- What is wrong with code is reported as one kind of diagnostic. -/
theorem Fragment.kind_lexicalError? {code : Fragment} {text : List Char} {error : Diagnostic}
    (h : code.lexicalError? text = some error) : error.problem.kind = .invalidCodeFragment := by
  rw [lexicalError?] at h
  split at h
  · cases h
  · exact Option.some.inj h ▸ rfl

theorem Alternative.kind_guardErrors {alternatives : List Alternative} :
    ∀ error ∈ guardErrors alternatives, error.problem.kind = .invalidCodeFragment := by
  intro error hError
  obtain ⟨guard, -, hGuard⟩ := List.mem_filterMap.1 hError
  exact Fragment.kind_lexicalError? hGuard

theorem Expr.kind_lexicalErrors {expr : Expr} :
    ∀ error ∈ expr.lexicalErrors, error.problem.kind = .invalidCodeFragment := by
  intro error hError
  cases expr with
  | node | token | wildcard => cases hError
  | rule id span label name args =>
    cases args with
    | none => cases hError
    | some args =>
      rw [lexicalErrors] at hError
      split at hError
      · cases hError
      · exact List.mem_singleton.1 hError ▸ rfl
  | subrule => exact Alternative.kind_guardErrors error hError
  | action | predicate => exact Fragment.kind_lexicalError? (Option.mem_toList.1 hError)

/-- Without errors, the state type is a type, and the rules have no errors of their own. -/
theorem SourceGrammar.checks_of_codeErrors {grammar : SourceGrammar} {options : Options}
    {rules : Rules} (h : grammar.codeErrors options rules = []) :
    (∀ type, options.stateType = some type → (Host.readType type).isOk) ∧
      ∀ rule ∈ rules, rule.codeErrors = [] := by
  simp only [codeErrors, List.append_eq_nil_iff, List.flatMap_eq_nil_iff,
    Option.toList_eq_nil_iff] at h
  obtain ⟨⟨⟨⟨⟨-, hStateType⟩, -⟩, hCode⟩, -⟩, -⟩ := h
  refine ⟨fun type hType => ?_, hCode⟩
  by_contra hNot
  rw [stateTypeError?, hType, Option.bind_some, if_neg hNot] at hStateType
  cases hStateType

/-- The checks of names and code that an accepted grammar passes. -/
structure Grammar.Legible (grammar : Grammar) : Prop where
  stateType : ∀ type, grammar.options.stateType = some type → (Host.readType type).isOk
  rules : ∀ rule ∈ grammar.rules, rule.codeErrors = []

namespace Grammar

variable {grammar : Grammar}

/-- An accepted grammar passes the checks of names and code. -/
theorem legible_of_accepted {source : List Char} {options : Options}
    (h : (analyse source options).accepted? = some grammar) : grammar.Legible := by
  have hText := isAnalysed_of_accepted h
  obtain ⟨hStateType, hCode⟩ := SourceGrammar.checks_of_codeErrors hText.isClean.code
  exact ⟨hText.options ▸ hStateType, hText.rules ▸ hCode⟩

/-- Every reference in the steps of a checked grammar has somewhere to look for its attribute. -/
theorem Checked.lookupReports_eq_nil (h : grammar.Checked) {index : Nat} {rule : Rule}
    (hRule : grammar.rules[index]? = some rule) :
    rule.lookupReports (grammar.context index) = [] := by
  refine List.flatMap_eq_nil_iff.2 fun bound hBound => List.filterMap_eq_nil_iff.2 ?_
  intro access hAccess
  -- the code in the steps is the code that the analysis has seen
  obtain ⟨code, hCode, rfl⟩ := (h.built hRule).exists_fragment hBound
  obtain ⟨name, hName, rfl⟩ := List.mem_map.1 hAccess
  obtain ⟨reference, hReference, rfl⟩ := Rule.exists_reference hCode hName
  exact if_neg fun hEmpty => h.variants_ne_nil hRule hReference (List.isEmpty_iff.1 hEmpty)

theorem functionReports_eq_lexicalErrors (hChecked : grammar.Checked) (hLegible : grammar.Legible)
    {index : Nat} {rule : Rule} (hRule : grammar.rules[index]? = some rule) (isEntry : Bool) :
    rule.functionReports (grammar.context index) isEntry = rule.lexicalErrors := by
  -- what remains are the guards, actions, predicates and arguments
  have hErrors := hLegible.rules rule (List.mem_of_getElem? hRule)
  have hInits : rule.attributes.filterMap Attribute.initReport? = [] :=
    List.filterMap_eq_nil_iff.2 fun attr hAttr =>
      (Rule.reports_eq_none hErrors (List.mem_append_left _ hAttr)).2
  have hTypes : rule.returns.toList.filterMap Attribute.typeReport? = [] :=
    List.filterMap_eq_nil_iff.2 fun attr hAttr =>
      (Rule.reports_eq_none hErrors (List.mem_append_right _ hAttr)).1
  have hReturns : rule.returns.toList.filterMap Attribute.initReport? = [] :=
    List.filterMap_eq_nil_iff.2 fun attr hAttr =>
      (Rule.reports_eq_none hErrors (List.mem_append_right _ hAttr)).2
  rw [Rule.functionReports, Rule.headReports_eq_nil hErrors, hInits, hTypes, hReturns,
    hChecked.lookupReports_eq_nil hRule]
  simp

/-- What has been checked is not reported again. -/
theorem codeReports_eq_lexicalErrors (hChecked : grammar.Checked) (hLegible : grammar.Legible) :
    grammar.codeReports = grammar.lexicalErrors := by
  have hStateType : (grammar.options.stateType.map fun type =>
      ({ text := type, span := grammar.name.span } : Fragment)).toList.filterMap
        Fragment.textError? = [] := by
    refine List.filterMap_eq_nil_iff.2 fun code hCode => ?_
    obtain ⟨type, hType, rfl⟩ := Option.map_eq_some_iff.1 (Option.mem_toList.1 hCode)
    exact Fragment.textError?_eq_none (Host.isSome_lex_of_isOk (hLegible.stateType type hType))
  have hTypes : (grammar.rules.flatMap Rule.attributes).filterMap Attribute.typeReport? = [] := by
    refine List.filterMap_eq_nil_iff.2 fun attr hAttr => ?_
    obtain ⟨rule, hRule, hMem⟩ := List.mem_flatMap.1 hAttr
    exact (Rule.reports_eq_none (hLegible.rules rule hRule) (List.mem_append_left _ hMem)).1
  have hRules : (grammar.rules.zipIdx.flatMap fun entry =>
      entry.1.functionReports (grammar.context entry.2) (entry.2 ∈ grammar.rules.entries)) =
        grammar.rules.flatMap Rule.lexicalErrors :=
    calc _ = grammar.rules.zipIdx.flatMap fun entry => entry.1.lexicalErrors :=
          List.flatMap_congr fun entry hEntry =>
            functionReports_eq_lexicalErrors hChecked hLegible
              (List.mem_zipIdx_iff_getElem?.1 hEntry) _
      _ = (grammar.rules.zipIdx.map Prod.fst).flatMap Rule.lexicalErrors :=
          (List.flatMap_map ..).symm
      _ = grammar.rules.flatMap Rule.lexicalErrors := by rw [List.zipIdx_map_fst]
  -- preludes have been checked as files, but this does not mean that they consist of tokens
  rw [lexicalErrors, ← hRules, codeReports, hStateType, hTypes, List.append_nil, List.append_nil]
  rfl

theorem kind_lexicalErrors :
    ∀ error ∈ grammar.lexicalErrors, error.problem.kind = .invalidCodeFragment := by
  refine List.forall_mem_append.2 ⟨fun error hError => ?_, fun error hError => ?_⟩
  · obtain ⟨prelude, -, hPrelude⟩ := List.mem_filterMap.1 hError
    exact Fragment.kind_lexicalError? hPrelude
  · obtain ⟨rule, -, hRule⟩ := List.mem_flatMap.1 hError
    rcases List.mem_append.1 hRule with hGuard | hExpr
    · exact Alternative.kind_guardErrors error hGuard
    · obtain ⟨expr, -, hMem⟩ := List.mem_flatMap.1 hExpr
      exact Expr.kind_lexicalErrors error hMem

theorem isFatal_lexicalErrors : ∀ error ∈ grammar.lexicalErrors, error.isFatal := by
  intro error hError
  rw [Diagnostic.isFatal, kind_lexicalErrors error hError]
  rfl

/-- The number of errors grows if and only if something fatal is reported. -/
theorem generate_eq (grammar : Grammar) (before : List Diagnostic) :
    grammar.generate before =
      ⟨if Acceptable grammar.codeReports then .value (Host.Token.print grammar.program.moduleTokens)
        else .nothing, before ++ grammar.codeReports⟩ := by
  have hCount : errorCount (before ++ grammar.codeReports) > errorCount before ↔
      ¬ Acceptable grammar.codeReports := by
    rw [errorCount, errorCount, List.countP_append, gt_iff_lt, Nat.lt_add_right_iff_pos,
      List.countP_pos_iff]
    simp [Acceptable]
  rw [generate]
  by_cases h : Acceptable grammar.codeReports
  · rw [if_pos h, if_neg (mt hCount.1 (not_not_intro h))]
  · rw [if_neg h, if_pos (hCount.2 h)]

end Grammar

/-! ### Verdicts -/

/-- The order of diagnostics does not matter. -/
theorem acceptable_sort (diagnostics : List Diagnostic) :
    Acceptable (Diagnostic.sort diagnostics) = Acceptable diagnostics := by
  rw [Acceptable, Diagnostic.sort, (List.mergeSort_perm ..).any_eq]
  rfl

section Agreement

variable {α β : Type} {run : Run α}

/-- If the flags agree with the diagnostics, it is enough to look at either of them. -/
theorem Run.isSome_accepted? (h : run.outcome.isValue = Acceptable run.diagnostics) :
    run.accepted?.isSome = Acceptable run.diagnostics := by
  obtain ⟨outcome, diagnostics⟩ := run
  cases outcome with
  | value result => simp [accepted?, ← h, Partial.isValue]
  | fake | nothing => exact h

theorem Run.andNext_eq (h : run.outcome.isValue = Acceptable run.diagnostics) (pass : Pass α β) :
    run.andNext pass =
      match run.accepted? with
      | some result => pass result run.diagnostics
      | none => ⟨.nothing, run.diagnostics⟩ := by
  obtain ⟨outcome, diagnostics⟩ := run
  cases outcome with
  | value result => simp [andNext, accepted?, ← h, Partial.isValue]
  | fake | nothing => rfl

end Agreement

section Whole

variable (source : List Char) (options : Options)

theorem runAnalysis_isFaithful : (runAnalysis source options).IsFaithful := by
  have h := isFaithful_through source options passes.length
  rw [List.take_length, ← runAnalysis_eq] at h
  exact h

/-- A grammar is handed out if and only if nothing fatal has been reported. -/
theorem isSome_accepted?_analyse :
    (analyse source options).accepted?.isSome =
      Acceptable (analyse source options).diagnostics := by
  rw [← accepted?_runAnalysis, Option.isSome_map, ← diagnostics_runAnalysis]
  exact Run.isSome_accepted? (runAnalysis_isFaithful source options).verdict

/-- Code is generated for grammars that are handed out. -/
theorem runCompilation_eq :
    runCompilation source options =
      match (analyse source options).accepted? with
      | some grammar => grammar.generate (analyse source options).diagnostics
      | none => ⟨.nothing, (analyse source options).diagnostics⟩ := by
  rw [runCompilation, Run.andNext_eq (runAnalysis_isFaithful source options).verdict,
    ← accepted?_runAnalysis, diagnostics_runAnalysis]
  cases (runAnalysis source options).accepted? <;> rfl

/-- The generation of code gives something if and only if nothing fatal has been reported. -/
theorem runCompilation_isValue :
    (runCompilation source options).outcome.isValue =
      Acceptable (runCompilation source options).diagnostics := by
  have hAnalysis := isSome_accepted?_analyse source options
  rw [runCompilation_eq]
  cases hAccepted : (analyse source options).accepted? with
  | none => rwa [hAccepted] at hAnalysis
  | some grammar =>
    rw [hAccepted, Option.isSome_some] at hAnalysis
    dsimp only
    rw [Grammar.generate_eq, acceptable_append, ← hAnalysis, Bool.true_and]
    cases Acceptable grammar.codeReports <;> rfl

variable {source options} {compilation : Compilation}

theorem Grammar.compile_eq_ok {grammar : Grammar} {analysis : Analysis}
    (h : grammar.compile analysis = .ok compilation) :
    compilation.diagnostics = analysis.diagnostics ++ grammar.lexicalErrors ∧
      compilation.code =
        if grammar.lexicalErrors.isEmpty then
          some (Host.Token.print grammar.program.moduleTokens)
        else none := by
  rw [Grammar.compile] at h
  dsimp only at h
  split at h
  · cases h
  · split at h
    · cases h
    · cases hErrors : grammar.lexicalErrors with
      | nil =>
        rw [hErrors] at h
        dsimp only at h
        cases hPrinted : grammar.program.describe
            (Host.Token.print grammar.program.moduleTokens) grammar.options.printCode with
        | error failure =>
          rw [hPrinted] at h
          cases h
        | ok printed =>
          rw [hPrinted] at h
          obtain rfl := Except.ok.inj h
          exact ⟨(List.append_nil _).symm, rfl⟩
      | cons error errors =>
        rw [hErrors] at h
        obtain rfl := Except.ok.inj h
        exact ⟨rfl, rfl⟩

/-- What is handed out for a text: the grammar is accepted, and there is code unless something is
wrong with the code in it, or there is nothing but the diagnostics of the analysis. -/
inductive HandsOut (source : List Char) (options : Options) (compilation : Compilation) : Prop where
  | accepted {grammar : Grammar} (hAccepted : (analyse source options).accepted? = some grammar)
      (hDiagnostics : compilation.diagnostics =
        (analyse source options).diagnostics ++ grammar.lexicalErrors)
      (hCode : compilation.code =
        if grammar.lexicalErrors.isEmpty then
          some (Host.Token.print grammar.program.moduleTokens)
        else none)
  | rejected (hRejected : (analyse source options).accepted? = none)
      (hDiagnostics : compilation.diagnostics = (analyse source options).diagnostics)
      (hCode : compilation.code = none)

theorem handsOut_of_compile (h : compile source options = .ok compilation) :
    HandsOut source options compilation := by
  rw [compile] at h
  split at h
  · cases h
  · split at h
    · next grammar hAccepted =>
      obtain ⟨hDiagnostics, hCode⟩ := Grammar.compile_eq_ok h
      exact .accepted hAccepted hDiagnostics hCode
    · next hRejected =>
      obtain rfl := Except.ok.inj h
      exact .rejected hRejected rfl rfl

/-- Code is generated for accepted grammars only, and it is the module of the program. -/
theorem exists_accepted_of_code {code : String} (h : compile source options = .ok compilation)
    (hCode : compilation.code = some code) :
    ∃ grammar, (analyse source options).accepted? = some grammar ∧
      code = Host.Token.print grammar.program.moduleTokens := by
  cases handsOut_of_compile h with
  | accepted hAccepted _ hModule =>
    rw [hModule] at hCode
    split at hCode
    · exact ⟨_, hAccepted, (Option.some.inj hCode).symm⟩
    · cases hCode
  | rejected _ _ hNone =>
    rw [hNone] at hCode
    cases hCode

/-- What is compiled is what the passes yield. -/
theorem compile_eq_runCompilation (h : compile source options = .ok compilation) :
    compilation.diagnostics = (runCompilation source options).diagnostics ∧
      compilation.code = (runCompilation source options).accepted? := by
  have hAnalysis := isSome_accepted?_analyse source options
  rw [runCompilation_eq]
  cases handsOut_of_compile h with
  | rejected hRejected hDiagnostics hCode =>
    rw [hRejected]
    exact ⟨hDiagnostics, hCode⟩
  | @accepted grammar hAccepted hDiagnostics hCode =>
    rw [hAccepted] at hAnalysis ⊢
    have hReports := Grammar.codeReports_eq_lexicalErrors (Grammar.checked_of_accepted hAccepted)
      (Grammar.legible_of_accepted hAccepted)
    -- code is given out if its errors are none, and the pass has a value if none is fatal
    have hVerdict := acceptable_eq_isEmpty grammar.isFatal_lexicalErrors
    dsimp only
    rw [Grammar.generate_eq, hReports, hDiagnostics, hCode, hVerdict]
    refine ⟨rfl, ?_⟩
    cases hErrors : grammar.lexicalErrors with
    | nil => simp [Run.accepted?, ← hAnalysis]
    | cons error errors => rfl

end Whole

/-! ### Texts -/

section Text

variable (source : List Char) (options : Options)

/-- What a compilation of a text hands out agrees with what it reports. -/
structure Compilation.Agrees (compilation : Compilation) : Prop where
  /-- The passes yield the compilation. -/
  code_eq : compilation.code = (runCompilation source options).accepted?
  diagnostics_eq : compilation.diagnostics = (runCompilation source options).diagnostics
  /-- Code is handed out if and only if nothing fatal has been reported. -/
  verdict : compilation.code.isSome = Acceptable (Diagnostic.sort compilation.diagnostics)
  /-- If there is no grammar, what has been reported is what the analysis reports. -/
  rejected : (analyse source options).accepted? = none →
    compilation.diagnostics = (analyse source options).diagnostics
  /-- Otherwise, what is reported about the code comes after it. -/
  accepted : ∀ grammar, (analyse source options).accepted? = some grammar →
    compilation.diagnostics = (analyse source options).diagnostics ++ grammar.codeReports

/-- What is handed out for a text agrees with what is reported about it. -/
structure VerdictsAgree : Prop where
  /-- After any number of passes, there is a value if and only if nothing fatal has been reported:
  no pass gives up without a reason, and no reason is passed over. -/
  passes : ∀ n, ((readSource source options).through (passes.take n)).outcome.isValue =
    Acceptable ((readSource source options).through (passes.take n)).diagnostics
  /-- All passes together yield the analysis. -/
  analysis_eq : runAnalysis source options = (readSource source options).through TreeGrammar.passes
  diagnostics_eq : (runAnalysis source options).diagnostics = (analyse source options).diagnostics
  grammar_eq : (runAnalysis source options).accepted?.map Draft.grammar =
    (analyse source options).accepted?
  /-- A grammar is handed out if and only if nothing fatal has been reported. -/
  verdict : (analyse source options).accepted?.isSome =
    Acceptable (Diagnostic.sort (analyse source options).diagnostics)
  /-- The generation of code does not give up without a reason either. -/
  generation : (runCompilation source options).outcome.isValue =
    Acceptable (runCompilation source options).diagnostics
  compilation : ∀ compilation, compile source options = .ok compilation →
    compilation.Agrees source options

variable {source options} {compilation : Compilation}

theorem agrees_of_compile (h : compile source options = .ok compilation) :
    compilation.Agrees source options := by
  obtain ⟨hDiagnostics, hCode⟩ := compile_eq_runCompilation h
  refine ⟨hCode, hDiagnostics, ?verdict, ?rejected, ?accepted⟩
  case verdict =>
    rw [acceptable_sort, hCode, hDiagnostics]
    exact Run.isSome_accepted? (runCompilation_isValue source options)
  all_goals rw [hDiagnostics, runCompilation_eq]
  case rejected =>
    intro hNone
    rw [hNone]
  case accepted =>
    intro grammar hGrammar
    rw [hGrammar]
    exact congrArg Run.diagnostics (grammar.generate_eq _)

/-- Grammars and code are handed out for a text if and only if nothing fatal is reported about it,
and every pass goes by this. -/
theorem verdicts_agree (source : List Char) (options : Options) : VerdictsAgree source options where
  passes n := (isFaithful_through source options n).verdict
  analysis_eq := runAnalysis_eq source options
  diagnostics_eq := diagnostics_runAnalysis source options
  grammar_eq := accepted?_runAnalysis source options
  verdict := by
    rw [acceptable_sort]
    exact isSome_accepted?_analyse source options
  generation := runCompilation_isValue source options
  compilation _ h := agrees_of_compile h

end Text

namespace Sample

theorem isReadable_analyse : (analyse source {}).isReadable := by
  rw [analyse, parse_source]
  simp only [SourceGrammar.analyse]
  decide +kernel

theorem lexicalErrors_eq : grammar.lexicalErrors = [] := by decide +kernel

/-- The small grammar is compiled. -/
theorem exists_compilation : ∃ compilation, compile source {} = .ok compilation := by
  have hReadable : grammar.isReadable := by decide +kernel
  have hVariants : (grammar.program.procedures.filterMap Procedure.variant).find?
      (!isVariantName ·) = none := by decide +kernel
  rw [compile, isReadable_analyse, accepted]
  simp only [Grammar.compile, hVariants, hReadable, lexicalErrors_eq]
  exact ⟨_, rfl⟩

/-- Nothing is reported about the small grammar, so that there is code. -/
theorem verdicts_agree_sample :
    ∃ compilation, compile source {} = .ok compilation ∧ compilation.code.isSome := by
  obtain ⟨compilation, hCompile⟩ := exists_compilation
  have hAgrees := (verdicts_agree source {}).compilation compilation hCompile
  refine ⟨compilation, hCompile, ?_⟩
  rw [hAgrees.verdict, acceptable_sort, hAgrees.accepted grammar accepted, acceptable_append,
    Grammar.codeReports_eq_lexicalErrors (Grammar.checked_of_accepted accepted)
      (Grammar.legible_of_accepted accepted), lexicalErrors_eq, ← isSome_accepted?_analyse,
    accepted]
  rfl

end Sample

end TreeGrammar
