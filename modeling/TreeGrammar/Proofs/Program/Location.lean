import TreeGrammar.Proofs.Grammar.Location
import TreeGrammar.Proofs.Program.Compilation

/-!
# Positions of diagnostics

Every diagnostic stands at a position of the text, and so does everything else that it mentions.
Most of them stand where a name or a piece of code has been read. References and stray marks are
looked for inside of a piece of code; there the position is counted on from the start of the piece.

Since all of them are positions of one text, diagnostics in the order of lines and columns are in
the order of the text.

## Main definitions

* `Problem.spans`: the positions that a problem mentions
* `Diagnostic.IsLocated`: a diagnostic stands in a text, with all that it mentions
* `Rules.IsVerbatim`: rules stand in a text, with all their elements

## Main results

* `Fragment.exists_spanAfter_of_mem_locatedPieces`: positions inside of a piece of code
* `Fragment.IsVerbatim.standsAt_locatedPieces`: the parts of a piece of code stand in the text
* `isLocated_analyse`, `isLocated_compile`: diagnostics stand in the text
* `positions_faithful`: the positions of a compilation
-/

namespace TreeGrammar

open Text

/-! ### Diagnostics -/

/-- The positions that a problem mentions: those of its notes, and those in its text. -/
def Problem.spans (problem : Problem) : List Span :=
  problem.notes.map Prod.fst ++
    match problem with
    | .syntaxError cause => cause.spans
    | _ => []

/-- A diagnostic stands at a position of a text, and mentions positions of this text only. -/
structure Diagnostic.IsLocated (source : List Char) (diagnostic : Diagnostic) : Prop where
  span : diagnostic.span.IsPlace source
  spans : ∀ span ∈ diagnostic.problem.spans, span.IsPlace source

/-- Rules stand in a text, with all their elements. -/
structure Rules.IsVerbatim (source : List Char) (rules : Rules) : Prop where
  exprs : ∀ expr ∈ rules.exprs, expr.IsVerbatim source
  heads : ∀ rule ∈ rules, rule.IsVerbatim source

variable {source : List Char}

/-- A diagnostic that mentions no other position. -/
theorem Diagnostic.isLocated_mk {span : Span} {problem : Problem} (h : span.IsPlace source)
    (hSpans : problem.spans = []) : Diagnostic.IsLocated source ⟨span, problem⟩ :=
  ⟨h, fun _ hMem => absurd (hSpans ▸ hMem) List.not_mem_nil⟩

/-- A diagnostic that mentions one other position. -/
theorem Diagnostic.isLocated_mk_of_singleton {span other : Span} {problem : Problem}
    (h : span.IsPlace source) (hOther : other.IsPlace source) (hSpans : problem.spans = [other]) :
    Diagnostic.IsLocated source ⟨span, problem⟩ :=
  ⟨h, fun _ hMem => List.mem_singleton.1 (hSpans ▸ hMem) ▸ hOther⟩

/-! ### Parts of a piece of code -/

namespace Fragment

variable {fragment : Fragment}

/-- The position of every part is counted on from the start, over the parts in front of it. -/
theorem exists_advance_of_mem_locate {parts : List Piece} {span : Span} :
    ∀ entry ∈ locatedPieces.locate span parts, ∃ before after,
      parts.flatMap Piece.source = before ++ (entry.1.source ++ after) ∧
        entry.2 = span.advance before := by
  induction parts generalizing span with
  | nil => exact List.forall_mem_nil _
  | cons piece parts ih =>
    rw [locatedPieces.locate]
    refine List.forall_mem_cons.2 ⟨⟨[], parts.flatMap Piece.source, rfl, rfl⟩, ?_⟩
    intro entry hEntry
    obtain ⟨before, after, hText, hSpan⟩ := ih entry hEntry
    refine ⟨piece.source ++ before, after, ?_, ?_⟩
    · rw [List.flatMap_cons, hText, List.append_assoc]
    · rw [hSpan, Span.advance_append]

/-- The parts of a piece of code have the positions after what stands in front of them. -/
theorem exists_spanAfter_of_mem_locatedPieces :
    ∀ entry ∈ fragment.locatedPieces, ∃ before after,
      fragment.text.toList = before ++ (entry.1.source ++ after) ∧
        entry.2 = fragment.spanAfter before := by
  intro entry hEntry
  obtain ⟨before, after, hText, hSpan⟩ := exists_advance_of_mem_locate entry hEntry
  rw [pieces, flatMap_source_pieces] at hText
  exact ⟨before, after, hText, hSpan⟩

/-- The parts of a piece of code stand in the text at their positions. -/
theorem IsVerbatim.standsAt_locatedPieces (h : fragment.IsVerbatim source) :
    ∀ entry ∈ fragment.locatedPieces, StandsAt source entry.1.source entry.2 := by
  intro entry hEntry
  obtain ⟨before, after, hText, hSpan⟩ := exists_spanAfter_of_mem_locatedPieces entry hEntry
  have hCode : StandsAt source (before ++ (entry.1.source ++ after)) fragment.span := hText ▸ h
  exact hSpan ▸ hCode.advance.of_append

theorem IsVerbatim.isPlace_references (h : fragment.IsVerbatim source) :
    ∀ reference ∈ fragment.references, reference.span.IsPlace source := by
  intro reference hReference
  obtain ⟨⟨piece, span⟩, hMem, hEntry⟩ := List.mem_filterMap.1 hReference
  have hStands := h.standsAt_locatedPieces _ hMem
  cases piece with
  | reference name => exact Option.some.inj hEntry ▸ hStands.isPlace
  | plain | stray => cases hEntry

theorem IsVerbatim.isPlace_strayMarks (h : fragment.IsVerbatim source) :
    ∀ span ∈ fragment.strayMarks, span.IsPlace source := by
  intro span hSpan
  obtain ⟨⟨piece, place⟩, hMem, hEntry⟩ := List.mem_filterMap.1 hSpan
  have hStands := h.standsAt_locatedPieces _ hMem
  cases piece with
  | stray => exact Option.some.inj hEntry ▸ hStands.isPlace
  | plain | reference => cases hEntry

end Fragment

/-! ### Code of rules -/

theorem Alternative.isVerbatim_guards {alternatives : List Alternative}
    (h : ∀ alternative ∈ alternatives, alternative.IsVerbatim source) :
    ∀ guard ∈ Alternative.guards alternatives, guard.IsVerbatim source := by
  intro guard hGuard
  obtain ⟨alternative, hMem, hEq⟩ := List.mem_filterMap.1 hGuard
  exact (h alternative hMem).guard guard hEq

/-- The code inside of elements stands in the text if all elements inside them do. -/
theorem isVerbatim_fragments_of_postorder (source : List Char) :
    (∀ expr : Expr, (∀ inner ∈ expr.postorder, inner.IsVerbatim source) →
      ∀ code ∈ expr.fragments, code.IsVerbatim source) ∧
    (∀ exprs : List Expr, (∀ inner ∈ Expr.postorderList exprs, inner.IsVerbatim source) →
      ∀ code ∈ Alternative.sequenceFragments exprs, code.IsVerbatim source) ∧
    ∀ alternatives : List Alternative,
      (∀ inner ∈ Expr.postorderAlternatives alternatives, inner.IsVerbatim source) →
      ∀ code ∈ Alternative.alternativesFragments alternatives, code.IsVerbatim source := by
  refine Expr.induction ?node ?token ?wildcard ?rule ?subrule ?action ?predicate ?nil ?cons
    ?none ?alternative
  case node =>
    intro id span label name children ih h
    exact ih (List.forall_mem_append.1 h).1
  case rule =>
    intro id span label name args h code hCode
    obtain ⟨-, -, -, hArgs⟩ := h _ List.mem_cons_self
    exact hArgs code (Option.mem_toList.1 hCode)
  case subrule =>
    -- the guards belong to the group itself, and not to an element inside of it
    intro id span repetition alternatives ih h
    obtain ⟨hInside, hSelf⟩ := List.forall_mem_append.1 h
    have hGuards := (hSelf _ List.mem_cons_self).2
    exact List.forall_mem_append.2 ⟨Alternative.isVerbatim_guards hGuards, ih hInside⟩
  case action | predicate =>
    intro id code h
    exact List.forall_mem_singleton.2 (h _ List.mem_cons_self)
  case cons =>
    intro expr exprs ihExpr ihExprs h
    obtain ⟨hExpr, hExprs⟩ := List.forall_mem_append.1 h
    exact List.forall_mem_append.2 ⟨ihExpr hExpr, ihExprs hExprs⟩
  case alternative =>
    intro guard elements span alternatives ihElements ihAlternatives h
    obtain ⟨hElements, hAlternatives⟩ := List.forall_mem_append.1 h
    exact List.forall_mem_append.2 ⟨ihElements hElements, ihAlternatives hAlternatives⟩
  all_goals
    intros
    simp_all [Expr.fragments, Alternative.sequenceFragments, Alternative.alternativesFragments]

namespace Rules.IsVerbatim

variable {rules : Rules} {rule : Rule}

theorem exprs_of_mem (h : rules.IsVerbatim source) (hRule : rule ∈ rules) :
    ∀ expr ∈ rule.exprs, expr.IsVerbatim source :=
  fun expr hExpr => h.exprs expr (List.mem_flatMap.2 ⟨rule, hRule, hExpr⟩)

/-- The code of a rule stands in the text. -/
theorem fragments (h : rules.IsVerbatim source) (hRule : rule ∈ rules) :
    ∀ code ∈ rule.fragments, code.IsVerbatim source := by
  refine List.forall_mem_append.2 ⟨?_, ?_⟩
  · exact Alternative.isVerbatim_guards (h.heads rule hRule).alternatives
  · exact (isVerbatim_fragments_of_postorder source).2.2 _ (h.exprs_of_mem hRule)

/-- Without repetitions, the rules still stand in the text. -/
theorem distinct (h : rules.IsVerbatim source) : rules.distinct.IsVerbatim source := by
  have hSublist := firstOfNames_sublist Rule.name rules
  refine ⟨fun expr hExpr => ?_, List.forall_mem_map.2 fun rule hRule => ?_⟩
  · rw [Rules.distinct, exprs_map_distinct] at hExpr
    exact h.exprs expr ((hSublist.flatMap Rule.exprs).subset hExpr)
  · have hFull := h.heads rule (hSublist.subset hRule)
    refine { hFull with attributes := fun attr hAttr => ?_ }
    exact hFull.attributes attr ((firstOfNames_sublist Attribute.name _).subset hAttr)

end Rules.IsVerbatim

/-! ### Declarations -/

/-- An item that is declared again, and the one that it repeats. -/
theorem mem_of_mem_repetitions {α : Type} {ident : α → Ident} {items : List α} {entry : α × α}
    (h : entry ∈ repetitions ident items) : entry.1 ∈ items ∧ entry.2 ∈ items := by
  obtain ⟨⟨item, i⟩, hItem, hEntry⟩ := List.mem_filterMap.1 h
  obtain ⟨other, hOther, rfl⟩ := Option.map_eq_some_iff.1 hEntry
  exact ⟨List.mem_of_getElem? (List.mem_zipIdx_iff_getElem?.1 hItem),
    List.mem_of_mem_take (List.mem_of_find?_eq_some hOther)⟩

theorem Rule.IsVerbatim.isLocated_declarationErrors {rule : Rule} (h : rule.IsVerbatim source) :
    ∀ error ∈ rule.declarationErrors, error.IsLocated source := by
  intro error hError
  rcases List.mem_append.1 hError with hAttribute | hReturn
  · obtain ⟨⟨attr, previous⟩, hEntry, rfl⟩ := List.mem_map.1 hAttribute
    obtain ⟨hAttr, hPrevious⟩ := mem_of_mem_repetitions hEntry
    exact Diagnostic.isLocated_mk_of_singleton (h.attributes attr hAttr).name.isPlace
      (h.attributes previous hPrevious).name.isPlace rfl
  · obtain ⟨value, hValue, hClash⟩ := Option.bind_eq_some_iff.1 (Option.mem_toList.1 hReturn)
    obtain ⟨attr, hAttr, rfl⟩ := Option.map_eq_some_iff.1 hClash
    exact Diagnostic.isLocated_mk_of_singleton (h.returns value hValue).name.isPlace
      (h.attributes attr (List.mem_of_find?_eq_some hAttr)).name.isPlace rfl

theorem Rules.IsVerbatim.isLocated_repetitionErrors {rules : Rules} (h : rules.IsVerbatim source) :
    ∀ error ∈ rules.repetitionErrors, error.IsLocated source := by
  intro error hError
  rcases List.mem_append.1 hError with hRule | hOther
  · obtain ⟨⟨rule, previous⟩, hEntry, rfl⟩ := List.mem_map.1 hRule
    obtain ⟨hRule, hPrevious⟩ := mem_of_mem_repetitions hEntry
    exact Diagnostic.isLocated_mk_of_singleton (h.heads rule hRule).name.isPlace
      (h.heads previous hPrevious).name.isPlace rfl
  · obtain ⟨rule, hRule, hErrors⟩ := List.mem_flatMap.1 hOther
    have hMem := (firstOfNames_sublist Rule.name rules).subset hRule
    exact (h.heads rule hMem).isLocated_declarationErrors error hErrors

theorem Expr.IsVerbatim.isPlace {expr : Expr} (h : expr.IsVerbatim source) :
    expr.span.IsPlace source := by
  cases expr with
  | node | token | rule | wildcard | subrule => exact h.1
  | action | predicate => exact Fragment.IsVerbatim.isPlace h

namespace SourceGrammar

variable {grammar : SourceGrammar}

theorem spans_nameError {expr : Expr} {problem : Problem}
    (h : grammar.nameError? expr = some problem) : problem.spans = [] := by
  unfold nameError? at h
  split at h
  case h_4 => cases h
  all_goals
    split at h
    · cases h
    · exact Option.some.inj h ▸ rfl

theorem isLocated_nameErrors (h : Rules.IsVerbatim source grammar.rules) :
    ∀ error ∈ grammar.nameErrors, error.IsLocated source := by
  intro error hError
  obtain ⟨expr, hExpr, hSome⟩ := List.mem_filterMap.1 hError
  obtain ⟨problem, hProblem, rfl⟩ := Option.map_eq_some_iff.1 hSome
  exact Diagnostic.isLocated_mk (h.distinct.exprs expr hExpr).isPlace (spans_nameError hProblem)

/-- The name of a grammar stands at a position of the text, even if the text does not give it. -/
theorem IsVerbatim.isPlace_name (h : grammar.IsVerbatim source) :
    grammar.name.span.IsPlace source := by
  rcases h.name with hDefault | hName
  · rw [hDefault]
    exact Span.isPlace_start source
  · exact hName.isPlace

theorem isLocated_optionWarnings (h : grammar.IsVerbatim source) :
    ∀ warning ∈ grammar.optionWarnings, warning.IsLocated source := by
  intro warning hWarning
  obtain ⟨option, hOption, hSome⟩ := List.mem_filterMap.1 hWarning
  have hVerbatim := h.options option hOption
  rw [GrammarOption.warning?] at hSome
  split at hSome
  · split at hSome
    · cases hSome
    · obtain rfl := Option.some.inj hSome
      exact Diagnostic.isLocated_mk hVerbatim.name.isPlace rfl
  · split at hSome
    · obtain ⟨args, hArgs, rfl⟩ := Option.map_eq_some_iff.1 hSome
      exact Diagnostic.isLocated_mk (hVerbatim.args args hArgs).isPlace rfl
    · obtain rfl := Option.some.inj hSome
      exact Diagnostic.isLocated_mk hVerbatim.name.isPlace rfl

end SourceGrammar

/-! ### Names and code -/

theorem NameRole.spans_error {role : NameRole} {name : String} {problem : Problem}
    (h : role.error? name = some problem) : problem.spans = [] := by
  rw [NameRole.error?] at h
  split at h
  · exact Option.some.inj h ▸ rfl
  · split at h
    · exact Option.some.inj h ▸ rfl
    · cases h

theorem Ident.isLocated_roleError {role : NameRole} {ident : Ident}
    (h : ident.span.IsPlace source) :
    ∀ error ∈ ident.roleError? role, Diagnostic.IsLocated source error := by
  intro error hError
  obtain ⟨problem, hProblem, rfl⟩ := Option.map_eq_some_iff.1 hError
  exact Diagnostic.isLocated_mk h (NameRole.spans_error hProblem)

namespace Attribute.IsVerbatim

variable {attr : Attribute}

theorem isLocated_initError (h : attr.IsVerbatim source) (kind : DeclarationKind) :
    ∀ error ∈ attr.initError? kind, Diagnostic.IsLocated source error := by
  intro error hError
  obtain ⟨init, hInit, hSome⟩ := Option.bind_eq_some_iff.1 hError
  have hVerbatim := h.init init hInit
  split at hSome
  · next reference others hReferences =>
    obtain rfl := Option.some.inj hSome
    have hMem : reference ∈ init.references := hReferences ▸ List.mem_cons_self
    exact Diagnostic.isLocated_mk (hVerbatim.isPlace_references reference hMem) rfl
  · split at hSome
    · cases hSome
    · obtain rfl := Option.some.inj hSome
      exact Diagnostic.isLocated_mk hVerbatim.isPlace rfl

theorem isLocated_codeErrors (h : attr.IsVerbatim source) (kind : DeclarationKind) :
    ∀ error ∈ attr.codeErrors kind, error.IsLocated source := by
  intro error hError
  rcases List.mem_append.1 hError with hHead | hInit
  · rcases List.mem_append.1 hHead with hName | hType
    · exact Ident.isLocated_roleError h.name.isPlace error (Option.mem_toList.1 hName)
    · split at hType
      · exact absurd hType List.not_mem_nil
      · obtain rfl := List.mem_singleton.1 hType
        exact Diagnostic.isLocated_mk h.type.isPlace rfl
  · exact h.isLocated_initError kind error (Option.mem_toList.1 hInit)

end Attribute.IsVerbatim

theorem Rule.spans_paramErrors {rule : Rule} :
    ∀ problem ∈ rule.paramErrors, problem.spans = [] := by
  intro problem hProblem
  rw [Rule.paramErrors] at hProblem
  split at hProblem
  · exact List.mem_singleton.1 hProblem ▸ rfl
  · obtain ⟨parameter, -, hSome⟩ := List.mem_filterMap.1 hProblem
    cases parameter with
    | named name => exact NameRole.spans_error hSome
    | receiver | complex => exact Option.some.inj hSome ▸ rfl

theorem Rule.IsVerbatim.isLocated_codeErrors {rule : Rule} (h : rule.IsVerbatim source) :
    ∀ error ∈ rule.codeErrors, error.IsLocated source := by
  intro error hError
  simp only [Rule.codeErrors, List.mem_append, or_assoc] at hError
  rcases hError with hName | hAttributes | hReturns | hParams
  · exact Ident.isLocated_roleError h.name.isPlace error (Option.mem_toList.1 hName)
  · obtain ⟨attr, hAttr, hMem⟩ := List.mem_flatMap.1 hAttributes
    exact (h.attributes attr hAttr).isLocated_codeErrors .attr error hMem
  · obtain ⟨value, hValue, hMem⟩ := List.mem_flatMap.1 hReturns
    exact (h.returns value (Option.mem_toList.1 hValue)).isLocated_codeErrors _ error hMem
  · obtain ⟨params, hSome, hMem⟩ := List.mem_flatMap.1 hParams
    obtain ⟨problem, hProblem, rfl⟩ := List.mem_map.1 hMem
    exact Diagnostic.isLocated_mk (h.params params (Option.mem_toList.1 hSome)).isPlace
      (Rule.spans_paramErrors problem hProblem)

theorem Rules.IsVerbatim.isLocated_strayMarkErrors {rules : Rules} (h : rules.IsVerbatim source)
    {rule : Rule} (hRule : rule ∈ rules) :
    ∀ error ∈ rule.strayMarkErrors, error.IsLocated source := by
  intro error hError
  obtain ⟨code, hCode, hMarks⟩ := List.mem_flatMap.1 hError
  obtain ⟨span, hSpan, rfl⟩ := List.mem_map.1 hMarks
  exact Diagnostic.isLocated_mk ((h.fragments hRule code hCode).isPlace_strayMarks span hSpan) rfl

namespace SourceGrammar

variable {grammar : SourceGrammar}

/-- The labels stand in the text, since their elements do. -/
theorem IsVerbatim.isVerbatim_labels (hGrammar : grammar.IsVerbatim source)
    (hNumbered : grammar.WellNumbered) : ∀ label ∈ grammar.labels, label.IsVerbatim source := by
  intro label hLabel
  rw [labels, hNumbered.infos, List.filterMap_map] at hLabel
  obtain ⟨expr, hExpr, hSome⟩ := List.mem_filterMap.1 hLabel
  have hVerbatim := hGrammar.elements expr hExpr
  cases expr with
  | node | token | rule => exact hVerbatim.2.1 label hSome
  | wildcard => exact hVerbatim.2 label hSome
  | subrule | action | predicate => cases hSome

theorem isLocated_codeErrors (hGrammar : grammar.IsVerbatim source)
    (hNumbered : grammar.WellNumbered) (options : Options) {rules : Rules}
    (hRules : rules.IsVerbatim source) :
    ∀ error ∈ grammar.codeErrors options rules, error.IsLocated source := by
  intro error hError
  simp only [codeErrors, List.mem_append, or_assoc] at hError
  rcases hError with hName | hState | hPrelude | hCode | hMarks | hLabels
  · exact Ident.isLocated_roleError hGrammar.isPlace_name error (Option.mem_toList.1 hName)
  · obtain ⟨type, -, hSome⟩ := Option.bind_eq_some_iff.1 (Option.mem_toList.1 hState)
    split at hSome
    · cases hSome
    · obtain rfl := Option.some.inj hSome
      exact Diagnostic.isLocated_mk hGrammar.isPlace_name rfl
  · obtain ⟨prelude, hMem, hSome⟩ := List.mem_filterMap.1 hPrelude
    split at hSome
    · cases hSome
    · obtain rfl := Option.some.inj hSome
      exact Diagnostic.isLocated_mk (hGrammar.prelude prelude hMem).isPlace rfl
  · obtain ⟨rule, hRule, hMem⟩ := List.mem_flatMap.1 hCode
    exact (hRules.heads rule hRule).isLocated_codeErrors error hMem
  · obtain ⟨rule, hRule, hMem⟩ := List.mem_flatMap.1 hMarks
    exact hRules.isLocated_strayMarkErrors hRule error hMem
  · obtain ⟨label, hLabel, hSome⟩ := List.mem_filterMap.1 hLabels
    have hVerbatim := hGrammar.isVerbatim_labels hNumbered label hLabel
    exact Ident.isLocated_roleError hVerbatim.isPlace error hSome

end SourceGrammar

/-! ### Walks, decisions and scopes -/

namespace Rules.IsVerbatim

variable {rules : Rules}

theorem isLocated_recursionErrors (h : rules.IsVerbatim source) (first : String → FirstSet) :
    ∀ error ∈ rules.recursionErrors first, error.IsLocated source := by
  intro error hError
  obtain ⟨cycle, -, hSome⟩ := List.mem_filterMap.1 hError
  obtain ⟨rule, hRule, rfl⟩ := Option.map_eq_some_iff.1 hSome
  obtain ⟨i, -, hGet⟩ := Option.bind_eq_some_iff.1 hRule
  exact Diagnostic.isLocated_mk (h.heads rule (List.mem_of_getElem? hGet)).name.isPlace rfl

theorem isLocated_repeatErrors (h : rules.IsVerbatim source) (first : String → FirstSet) :
    ∀ error ∈ rules.repeatErrors first, error.IsLocated source := by
  intro error hError
  obtain ⟨expr, hExpr, hSome⟩ := List.mem_filterMap.1 hError
  have hVerbatim := h.exprs expr hExpr
  -- only a repeated group is reported
  cases expr with
  | subrule id span repetition alternatives =>
    rw [Expr.repeatError?] at hSome
    split at hSome
    · obtain ⟨alternative, -, rfl⟩ := Option.map_eq_some_iff.1 hSome
      exact Diagnostic.isLocated_mk hVerbatim.1 rfl
    · cases hSome
  | _ => cases hSome

theorem isLocated_usageWarnings (h : rules.IsVerbatim source) :
    ∀ warning ∈ rules.usageWarnings, warning.IsLocated source := by
  intro warning hWarning
  obtain ⟨⟨rule, i⟩, hMem, hSome⟩ := List.mem_filterMap.1 hWarning
  have hRule := List.mem_of_getElem? (List.mem_zipIdx_iff_getElem?.1 hMem)
  dsimp only at hSome
  split at hSome
  · cases hSome
  · obtain rfl := Option.some.inj hSome
    exact Diagnostic.isLocated_mk (h.heads rule hRule).name.isPlace rfl

/-- A decision is made at a rule or at a group. -/
theorem isPlace_decisions (h : rules.IsVerbatim source) (first : String → FirstSet)
    (follows : List LookaheadSet) :
    ∀ decision ∈ rules.decisions first follows, decision.span.IsPlace source := by
  intro decision hDecision
  rw [decisions_eq] at hDecision
  rcases exists_site_of_mem_collect hDecision with hNone | ⟨site, hSite, id, hMade⟩
  · exact absurd hNone List.not_mem_nil
  -- the site of a decision is the head of a rule, or an element inside of one
  obtain ⟨index, rule, follow, hRule, -, hMem⟩ := mem_sites hSite
  have hRule := List.mem_of_getElem? hRule
  rcases List.mem_cons.1 hMem with rfl | hOccurrence
  · dsimp only at hMade
    rw [Rule.decision?] at hMade
    split at hMade
    · exact Option.some.inj hMade ▸ (h.heads rule hRule).name.isPlace
    · cases hMade
  · obtain ⟨⟨expr, after⟩, hVisited, rfl⟩ := List.mem_map.1 hOccurrence
    have hExpr : expr ∈ rule.exprs :=
      (rule.perm_occurrences first follow).subset (List.mem_map.2 ⟨⟨expr, after⟩, hVisited, rfl⟩)
    have hVerbatim := h.exprs_of_mem hRule expr hExpr
    cases expr with
    | subrule expr span repetition alternatives =>
      cases repetition with
      | once =>
        simp only [Occurrence.decision?] at hMade
        split at hMade
        · exact Option.some.inj hMade ▸ hVerbatim.1
        · cases hMade
      | optional | star | plus => exact Option.some.inj hMade ▸ hVerbatim.1
    | _ => cases hMade

theorem isLocated_ambiguityWarnings (h : rules.IsVerbatim source) (first : String → FirstSet)
    (follows : List LookaheadSet) :
    ∀ warning ∈ rules.ambiguityWarnings (rules.decisions first follows),
      warning.IsLocated source := by
  intro warning hWarning
  obtain ⟨decision, hDecision, hMem⟩ := List.mem_flatMap.1 hWarning
  obtain ⟨conflict, -, rfl⟩ := List.mem_map.1 hMem
  exact Diagnostic.isLocated_mk (h.isPlace_decisions first follows decision hDecision) rfl

theorem isPlace_declarations (h : rules.IsVerbatim source) (declaring : List Nat) (name : String) :
    ∀ declaration ∈ rules.declarations declaring name, declaration.span.IsPlace source := by
  intro declaration hDeclaration
  obtain ⟨i, -, hSome⟩ := List.mem_filterMap.1 hDeclaration
  obtain ⟨rule, hRule, hFound⟩ := Option.bind_eq_some_iff.1 hSome
  obtain ⟨attr, hAttr, rfl⟩ := Option.map_eq_some_iff.1 hFound
  have hMem := List.mem_of_find?_eq_some hAttr
  exact ((h.heads rule (List.mem_of_getElem? hRule)).attributes attr hMem).name.isPlace

/-- Why a reference has no meaning mentions the declarations that it might mean. -/
theorem isPlace_spans_resolve (h : rules.IsVerbatim source) {graph : CallGraph} {rule : Nat}
    {name : String} {problem : Problem} (hError : rules.resolve graph rule name = .error problem) :
    ∀ span ∈ problem.spans, span.IsPlace source := by
  rw [resolve] at hError
  split at hError
  · cases hError
  · split at hError
    · obtain rfl := Except.error.inj hError
      exact List.forall_mem_nil _
    · have hPlaces := h.isPlace_declarations (rules.nearestDeclaring graph rule name) name
      dsimp only at hError
      split at hError
      · obtain rfl := Except.error.inj hError
        exact List.forall_mem_nil _
      · next first others hDeclarations =>
        split at hError
        · cases hError
        · obtain rfl := Except.error.inj hError
          rw [hDeclarations] at hPlaces
          intro span hSpan
          simp only [Problem.spans, Problem.notes, List.append_nil, List.map_map] at hSpan
          obtain ⟨declaration, hMem, rfl⟩ := List.mem_map.1 hSpan
          exact hPlaces declaration hMem

theorem isLocated_scopeErrors (h : rules.IsVerbatim source) :
    ∀ error ∈ rules.scopeErrors, error.IsLocated source := by
  intro error hError
  obtain ⟨resolution, hMem, hResolution⟩ := List.mem_filterMap.1 hError
  obtain ⟨⟨rule, index⟩, hRule, hReferences⟩ := List.mem_flatMap.1 hMem
  have hRule := List.mem_of_getElem? (List.mem_zipIdx_iff_getElem?.1 hRule)
  obtain ⟨reference, hReference, rfl⟩ := List.mem_map.1 hReferences
  have hPlace : reference.span.IsPlace source := by
    -- of several references to one name, the first one is resolved
    obtain ⟨name, -, hFound⟩ := List.mem_filterMap.1 hReference
    obtain ⟨code, hCode, hIn⟩ := List.mem_flatMap.1 (List.mem_of_find?_eq_some hFound)
    exact (h.fragments hRule code hCode).isPlace_references reference hIn
  split at hResolution
  · cases hResolution
  · next diagnostic hEq =>
    obtain rfl := Option.some.inj hResolution
    split at hEq
    · cases hEq
    · next problem hProblem =>
      obtain rfl := Except.error.inj hEq
      exact ⟨hPlace, h.isPlace_spans_resolve hProblem⟩

end Rules.IsVerbatim

/-! ### Code of grammars -/

namespace Fragment.IsVerbatim

variable {fragment : Fragment}

theorem isLocated_lexicalError (h : fragment.IsVerbatim source) {text : List Char} :
    ∀ error ∈ fragment.lexicalError? text, Diagnostic.IsLocated source error := by
  intro error hError
  rw [lexicalError?] at hError
  split at hError
  · cases hError
  · obtain rfl := Option.some.inj hError
    exact Diagnostic.isLocated_mk h.isPlace rfl

end Fragment.IsVerbatim

theorem Alternative.isLocated_guardErrors {alternatives : List Alternative}
    (h : ∀ alternative ∈ alternatives, alternative.IsVerbatim source) :
    ∀ error ∈ guardErrors alternatives, error.IsLocated source := by
  intro error hError
  obtain ⟨guard, hGuard, hSome⟩ := List.mem_filterMap.1 hError
  exact (isVerbatim_guards h guard hGuard).isLocated_lexicalError error hSome

theorem Expr.IsVerbatim.isLocated_lexicalErrors {expr : Expr} (h : expr.IsVerbatim source) :
    ∀ error ∈ expr.lexicalErrors, error.IsLocated source := by
  intro error hError
  cases expr with
  | node | token | wildcard => cases hError
  | rule id span label name args =>
    obtain ⟨-, -, -, hArgs⟩ := h
    cases args with
    | none => cases hError
    | some args =>
      rw [lexicalErrors] at hError
      split at hError
      · cases hError
      · obtain rfl := List.mem_singleton.1 hError
        exact Diagnostic.isLocated_mk (hArgs args rfl).isPlace rfl
  | subrule => exact Alternative.isLocated_guardErrors h.2 error hError
  | action | predicate =>
    exact Fragment.IsVerbatim.isLocated_lexicalError h error (Option.mem_toList.1 hError)

/-- What is wrong with the code of a grammar is said at positions of the text. -/
theorem Grammar.isLocated_lexicalErrors {grammar : Grammar}
    (hPrelude : ∀ prelude ∈ grammar.prelude, prelude.IsVerbatim source)
    (hRules : grammar.rules.IsVerbatim source) :
    ∀ error ∈ grammar.lexicalErrors, error.IsLocated source := by
  intro error hError
  rcases List.mem_append.1 hError with hError | hError
  · obtain ⟨prelude, hMem, hSome⟩ := List.mem_filterMap.1 hError
    exact (hPrelude prelude hMem).isLocated_lexicalError error hSome
  · obtain ⟨rule, hRule, hError⟩ := List.mem_flatMap.1 hError
    rcases List.mem_append.1 hError with hGuard | hExpr
    · exact Alternative.isLocated_guardErrors (hRules.heads rule hRule).alternatives error hGuard
    · obtain ⟨expr, hExpr, hError⟩ := List.mem_flatMap.1 hExpr
      exact (hRules.exprs_of_mem hRule expr hExpr).isLocated_lexicalErrors error hError

/-! ### Analysis and compilation -/

namespace SourceGrammar

variable {grammar : SourceGrammar}

/-- The rules stand in the text with all their elements, since these are among all elements. -/
theorem IsVerbatim.isVerbatim_rules (hGrammar : grammar.IsVerbatim source)
    (hNumbered : grammar.WellNumbered) : Rules.IsVerbatim source grammar.rules where
  exprs expr hExpr := hGrammar.elements expr (hNumbered.exprs_sublist.subset hExpr)
  heads := hGrammar.rules

theorem isLocated_analyse (hGrammar : grammar.IsVerbatim source) (hNumbered : grammar.WellNumbered)
    (options : Options) {syntaxErrors : List Diagnostic}
    (hSyntax : ∀ error ∈ syntaxErrors, error.IsLocated source) :
    ∀ diagnostic ∈ (grammar.analyse options syntaxErrors).diagnostics,
      diagnostic.IsLocated source := by
  have hRules := hGrammar.isVerbatim_rules hNumbered
  have hDistinct := hRules.distinct
  intro diagnostic hMem
  simp only [analyse, declarationErrors, List.mem_append, or_assoc] at hMem
  rcases hMem with hMem | hMem | hMem | hMem | hMem | hMem | hMem | hMem | hMem | hMem
  -- one case for each pass, in the order in which they report
  · exact hSyntax diagnostic hMem
  · exact hRules.isLocated_repetitionErrors diagnostic hMem
  · exact isLocated_nameErrors hRules diagnostic hMem
  · exact isLocated_optionWarnings hGrammar diagnostic hMem
  · exact isLocated_codeErrors hGrammar hNumbered _ hDistinct diagnostic hMem
  · exact hDistinct.isLocated_recursionErrors _ diagnostic hMem
  · exact hDistinct.isLocated_repeatErrors _ diagnostic hMem
  · exact hDistinct.isLocated_usageWarnings diagnostic (List.mem_ite_nil_right.1 hMem).2
  · exact hDistinct.isLocated_ambiguityWarnings _ _ diagnostic hMem
  · exact hDistinct.isLocated_scopeErrors diagnostic (List.mem_ite_nil_right.1 hMem).2

end SourceGrammar

section Text

variable (source : List Char) (options : Options)

/-- What the analysis says about a text is at positions of the text. -/
theorem isLocated_analyse : ∀ diagnostic ∈ (analyse source options).diagnostics,
    diagnostic.IsLocated source := by
  obtain ⟨hErrors, hGrammar⟩ := SourceGrammar.parse_isVerbatim source
  have hNumbered := SourceGrammar.wellNumbered_parse source
  have hSyntax : ∀ diagnostic ∈ (SourceGrammar.parse source).1.map fun error =>
      (⟨error.span, .syntaxError error.cause⟩ : Diagnostic), diagnostic.IsLocated source :=
    List.forall_mem_map.2 fun error hError => ⟨(hErrors error hError).1, (hErrors error hError).2⟩
  rw [analyse]
  dsimp only
  split
  · refine List.forall_mem_append.2 ⟨hSyntax, ?_⟩
    split
    · exact List.forall_mem_singleton.2 (Diagnostic.isLocated_mk hGrammar.isPlace_name rfl)
    · exact List.forall_mem_nil _
  · exact SourceGrammar.isLocated_analyse hGrammar hNumbered options hSyntax

variable {source options} {compilation : Compilation}

/-- The code of an accepted grammar stands in the text. -/
theorem Grammar.isVerbatim_of_accepted {grammar : Grammar}
    (h : (analyse source options).accepted? = some grammar) :
    (∀ prelude ∈ grammar.prelude, prelude.IsVerbatim source) ∧
      grammar.rules.IsVerbatim source := by
  have hText := Grammar.isAnalysed_of_accepted h
  obtain ⟨-, hParsed⟩ := SourceGrammar.parse_isVerbatim source
  rw [hText.prelude, hText.rules]
  exact ⟨hParsed.prelude, hParsed.isVerbatim_rules (SourceGrammar.wellNumbered_parse source)⟩

/-- What a compilation says about a text is at positions of the text. -/
theorem isLocated_compile (h : compile source options = .ok compilation) :
    ∀ diagnostic ∈ compilation.diagnostics, diagnostic.IsLocated source := by
  have hAnalysis := isLocated_analyse source options
  cases handsOut_of_compile h with
  | @accepted grammar hAccepted hDiagnostics _ =>
    obtain ⟨hPrelude, hRules⟩ := Grammar.isVerbatim_of_accepted hAccepted
    rw [hDiagnostics]
    exact List.forall_mem_append.2 ⟨hAnalysis, grammar.isLocated_lexicalErrors hPrelude hRules⟩
  | rejected _ hDiagnostics _ => rwa [hDiagnostics]

/-- Diagnostics that stand in a text are sorted by their offsets. -/
theorem Diagnostic.sort_eq_mergeSort {diagnostics : List Diagnostic}
    (h : ∀ diagnostic ∈ diagnostics, diagnostic.IsLocated source) :
    sort diagnostics = diagnostics.mergeSort fun a b => a.span.offset ≤ b.span.offset := by
  have hMap := List.map_mergeSort (f := id) (r := fun a b : Diagnostic => a.span.le b.span)
    (s := fun a b : Diagnostic => decide (a.span.offset ≤ b.span.offset)) (l := diagnostics)
    fun a ha b hb => by
      rw [Bool.eq_iff_iff, decide_eq_true_iff]
      exact Span.le_iff_offset_le (h a ha).span (h b hb).span
  rwa [List.map_id, List.map_id] at hMap

variable (source options)

/-- Whatever happens to a text, all positions are positions of the text. -/
structure PositionsFaithful : Prop where
  /-- The parser stands at positions of the text only. -/
  parser : ∀ (bound : Nat) (state : ReadState source bound), state.span.IsPlace source
  /-- What has been read stands in the text, apart from the name of a grammar without a header. -/
  grammar : (SourceGrammar.parse source).2.IsVerbatim source
  rules : (SourceGrammar.parse source).2.rules.IsVerbatim source
  labels : ∀ label ∈ (SourceGrammar.parse source).2.labels, label.IsVerbatim source
  /-- The parts of a piece of code stand in the text. -/
  pieces : ∀ code : Fragment, code.IsVerbatim source →
    ∀ entry ∈ code.locatedPieces, StandsAt source entry.1.source entry.2
  analysis : ∀ diagnostic ∈ (analyse source options).diagnostics, diagnostic.IsLocated source
  compilation : ∀ compilation, compile source options = .ok compilation →
    ∀ diagnostic ∈ compilation.diagnostics, diagnostic.IsLocated source
  /-- The order of positions is the order of their offsets. -/
  order : ∀ a b : Span, a.IsPlace source → b.IsPlace source → (a.le b ↔ a.offset ≤ b.offset)
  sorted : ∀ compilation, compile source options = .ok compilation →
    Diagnostic.sort compilation.diagnostics =
      compilation.diagnostics.mergeSort fun a b => a.span.offset ≤ b.span.offset

/-- All positions that a text gives rise to are positions of the text. -/
theorem positions_faithful : PositionsFaithful source options := by
  obtain ⟨-, hGrammar⟩ := SourceGrammar.parse_isVerbatim source
  have hNumbered := SourceGrammar.wellNumbered_parse source
  constructor
  case parser => exact fun _ state => state.isPlace_span
  case grammar => exact hGrammar
  case rules => exact hGrammar.isVerbatim_rules hNumbered
  case labels => exact hGrammar.isVerbatim_labels hNumbered
  case pieces => exact fun _ hCode => hCode.standsAt_locatedPieces
  case analysis => exact isLocated_analyse source options
  case compilation => exact fun _ hCompile => isLocated_compile hCompile
  case order => exact fun _ _ ha hb => Span.le_iff_offset_le ha hb
  case sorted => exact fun _ hCompile => Diagnostic.sort_eq_mergeSort (isLocated_compile hCompile)

end Text

namespace Sample

/-- The small grammar is compiled, and what is said about it is at positions of its text. -/
theorem positions_faithful_sample : ∃ compilation, compile Sample.source {} = .ok compilation ∧
    ∀ diagnostic ∈ compilation.diagnostics, diagnostic.IsLocated Sample.source := by
  obtain ⟨compilation, hCompile⟩ := exists_compilation
  have hFaithful := positions_faithful Sample.source {}
  exact ⟨compilation, hCompile, hFaithful.compilation compilation hCompile⟩

end Sample

end TreeGrammar
