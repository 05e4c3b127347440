import TreeGrammar.Proofs.Analysis.Passes
import TreeGrammar.Proofs.Analysis.Scopes
import TreeGrammar.Proofs.Grammar.Membership
import TreeGrammar.Proofs.Grammar.ShortestPaths

/-!
# What references are resolved to

A rule may refer to an attribute that it does not declare. If calls lead to the rule from the start
of a walk without passing a declaration, then the reference has no meaning, and a shortest such path
is reported. Otherwise the reference means the declarations that are met first on the way back from
the rule to its callers, if there are any and if they agree on the type. Each attribute to which a
rule refers is reported or planned once.

## Main definitions

* `Rules.Calls`: a rule calls another one
* `Rules.Misses`: a path of calls from the start of a walk without a declaration
* `Rules.IsNearest`: a declaration that is met first on the way back from a rule
* `Rules.DeclaresAs`: the declaration of an attribute in a rule
* `Rules.Resolves`: what a reference means, or why it means nothing
* `Problem.attribute?`: the attribute and the rule of an error about a reference

## Main results

* `Rules.mem_nearestDeclaring_iff`: the search for the nearest declarations is exact
* `Rules.resolves_resolve`: the search for the meaning of a reference is exact
* `Draft.resolveScopes_exact`: what is reported and planned for the references of a grammar
-/

namespace TreeGrammar

namespace Rules

/-- An element of the rule `caller` calls the rule `callee`. -/
def Calls (rules : Rules) (caller callee : Nat) : Prop :=
  ∃ rule expr name, rules[caller]? = some rule ∧ expr ∈ rule.exprs ∧ expr.called? = some name ∧
    rules.index? name = some callee

/-- The chain leads from a rule at which walks start to the rule `index`, and none of its rules
declares the attribute. -/
def Misses (rules : Rules) (name : String) (index : Nat) (chain : List Nat) : Prop :=
  chain.IsChain rules.Calls ∧ (∃ entry ∈ rules.entries, chain.head? = some entry) ∧
    chain.getLast? = some index ∧ ∀ other ∈ chain, rules.declares other name = false

/-- The rule `declarer` declares the attribute, and calls lead from it to the rule `index` through
rules that do not. -/
def IsNearest (rules : Rules) (name : String) (index declarer : Nat) : Prop :=
  rules.declares declarer name = true ∧ ∃ chain : List Nat,
    (declarer :: chain).IsChain rules.Calls ∧ chain.getLast? = some index ∧
      ∀ other ∈ chain, rules.declares other name = false

/-- The attribute is declared in the rule with the number `index` in this way. -/
def DeclaresAs (rules : Rules) (name : String) (index : Nat) (declaration : TypedDeclaration) :
    Prop :=
  ∃ rule attr, rules[index]? = some rule ∧ rule.attribute? name = some attr ∧
    declaration = ⟨attr.name.span, attr.typeText, rule.name.name⟩

/-- The result is what a reference to the attribute in the rule `index` means. -/
structure Resolves (rules : Rules) (name : String) (index : Nat)
    (result : Except Problem ScopeResolution) : Prop where
  /-- If the rule declares the attribute itself, then this declaration is meant. -/
  own : ∀ attr, rules[index]?.bind (·.attribute? name) = some attr →
    result = .ok ⟨[index], attr.typeText⟩
  /-- Otherwise a shortest path without a declaration is an error. -/
  missed : rules.declares index name = false → (∃ chain, rules.Misses name index chain) →
    ∃ path, rules.Misses name index path ∧
      (∀ other, rules.Misses name index other → path.length ≤ other.length) ∧
      result = .error (.undeclaredOnPath name (rules.nameOf index) (path.map rules.nameOf))
  /-- If there is no such path, then the nearest declarations are meant. It is an error if there are
  none or if they differ in their types. -/
  enclosed : rules.declares index name = false → (¬ ∃ chain, rules.Misses name index chain) →
    ∃ declaring declarations, declaring.Pairwise (· < ·) ∧
      (∀ declarer, declarer ∈ declaring ↔ rules.IsNearest name index declarer) ∧
      List.Forall₂ (rules.DeclaresAs name) declaring declarations ∧
      (declaring = [] → result = .error (.undeclaredByCallers name (rules.nameOf index))) ∧
      ((∃ a ∈ declarations, ∃ b ∈ declarations, a.type ≠ b.type) →
        result = .error (.typeConflict name (rules.nameOf index) declarations)) ∧
      ∀ type, declaring ≠ [] → (∀ declaration ∈ declarations, declaration.type = type) →
        result = .ok { declaring, type }

variable {rules : Rules} {name : String} {index declarer : Nat} {chain declaring : List Nat}

/-! ### Paths of calls -/

theorem mem_callGraph_iff {caller callee : Nat} :
    callee ∈ rules.callGraph.callees caller ↔ rules.Calls caller callee := by
  refine (mem_callees_iff Rule.calls rfl).trans ?_
  simp only [Rule.calls, List.mem_filterMap, Calls]
  grind

theorem Calls.lt_length {caller callee : Nat} (h : rules.Calls caller callee) :
    callee < rules.length :=
  CallChain.lt_length_of_mem_callees (mem_callGraph_iff.2 h)

theorem lt_length_of_declares (h : rules.declares index name = true) : index < rules.length := by
  obtain ⟨rule, -, hRule, -⟩ := exists_attribute_of_declares h
  exact (List.getElem?_eq_some_iff.1 hRule).1

/-- A chain of calls that starts with a rule of the grammar consists of rules of the grammar. -/
theorem lt_length_of_isChain {first : Nat} (hChain : (first :: chain).IsChain rules.Calls)
    (hFirst : first < rules.length) : ∀ other ∈ first :: chain, other < rules.length :=
  hChain.induction (· < rules.length) _ (fun _ _ hCall _ => hCall.lt_length) fun _ => hFirst

/-- The paths without a declaration are those that the search for one follows. -/
theorem misses_iff (hNot : rules.declares index name = false) :
    rules.Misses name index chain ↔ CallGraph.Leads rules.callGraph.callees
      (rules.callGraph.nodes.filter fun other => !rules.declares other name || other = index)
      rules.entries index chain := by
  have hCalls : (fun caller callee => callee ∈ rules.callGraph.callees caller) = rules.Calls := by
    funext caller callee
    exact propext mem_callGraph_iff
  rw [CallGraph.leads_iff, hCalls, Misses]
  refine and_congr_right fun hChain => and_congr_right fun hEntry => and_congr_right fun _ => ?_
  have hLength : ∀ other ∈ chain, other < rules.length := by
    obtain ⟨entry, hMem, hHead⟩ := hEntry
    cases chain with
    | nil => exact nofun
    | cons first chain =>
      obtain rfl : first = entry := Option.some.inj hHead
      exact lt_length_of_isChain hChain (lt_length_of_mem_entries hMem)
  refine forall₂_congr fun other hOther => ?_
  rw [List.mem_filter, CallGraph.mem_nodes, size_callGraph]
  simp only [hLength other hOther, true_and, Bool.or_eq_true, Bool.not_eq_true', decide_eq_true_eq]
  constructor
  · exact .inl
  · rintro (h | rfl)
    · exact h
    · exact hNot

/-- The search for the nearest declarations yields all of them and no others. -/
theorem mem_nearestDeclaring_iff (hIndex : index < rules.length) :
    declarer ∈ rules.nearestDeclaring rules.callGraph index name ↔
      rules.IsNearest name index declarer := by
  have hCallers : ∀ callee caller, caller ∈ rules.callGraph.callers callee ↔
      rules.Calls caller callee := fun _ _ => CallGraph.mem_callers.trans mem_callGraph_iff
  have hInside : ∀ callee, callee ∈ rules.inside index name ↔ ∃ chain : List Nat,
      chain.IsChain rules.Calls ∧ chain.head? = some callee ∧ chain.getLast? = some index ∧
        ∀ other ∈ chain, other < rules.length ∧ rules.declares other name = false := by
    intro callee
    rw [inside, CallGraph.mem_ends_paths_iff]
    -- the search goes from callees to callers, so that its chains are read backwards
    constructor
    · rintro ⟨chain, hLeads⟩
      obtain ⟨hChain, ⟨root, hRoot, hHead⟩, hLast, hAll⟩ := CallGraph.leads_iff.1 hLeads
      obtain rfl := List.mem_singleton.1 hRoot
      refine ⟨chain.reverse, List.isChain_reverse.2 (hChain.imp fun _ _ => (hCallers ..).1),
        by simpa using hLast, by simpa using hHead, fun other hOther => ?_⟩
      have hMem := List.mem_filter.1 (hAll other (List.mem_reverse.1 hOther))
      rw [CallGraph.mem_nodes, size_callGraph] at hMem
      simpa using hMem
    · rintro ⟨chain, hChain, hHead, hLast, hAll⟩
      refine ⟨chain.reverse, CallGraph.leads_iff.2 ⟨List.isChain_reverse.2
        (hChain.imp fun _ _ => (hCallers ..).2), ⟨index, List.mem_singleton_self index,
          by simpa using hLast⟩, by simpa using hHead, fun other hOther => ?_⟩⟩
      obtain ⟨hLength, hNot⟩ := hAll other (List.mem_reverse.1 hOther)
      exact mem_undeclaring hLength (by simp [hNot])
  rw [nearestDeclaring, List.mem_filter, CallGraph.mem_nodes, size_callGraph, Bool.and_eq_true,
    List.any_eq_true]
  constructor
  · rintro ⟨-, hDeclares, callee, hCallee, hCall⟩
    obtain ⟨chain, hChain, hHead, hLast, hAll⟩ := (hInside callee).1 hCallee
    refine ⟨hDeclares, chain, List.isChain_cons.2 ⟨fun first hFirst => ?_, hChain⟩, hLast,
      fun other hOther => (hAll other hOther).2⟩
    obtain rfl : callee = first := Option.some.inj (hHead.symm.trans hFirst)
    exact (hCallers ..).1 (of_decide_eq_true hCall)
  · rintro ⟨hDeclares, chain, hChain, hLast, hNone⟩
    have hLength := lt_length_of_declares hDeclares
    have hRules := lt_length_of_isChain hChain hLength
    obtain ⟨hFirst, hRest⟩ := List.isChain_cons.1 hChain
    cases hHead : chain.head? with
    | none => simp [List.head?_eq_none_iff.1 hHead] at hLast
    | some callee =>
      have hCallee : callee ∈ rules.inside index name := (hInside callee).2 ⟨chain, hRest, hHead,
        hLast, fun other hOther =>
          ⟨hRules other (List.mem_cons_of_mem _ hOther), hNone other hOther⟩⟩
      exact ⟨hLength, hDeclares, callee, hCallee,
        decide_eq_true ((hCallers ..).2 (hFirst callee hHead))⟩

/-! ### The meaning of a reference -/

theorem attribute?_eq_none (hNot : rules.declares index name = false) :
    rules[index]?.bind (·.attribute? name) = none := by
  cases hAttr : rules[index]?.bind (·.attribute? name) with
  | none => rfl
  | some attr => simp [declares_of_attribute hAttr] at hNot

/-- A reference has no meaning if a path leads to its rule without a declaration. The reason names a
shortest path of this kind. -/
theorem resolve_of_misses (hNot : rules.declares index name = false)
    (h : ∃ chain, rules.Misses name index chain) :
    ∃ path, rules.Misses name index path ∧
      (∀ other, rules.Misses name index other → path.length ≤ other.length) ∧
      rules.resolve rules.callGraph index name =
        .error (.undeclaredOnPath name (rules.nameOf index) (path.map rules.nameOf)) := by
  obtain ⟨chain, hChain⟩ := h
  cases hPath : rules.callGraph.path? rules.entries index (!rules.declares · name) with
  | none => exact absurd ((misses_iff hNot).1 hChain) (CallGraph.path?_eq_none_iff.1 hPath chain)
  | some path =>
    obtain ⟨hLeads, hShortest⟩ := CallGraph.path?_eq_some hPath
    refine ⟨path, (misses_iff hNot).2 hLeads,
      fun other hOther => hShortest other ((misses_iff hNot).1 hOther), ?_⟩
    rw [resolve, attribute?_eq_none hNot]
    simp only [hPath]

/-- Rules that declare an attribute have one declaration each. -/
theorem forall₂_declarations (h : ∀ other ∈ declaring, rules.declares other name = true) :
    List.Forall₂ (rules.DeclaresAs name) declaring (rules.declarations declaring name) := by
  refine forall₂_filterMap fun other hOther => ?_
  obtain ⟨rule, attr, hRule, hAttr⟩ := exists_attribute_of_declares (h other hOther)
  exact ⟨_, by simp [hRule, hAttr], rule, attr, hRule, hAttr, rfl⟩

/-- The search for the meaning of a reference is exact. -/
theorem resolves_resolve (hIndex : index < rules.length) :
    rules.Resolves name index (rules.resolve rules.callGraph index name) where
  own := by
    intro attr hAttr
    rw [resolve, hAttr]
  missed := resolve_of_misses
  enclosed := by
    intro hNot hNone
    have hPath : rules.callGraph.path? rules.entries index (!rules.declares · name) = none :=
      CallGraph.path?_eq_none_iff.2 fun chain hLeads => hNone ⟨chain, (misses_iff hNot).2 hLeads⟩
    simp only [resolve, attribute?_eq_none hNot, hPath]
    generalize hDeclaring : rules.nearestDeclaring rules.callGraph index name = declaring
    have hForall : List.Forall₂ (rules.DeclaresAs name) declaring
        (rules.declarations declaring name) := by
      apply forall₂_declarations
      intro other hOther
      rw [← hDeclaring] at hOther
      exact declares_of_mem_nearestDeclaring hOther
    refine ⟨declaring, rules.declarations declaring name, ?_, ?_, hForall, ?_⟩
    · rw [← hDeclaring]
      exact List.pairwise_lt_range.filter _
    · intro declarer
      rw [← hDeclaring, mem_nearestDeclaring_iff hIndex]
    generalize rules.declarations declaring name = declarations at hForall
    cases hForall with
    | nil => simp
    | @cons declarer first declaring others hFirst hOthers =>
      -- all declarations have one type if and only if the others have that of the first one
      have hAgree : others.all (·.type = first.type) = true ↔
          ∀ a ∈ first :: others, a.type = first.type := by
        simp
      refine ⟨by simp, ?_, ?_⟩
      · rintro ⟨a, ha, b, hb, hDiffer⟩
        exact if_neg fun h => hDiffer ((hAgree.1 h a ha).trans (hAgree.1 h b hb).symm)
      · intro type _ hType
        obtain rfl := hType first List.mem_cons_self
        exact if_pos (hAgree.2 hType)

end Rules

/-! ### All references of a grammar -/

/-- The code of a rule refers to an attribute, for the first time at the given place. -/
def Rule.RefersFirst (rule : Rule) (reference : Ident) : Prop :=
  (rule.fragments.flatMap Fragment.references).find? (·.name = reference.name) = some reference

theorem Rule.mem_references_iff {rule : Rule} {reference : Ident} :
    reference ∈ rule.references ↔ rule.RefersFirst reference := by
  rw [Rule.RefersFirst, Rule.references, List.mem_filterMap]
  constructor
  · rintro ⟨name, -, hFound⟩
    obtain rfl : reference.name = name := by simpa using List.find?_some hFound
    exact hFound
  · intro hFound
    refine ⟨reference.name, ?_, hFound⟩
    exact LabelSet.mem_ofList.2 (List.mem_map_of_mem (List.mem_of_find?_eq_some hFound))

/-- Where a function finds something for some members of a list, what it finds stands in the order
of the list. -/
theorem sublist_map_filterMap {α β : Type} {f : α → Option β} {g : β → α}
    (h : ∀ x y, f x = some y → g y = x) (xs : List α) : ((xs.filterMap f).map g).Sublist xs := by
  induction xs with
  | nil => exact .slnil
  | cons x xs ih =>
    cases hx : f x with
    | none =>
      rw [List.filterMap_cons_none hx]
      exact ih.cons x
    | some y =>
      rw [List.filterMap_cons_some hx, List.map_cons, h x y hx]
      exact ih.cons_cons x

/-- Each attribute to which a rule refers is listed once. -/
theorem Rule.nodup_references (rule : Rule) : (rule.references.map Ident.name).Nodup := by
  have hSublist : (rule.references.map Ident.name).Sublist _ :=
    sublist_map_filterMap (fun name reference hFound => by simpa using List.find?_some hFound) _
  apply hSublist.nodup
  exact (LabelSet.sorted _).imp LabelSet.ne_of_lt

namespace Rules

/-- The references of a grammar, by rule and then by name. -/
def referenced (rules : Rules) : List (Nat × Ident) :=
  rules.zipIdx.flatMap fun (rule, index) => rule.references.map (index, ·)

/-- What is reported about a reference. -/
def reported (reference : Ident) : Except Problem ScopeResolution → Option Diagnostic
  | .ok _ => none
  | .error problem => some ⟨reference.span, problem⟩

/-- The meaning of a reference, or why it has none. -/
def meaning (rules : Rules) (entry : Nat × Ident) : Except Problem ScopeResolution :=
  rules.resolve rules.callGraph entry.1 entry.2.name

variable {rules : Rules} {index : Nat} {reference : Ident} {entry : Nat × Ident}

theorem mem_referenced_iff : (index, reference) ∈ rules.referenced ↔
    ∃ rule, rules[index]? = some rule ∧ rule.RefersFirst reference := by
  rw [referenced, List.mem_flatMap]
  constructor
  · rintro ⟨⟨rule, other⟩, hRule, hMem⟩
    obtain ⟨first, hFirst, hSame⟩ := List.mem_map.1 hMem
    obtain ⟨rfl, rfl⟩ := Prod.mk.inj hSame
    exact ⟨rule, List.mem_zipIdx_iff_getElem?.1 hRule, Rule.mem_references_iff.1 hFirst⟩
  · rintro ⟨rule, hRule, hFirst⟩
    exact ⟨(rule, index), List.mem_zipIdx_iff_getElem?.2 hRule,
      List.mem_map_of_mem (Rule.mem_references_iff.2 hFirst)⟩

/-- Each attribute to which a rule refers is listed once for the rule. -/
theorem nodup_referenced (rules : Rules) :
    (rules.referenced.map fun entry => (entry.1, entry.2.name)).Nodup := by
  rw [referenced, List.map_flatMap, List.nodup_flatMap]
  constructor
  · rintro ⟨rule, index⟩ -
    have hNames := rule.nodup_references.map (Prod.mk_right_injective index)
    rw [List.map_map] at hNames ⊢
    exact hNames
  · -- the references of two rules differ in the numbers of the rules
    have hNumbers : (rules.zipIdx.map Prod.snd).Nodup := by
      rw [List.zipIdx_map_snd]
      exact List.nodup_range'
    refine (List.pairwise_map.1 hNumbers).imp fun {a b} hNe => ?_
    intro key hLeft hRight
    simp only [List.map_map, List.mem_map, Function.comp_apply] at hLeft hRight
    obtain ⟨_, _, rfl⟩ := hLeft
    obtain ⟨_, _, hSame⟩ := hRight
    exact hNe (Prod.mk.inj hSame).1.symm

/-- What is reported about the references of a grammar. -/
theorem scopeErrors_eq (rules : Rules) :
    rules.scopeErrors =
      rules.referenced.filterMap fun entry => reported entry.2 (rules.meaning entry) := by
  rw [scopeErrors, resolutions, referenced, List.filterMap_flatMap, List.filterMap_flatMap]
  congr 1
  funext entry
  rw [List.filterMap_map, List.filterMap_map]
  congr 1
  funext reference
  simp only [Function.comp_apply, meaning]
  cases rules.resolve rules.callGraph entry.2 reference.name <;> rfl

theorem mem_scopes {resolution : ScopeResolution} (h : entry ∈ rules.referenced)
    (hMeaning : rules.meaning entry = .ok resolution) :
    ⟨entry.1, entry.2.name, resolution⟩ ∈ rules.scopes := by
  obtain ⟨⟨rule, index⟩, hRule, hMem⟩ := List.mem_flatMap.1 h
  obtain ⟨reference, hReference, rfl⟩ := List.mem_map.1 hMem
  refine List.mem_filterMap.2 ⟨_, List.mem_flatMap.2 ⟨(rule, index), hRule,
    List.mem_map_of_mem hReference⟩, ?_⟩
  rw [meaning] at hMeaning
  simp only [hMeaning]
  rfl

/-- What is planned for a reference is its meaning. -/
theorem resolution?_scopes (h : entry ∈ rules.referenced) :
    ScopePlan.resolution? rules.scopes entry.1 entry.2.name = (rules.meaning entry).toOption := by
  rw [ScopePlan.resolution?]
  cases hFound : rules.scopes.find? fun other =>
      other.rule = entry.1 && other.name = entry.2.name with
  | some planned =>
    have hMeaning := resolve_of_mem_scopes (List.mem_of_find?_eq_some hFound)
    have hSame := List.find?_some hFound
    simp only [Bool.and_eq_true, decide_eq_true_eq] at hSame
    rw [hSame.1, hSame.2] at hMeaning
    rw [meaning, hMeaning]
    rfl
  | none =>
    cases hMeaning : rules.meaning entry with
    | error problem => rfl
    | ok resolution =>
      have hNot := List.find?_eq_none.1 hFound _ (mem_scopes h hMeaning)
      simp at hNot

end Rules

/-- What the pass that resolves the references makes of a grammar. Each attribute to which a rule
refers is looked up once. What it means is planned, and if it means nothing, then the reason is
reported at its first reference in the rule. Nothing else is reported or planned. -/
theorem Draft.resolveScopes_exact (draft : Draft) (before : List Diagnostic)
    (hMalformed : draft.isMalformed = false) :
    ∃ (references : List (Nat × Ident))
        (meaning : Nat × Ident → Except Problem ScopeResolution) (scopes : ScopePlan),
      (∀ index reference, (index, reference) ∈ references ↔
        ∃ rule, draft.source.rules[index]? = some rule ∧ rule.RefersFirst reference) ∧
      (references.map fun entry => (entry.1, entry.2.name)).Nodup ∧
      (∀ entry ∈ references, draft.source.rules.Resolves entry.2.name entry.1 (meaning entry)) ∧
      (draft.resolveScopes before).diagnostics =
        before ++ references.filterMap (fun entry => Rules.reported entry.2 (meaning entry)) ∧
      (draft.resolveScopes before).outcome.result? = some { draft with scopes } ∧
      ∀ entry ∈ references,
        scopes.resolution? entry.1 entry.2.name = (meaning entry).toOption := by
  have hRun := draft.resolveScopes_reports hMalformed before
  refine ⟨draft.source.rules.referenced, draft.source.rules.meaning, draft.source.rules.scopes,
    fun index reference => Rules.mem_referenced_iff, Rules.nodup_referenced _, ?_, ?_, ?_,
    fun entry hEntry => Rules.resolution?_scopes hEntry⟩
  · rintro ⟨index, reference⟩ hEntry
    obtain ⟨rule, hRule, -⟩ := Rules.mem_referenced_iff.1 hEntry
    exact Rules.resolves_resolve (List.getElem?_eq_some_iff.1 hRule).1
  · rw [hRun, Rules.scopeErrors_eq]
  · rw [hRun, Partial.result?_judged]

namespace Draft.Sample

/-- The rules `s : t ;` and `t : .? { @x } ;`, neither of which declares the attribute `x`. -/
def undeclared : Draft where
  source :=
    { rules := [{ Sample.caller with attributes := [] }, Sample.callee]
      elements := []
      infos := [] }
  options := {}

/-- The path that is reported leads from the first rule to the second one. -/
theorem resolveScopes_exact_undeclared :
    undeclared.isMalformed = false ∧
      ⟨Sample.place 15, .undeclaredOnPath "x" "t" ["s", "t"]⟩ ∈
        (undeclared.resolveScopes []).diagnostics := by
  have hMalformed : undeclared.isMalformed = false := rfl
  have hFirst : Sample.callee.RefersFirst ⟨"x", Sample.place 15⟩ := by with_unfolding_all rfl
  have hNot : ∀ index ∈ [0, 1], undeclared.source.rules.declares index "x" = false := by decide
  have hEntries : undeclared.source.rules.entries = [0] := by decide
  have hCalls : undeclared.source.rules.Calls 0 1 :=
    ⟨_, _, "t", rfl, List.mem_cons_self, rfl, by decide⟩
  have hMisses : undeclared.source.rules.Misses "x" 1 [0, 1] := by
    refine ⟨?_, ⟨0, by simp [hEntries], rfl⟩, rfl, hNot⟩
    simpa using hCalls
  obtain ⟨references, meaning, -, hReferences, -, hResolves, hReports, -⟩ :=
    undeclared.resolveScopes_exact [] hMalformed
  have hMem := (hReferences 1 _).2 ⟨_, rfl, hFirst⟩
  obtain ⟨path, ⟨-, ⟨entry, hEntry, hHead⟩, hLast, -⟩, hShortest, hMeaning⟩ :=
    (hResolves _ hMem).missed (hNot 1 (by simp)) ⟨_, hMisses⟩
  -- the path starts with the only entry, ends with the rule `t`, and has at most two rules
  obtain rfl : path = [0, 1] := by
    have hLength : path.length ≤ 2 := hShortest _ hMisses
    simp only [hEntries, List.mem_singleton] at hEntry
    subst hEntry
    rcases path with _ | ⟨first, _ | ⟨second, _ | ⟨_, _⟩⟩⟩
    · simp at hHead
    · simp_all
    · simp_all
    · simp at hLength
  refine ⟨hMalformed, ?_⟩
  rw [hReports, List.nil_append]
  refine List.mem_filterMap.2 ⟨_, hMem, ?_⟩
  rw [hMeaning]
  rfl

end Draft.Sample

end TreeGrammar
