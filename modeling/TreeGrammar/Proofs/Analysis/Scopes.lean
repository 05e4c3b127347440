import Mathlib.Tactic.ByContra
import TreeGrammar.Program.Binding
import TreeGrammar.Proofs.Analysis.Accepted
import TreeGrammar.Proofs.Grammar.Reachability

/-!
# Attributes along chains of calls

The scope of a reference is found by a search in the graph of calls. Here it is compared with every
single chain of calls: if the reference has a meaning, then each chain from the start of a walk to
the rule of the reference has a rule that declares the attribute, the innermost one is among the
rules that the reference may mean, and its declaration has the type that is recorded.

## Main definitions

* `Rules.CallChain`: a chain of calls from the start of a walk
* `Rules.Innermost`: the innermost declaration of an attribute along a chain

## Main results

* `Rules.exists_innermost_of_resolve`: the meaning of a reference along a chain
* `Grammar.Checked.resolution`: the references of a checked grammar have a meaning
-/

namespace TreeGrammar

/-- Chains of calls that start with the rule `entry`, the last rule that is called first. -/
inductive Rules.CallChain (rules : Rules) (entry : Nat) : List Nat → Prop where
  | start : Rules.CallChain rules entry [entry]
  | call {caller callee : Nat} {callers : List Nat}
      (hCallers : Rules.CallChain rules entry (caller :: callers))
      (hCall : callee ∈ rules.callGraph.callees caller) :
      Rules.CallChain rules entry (callee :: caller :: callers)

/-- Along a chain of calls, the last rule that declares an attribute is `declarer`, which has been
called along the chain `outer`. -/
def Rules.Innermost (rules : Rules) (name : String) (chain : List Nat) (declarer : Nat)
    (outer : List Nat) : Prop :=
  ∃ inner, chain = inner ++ declarer :: outer ∧ rules.declares declarer name ∧
    ∀ rule ∈ inner, ¬ rules.declares rule name

namespace Rules

variable {rules : Rules} {name : String}

theorem size_callGraph : rules.callGraph.size = rules.length :=
  List.length_map _

/-- A chain of rules has an innermost rule that declares an attribute, or none of them does. -/
theorem exists_innermost (name : String) (chain : List Nat) :
    (∃ declarer outer, rules.Innermost name chain declarer outer) ∨
      ∀ rule ∈ chain, ¬ rules.declares rule name := by
  induction chain with
  | nil => exact .inr nofun
  | cons rule callers ih =>
    by_cases hDeclares : rules.declares rule name
    · exact .inl ⟨rule, callers, [], rfl, hDeclares, nofun⟩
    · rcases ih with ⟨declarer, outer, inner, rfl, hOuter, hInner⟩ | hNone
      · exact .inl ⟨declarer, outer, rule :: inner, rfl, hOuter,
          List.forall_mem_cons.2 ⟨hDeclares, hInner⟩⟩
      · exact .inr (List.forall_mem_cons.2 ⟨hDeclares, hNone⟩)

namespace CallChain

variable {entry rule : Nat} {callers : List Nat}

/-- A call leads to a rule of the grammar. -/
theorem lt_length_of_mem_callees {caller callee : Nat}
    (h : callee ∈ rules.callGraph.callees caller) : callee < rules.length := by
  rw [CallGraph.callees, callGraph, List.getElem?_map] at h
  cases hRule : rules[caller]? with
  | none =>
    rw [hRule] at h
    exact absurd h List.not_mem_nil
  | some rule =>
    rw [hRule] at h
    exact List.mem_range.1 (List.mem_filter.1 h).1

theorem lt_length (h : rules.CallChain entry (rule :: callers)) (hEntry : entry < rules.length) :
    rule < rules.length := by
  cases h with
  | start => exact hEntry
  | call _ hCall => exact lt_length_of_mem_callees hCall

/-- If no rule along a chain declares an attribute, then the search from the start of walks finds
the last rule without passing a rule that does. -/
theorem mem_paths (h : rules.CallChain entry (rule :: callers)) (hEntry : entry ∈ rules.entries)
    (hNone : ∀ other ∈ rule :: callers, ¬ rules.declares other name) (target : Nat) :
    rule ∈ CallGraph.ends (CallGraph.paths rules.callGraph.callees
      (rules.callGraph.nodes.filter fun other => !rules.declares other name || other = target)
      rules.entries) := by
  -- the search passes all rules that do not declare the attribute
  have hAllowed : ∀ other < rules.length, ¬ rules.declares other name →
      other ∈ rules.callGraph.nodes.filter
        fun other => !rules.declares other name || other = target := by
    intro other hLt hNot
    refine List.mem_filter.2 ⟨CallGraph.mem_nodes.2 (size_callGraph ▸ hLt), ?_⟩
    simp [hNot]
  have hLength := lt_length_of_mem_entries hEntry
  -- the induction is on the chain, whose last rule is not a variable yet
  generalize hChain : rule :: callers = chain at h
  induction h generalizing rule callers with
  | start =>
    obtain ⟨rfl, rfl⟩ := List.cons.inj hChain
    exact CallGraph.root_mem_paths hEntry (hAllowed _ hLength (hNone _ List.mem_cons_self))
  | @call caller callee outer hCallers hCall ih =>
    obtain ⟨rfl, rfl⟩ := List.cons.inj hChain
    have hCaller := ih (fun other hOther => hNone other (List.mem_cons_of_mem _ hOther)) rfl
    exact CallGraph.paths_closed hCaller hCall
      (hAllowed _ (lt_length_of_mem_callees hCall) (hNone _ List.mem_cons_self))

end CallChain

/-- The rules that the search for the nearest declarations of an attribute meets: those to which
calls lead back from a rule through rules that do not declare it. -/
def inside (rules : Rules) (rule : Nat) (name : String) : List Nat :=
  CallGraph.ends (CallGraph.paths rules.callGraph.callers
    (rules.callGraph.nodes.filter fun other => !rules.declares other name) [rule])

theorem mem_undeclaring {rule : Nat} (hRule : rule < rules.length)
    (h : ¬ rules.declares rule name) :
    rule ∈ rules.callGraph.nodes.filter fun other => !rules.declares other name := by
  refine List.mem_filter.2 ⟨CallGraph.mem_nodes.2 (size_callGraph ▸ hRule), ?_⟩
  simp [h]

/-- The search passes along a chain, up to a rule that is called by one that declares the
attribute. -/
theorem exists_inside_of_chain {entry rule first declarer : Nat} {inner outer : List Nat}
    (hChain : rules.CallChain entry (first :: inner ++ declarer :: outer))
    (hInner : ∀ other ∈ inner, ¬ rules.declares other name) (hFirst : first ∈ rules.inside rule name) :
    ∃ last ∈ rules.inside rule name, last ∈ rules.callGraph.callees declarer := by
  induction inner generalizing first with
  | nil =>
    cases hChain with
    | call _ hCall => exact ⟨first, hFirst, hCall⟩
  | cons second inner ih =>
    obtain ⟨hSecond, hInner⟩ := List.forall_mem_cons.1 hInner
    cases hChain with
    | call hCallers hCall =>
      have hLength : second < rules.length :=
        size_callGraph ▸ CallGraph.lt_size_of_mem_callees hCall
      -- the search goes from a rule back to its callers
      have hNext : second ∈ rules.inside rule name :=
        CallGraph.paths_closed hFirst (CallGraph.mem_callers.2 hCall)
          (mem_undeclaring hLength hSecond)
      exact ih hCallers hInner hNext

/-- Where rules that do not declare an attribute have been called by one that does, this one is
among the nearest rules that declare it. -/
theorem mem_nearestDeclaring {entry rule declarer : Nat} {inner outer : List Nat}
    (hChain : rules.CallChain entry (rule :: inner ++ declarer :: outer))
    (hRule : rule < rules.length) (hDeclarer : rules.declares declarer name)
    (hInner : ∀ other ∈ rule :: inner, ¬ rules.declares other name) :
    declarer ∈ rules.nearestDeclaring rules.callGraph rule name := by
  obtain ⟨hThis, hOthers⟩ := List.forall_mem_cons.1 hInner
  have hStart : rule ∈ rules.inside rule name :=
    CallGraph.root_mem_paths (List.mem_singleton_self rule) (mem_undeclaring hRule hThis)
  obtain ⟨last, hLast, hCall⟩ := exists_inside_of_chain hChain hOthers hStart
  refine List.mem_filter.2 ⟨CallGraph.mem_nodes.2 (CallGraph.lt_size_of_mem_callees hCall), ?_⟩
  rw [Bool.and_eq_true]
  have hCaller := CallGraph.mem_callers.2 hCall
  exact ⟨hDeclarer, List.any_eq_true.2 ⟨last, hLast, decide_eq_true hCaller⟩⟩

theorem mem_nearestDeclaring_of_innermost {entry rule declarer : Nat} {callers outer : List Nat}
    (hChain : rules.CallChain entry (rule :: callers)) (hRule : rule < rules.length)
    (hNot : ¬ rules.declares rule name)
    (h : rules.Innermost name (rule :: callers) declarer outer) :
    declarer ∈ rules.nearestDeclaring rules.callGraph rule name := by
  obtain ⟨inner, hSplit, hDeclarer, hInner⟩ := h
  -- the rule itself does not declare the attribute, so that another one is the innermost
  cases inner with
  | nil =>
    obtain ⟨rfl, -⟩ := List.cons.inj hSplit
    exact absurd hDeclarer hNot
  | cons first inner =>
    obtain ⟨rfl, rfl⟩ := List.cons.inj hSplit
    exact mem_nearestDeclaring hChain hRule hDeclarer hInner

theorem declares_of_mem_nearestDeclaring {rule declarer : Nat}
    (h : declarer ∈ rules.nearestDeclaring rules.callGraph rule name) :
    rules.declares declarer name := by
  obtain ⟨-, h⟩ := List.mem_filter.1 h
  exact (Bool.and_eq_true_iff.1 h).1

theorem exists_attribute_of_declares {rule : Nat} (h : rules.declares rule name) :
    ∃ definition attr, rules[rule]? = some definition ∧ definition.attribute? name = some attr := by
  rw [declares, Option.any_eq_true] at h
  obtain ⟨definition, hDefinition, hDeclares⟩ := h
  obtain ⟨attr, hAttr⟩ := Option.isSome_iff_exists.1 hDeclares
  exact ⟨definition, attr, hDefinition, hAttr⟩

theorem declares_of_attribute {rule : Nat} {attr : Attribute}
    (h : rules[rule]?.bind (·.attribute? name) = some attr) : rules.declares rule name := by
  obtain ⟨definition, hDefinition, hAttr⟩ := Option.bind_eq_some_iff.1 h
  rw [declares, hDefinition]
  exact Option.isSome_of_eq_some hAttr

/-- The rules of a list that declare an attribute have their declarations listed. -/
theorem mem_declarations {rule : Nat} {declaring : List Nat} {attr : Attribute}
    (hMem : rule ∈ declaring) (hAttr : rules[rule]?.bind (·.attribute? name) = some attr) :
    ∃ declaration ∈ rules.declarations declaring name, declaration.type = attr.typeText := by
  obtain ⟨definition, hDefinition, hAttr⟩ := Option.bind_eq_some_iff.1 hAttr
  refine ⟨⟨attr.name.span, attr.typeText, definition.name.name⟩, ?_, rfl⟩
  refine List.mem_filterMap.2 ⟨rule, hMem, ?_⟩
  rw [hDefinition, Option.bind_some, hAttr]
  rfl

/-- The meaning of a reference along a chain of calls to its rule: the innermost declaration is one
of those that the reference may mean, and it has the type that all of them have. -/
theorem exists_innermost_of_resolve {entry rule : Nat} {callers : List Nat}
    {resolution : ScopeResolution} (h : rules.resolve rules.callGraph rule name = .ok resolution)
    (hEntry : entry ∈ rules.entries) (hChain : rules.CallChain entry (rule :: callers)) :
    (∃ declarer outer attr, rules.Innermost name (rule :: callers) declarer outer ∧
      declarer ∈ resolution.declaring ∧ rules[declarer]?.bind (·.attribute? name) = some attr ∧
      attr.typeText = resolution.type) ∧
    ∀ other ∈ resolution.declaring, rules.declares other name := by
  rw [resolve] at h
  split at h
  · next attr hAttr =>
    obtain rfl := Except.ok.inj h
    -- the rule declares the attribute itself
    have hDeclares := declares_of_attribute hAttr
    refine ⟨⟨rule, callers, attr, ⟨[], rfl, hDeclares, fun _ hMem => absurd hMem List.not_mem_nil⟩,
      List.mem_singleton_self rule, hAttr, rfl⟩, fun other hOther => ?_⟩
    exact List.mem_singleton.1 hOther ▸ hDeclares
  · next hNone =>
    have hThis : ¬ rules.declares rule name := by
      intro hDeclares
      obtain ⟨definition, attr, hDefinition, hAttr⟩ := exists_attribute_of_declares hDeclares
      rw [hDefinition, Option.bind_some, hAttr] at hNone
      cases hNone
    split at h
    · cases h
    · next hPath =>
      dsimp only at h
      split at h
      · cases h
      · next first others hDeclarations =>
        split at h
        case isFalse => cases h
        case isTrue hAgree =>
          obtain rfl := Except.ok.inj h
          refine ⟨?_, fun other => declares_of_mem_nearestDeclaring⟩
          -- the search from the start of walks would have found a chain without declarations
          rcases exists_innermost name (rule :: callers) with ⟨declarer, outer, hInnermost⟩ | hNot
          case inr =>
            exact absurd (hChain.mem_paths hEntry hNot rule) (CallGraph.not_mem_paths_of_path? hPath)
          have hDeclarer := mem_nearestDeclaring_of_innermost hChain
            (hChain.lt_length (lt_length_of_mem_entries hEntry)) hThis hInnermost
          obtain ⟨definition, attr, hDefinition, hAttr⟩ :=
            exists_attribute_of_declares (declares_of_mem_nearestDeclaring hDeclarer)
          have hAttr : rules[declarer]?.bind (·.attribute? name) = some attr := by
            rw [hDefinition, Option.bind_some, hAttr]
          obtain ⟨declaration, hMem, hType⟩ := mem_declarations hDeclarer hAttr
          refine ⟨declarer, outer, attr, hInnermost, hDeclarer, hAttr, hType.symm.trans ?_⟩
          -- the first declaration gives the type, and the others agree with it
          rw [hDeclarations] at hMem
          rcases List.mem_cons.1 hMem with rfl | hMem
          · rfl
          · exact of_decide_eq_true (List.all_eq_true.1 hAgree declaration hMem)

/-- A reference that has a meaning may mean some declaration. -/
theorem exists_declaring_of_resolve {rule : Nat} {resolution : ScopeResolution}
    (h : rules.resolve rules.callGraph rule name = .ok resolution) :
    ∃ declarer ∈ resolution.declaring, rules.declares declarer name := by
  rw [resolve] at h
  split at h
  · next attr hAttr =>
    obtain rfl := Except.ok.inj h
    exact ⟨rule, List.mem_singleton_self rule, declares_of_attribute hAttr⟩
  · split at h
    · cases h
    · dsimp only at h
      split at h
      · cases h
      · next first others hDeclarations =>
        split at h
        case isFalse => cases h
        case isTrue =>
          obtain rfl := Except.ok.inj h
          -- the first declaration is that of one of the rules
          have hFirst : first ∈ rules.declarations (rules.nearestDeclaring rules.callGraph rule name)
              name := hDeclarations ▸ List.mem_cons_self
          obtain ⟨declarer, hDeclarer, -⟩ := List.mem_filterMap.1 hFirst
          exact ⟨declarer, hDeclarer, declares_of_mem_nearestDeclaring hDeclarer⟩

end Rules

/-! ### The references of a grammar -/

/-- The attributes to which the code of a rule refers are those of its references. -/
theorem Rule.exists_reference {rule : Rule} {code : Fragment} {name : String}
    (hCode : code ∈ rule.fragments) (hName : name ∈ code.attributeNames) :
    ∃ reference ∈ rule.references, reference.name = name := by
  rw [Fragment.attributeNames, List.mem_eraseDups] at hName
  obtain ⟨ident, hIdent, rfl⟩ := List.mem_map.1 hName
  have hAll : ident ∈ rule.fragments.flatMap Fragment.references :=
    List.mem_flatMap.2 ⟨code, hCode, hIdent⟩
  -- the first reference with this name stands for all of them
  have hFound : ((rule.fragments.flatMap Fragment.references).find?
      (·.name = ident.name)).isSome := by
    rw [List.find?_isSome]
    exact ⟨ident, hAll, decide_eq_true rfl⟩
  obtain ⟨reference, hReference⟩ := Option.isSome_iff_exists.1 hFound
  refine ⟨reference, List.mem_filterMap.2 ⟨ident.name, ?_, hReference⟩, ?_⟩
  · exact LabelSet.mem_ofList.2 (List.mem_map_of_mem hAll)
  · simpa using List.find?_some hReference

namespace Rules

variable {rules : Rules}

/-- What stands in the plan of scopes is the meaning of a reference. -/
theorem resolve_of_mem_scopes {entry : ScopeEntry} (h : entry ∈ rules.scopes) :
    rules.resolve rules.callGraph entry.rule entry.name = .ok entry.resolution := by
  obtain ⟨result, hMem, hResult⟩ := List.mem_filterMap.1 h
  obtain ⟨⟨rule, index⟩, -, hReferences⟩ := List.mem_flatMap.1 hMem
  obtain ⟨reference, -, rfl⟩ := List.mem_map.1 hReferences
  split at hResult
  · next resolution hResolve =>
    obtain rfl := Option.some.inj hResult
    exact hResolve
  · cases hResult

/-- If no reference is in error, then each one has a meaning, which stands in the plan. -/
theorem exists_mem_scopes (h : rules.scopeErrors = []) {index : Nat} {rule : Rule}
    (hRule : rules[index]? = some rule) {reference : Ident} (hReference : reference ∈ rule.references) :
    ∃ resolution, ⟨index, reference.name, resolution⟩ ∈ rules.scopes := by
  have hMem : _ ∈ rules.resolutions :=
    List.mem_flatMap.2 ⟨(rule, index), List.mem_zipIdx_iff_getElem?.2 hRule,
      List.mem_map.2 ⟨reference, hReference, rfl⟩⟩
  have hNone := List.filterMap_eq_nil_iff.1 h _ hMem
  cases hResolve : rules.resolve rules.callGraph index reference.name with
  | ok resolution =>
    refine ⟨resolution, List.mem_filterMap.2 ⟨_, hMem, ?_⟩⟩
    simp only [hResolve]
    rfl
  | error problem =>
    simp only [hResolve] at hNone
    cases hNone

end Rules

namespace Grammar

variable {grammar : Grammar}

/-- The references of a checked grammar have a meaning, which is found in the plan. -/
theorem Checked.resolution (h : grammar.Checked) {index : Nat} {rule : Rule}
    (hRule : grammar.rules[index]? = some rule) {reference : Ident}
    (hReference : reference ∈ rule.references) :
    ∃ resolution, grammar.scopes.resolution? index reference.name = some resolution ∧
      grammar.rules.resolve grammar.rules.callGraph index reference.name = .ok resolution := by
  obtain ⟨resolution, hMem⟩ := Rules.exists_mem_scopes h.scopeErrors hRule hReference
  have hFound : (grammar.rules.scopes.find? fun entry =>
      entry.rule = index && entry.name = reference.name).isSome := by
    rw [List.find?_isSome]
    exact ⟨_, hMem, by simp⟩
  obtain ⟨entry, hEntry⟩ := Option.isSome_iff_exists.1 hFound
  -- the plan may hold several entries for the name, all with the same meaning
  have hSame := List.find?_some hEntry
  simp only [Bool.and_eq_true, decide_eq_true_eq] at hSame
  refine ⟨entry.resolution, ?_, ?_⟩
  · rw [h.scopes, ScopePlan.resolution?, hEntry]
    rfl
  · rw [← hSame.1, ← hSame.2]
    exact Rules.resolve_of_mem_scopes (List.mem_of_find?_eq_some hEntry)

end Grammar

end TreeGrammar
