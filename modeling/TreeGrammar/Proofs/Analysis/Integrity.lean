import TreeGrammar.Proofs.Analysis.Accepted

/-!
# Integrity of grammars

The elements of a grammar refer to each other by numbers, and its rules, tokens and attributes by
names. Whatever text is read, even one with syntax errors, all numbers are those of elements, and no
element is referred to twice, so that everything that follows the numbers ends. If the analysis
accepts the text, then the names have a unique meaning, too.

## Main definitions

* `SourceGrammar.IsLinked`: the numbers of elements make up a forest
* `Grammar.IsResolved`: the names of a grammar have a unique meaning

## Main results

* `SourceGrammar.isLinked_parse`: what is read of a text is linked
* `Grammar.isResolved_of_accepted`: the names of an accepted grammar are resolved
* `grammar_integrity`: both together
-/

namespace TreeGrammar

/-! ### Numbers -/

/-- The elements of a grammar, each with its number and its note, refer to each other as in a
forest. The elements of malformed rules are among them. -/
structure SourceGrammar.IsLinked (grammar : SourceGrammar) : Prop where
  /-- There are as many notes as elements. -/
  infos : grammar.infos.length = grammar.elements.length
  /-- The number of an element is its place. -/
  ids : grammar.elements.map Expr.id = List.range grammar.elements.length
  /-- The numbers that an element holds are those of elements in front of it. -/
  held : ∀ expr ∈ grammar.elements, ∀ other ∈ expr.held,
    other.id < expr.id ∧ grammar.elements[other.id]? = some other
  /-- The numbers that a rule holds are those of elements. -/
  roots : ∀ expr ∈ grammar.rules.roots, grammar.elements[expr.id]? = some expr
  /-- No element is held twice, by rules and elements together. -/
  references : ((grammar.rules.roots ++ grammar.elements.flatMap Expr.held).map Expr.id).Nodup
  /-- A label belongs to a node, a token, any node or a call. -/
  labels : ∀ (index : Nat) (info : ElementInfo), grammar.infos[index]? = some info →
    info.label.isSome → ∃ expr, grammar.elements[index]? = some expr ∧ expr.isLabelable
  /-- A traversal of some of the rules' elements, or of one element whatever, ends and meets no
  element twice. -/
  traversals : ∀ starts : List Expr,
    (starts.Sublist grammar.rules.roots ∨ ∃ expr ∈ grammar.elements, starts = [expr]) →
    ∃ met, traverse grammar.elements grammar.elements.length (starts.map Expr.id) = some met ∧
      met.Nodup

theorem SourceGrammar.WellNumbered.isLinked {grammar : SourceGrammar} (h : grammar.WellNumbered) :
    grammar.IsLinked := by
  obtain ⟨trees, hForest, hRoots⟩ := h.forest
  refine ⟨?infos, hForest.ids, ?held, ?roots, ?references, ?labels, ?traversals⟩
  case infos => rw [h.infos, List.length_map]
  case held =>
    intro expr hExpr other hOther
    obtain ⟨hMem, hLess⟩ := hForest.held hExpr hOther
    exact ⟨hLess, hForest.getElem?_id hMem⟩
  case roots =>
    intro expr hExpr
    exact hForest.getElem?_id (hForest.mem_of_mem_trees (hRoots.subset hExpr))
  case references =>
    -- some of the trees may belong to rules that have been left out
    have hSublist := (hRoots.append_right (grammar.elements.flatMap Expr.held)).map Expr.id
    exact hForest.nodup_references.sublist hSublist
  case labels =>
    intro index info hInfo hLabel
    rw [h.infos, List.getElem?_map] at hInfo
    obtain ⟨expr, hExpr, rfl⟩ := Option.map_eq_some_iff.1 hInfo
    exact ⟨expr, hExpr, Expr.isLabelable_of_label hLabel⟩
  case traversals =>
    rintro starts (hStarts | ⟨expr, hExpr, rfl⟩)
    · exact hForest.traverse (hForest.sublist_of_trees (hStarts.trans hRoots))
    · refine hForest.traverse ?_
      rw [Expr.postorderList_singleton]
      exact hForest.postorder_sublist hExpr

/-- The elements that are read of a text are linked. -/
theorem SourceGrammar.isLinked_parse (source : List Char) : (parse source).2.IsLinked :=
  (wellNumbered_parse source).isLinked

/-! ### Names -/

/-- The label of the nodes that an element matches, if it asks for one. -/
def Expr.nodeLabel? : Expr → Option String
  | node _ _ _ name _ | token _ _ _ name => some name.name
  | wildcard .. | rule .. | subrule .. | action .. | predicate .. => none

/-- The names of a grammar have a unique meaning. -/
structure Grammar.IsResolved (grammar : Grammar) : Prop where
  rules : (grammar.rules.map fun rule => rule.name.name).Nodup
  attributes : ∀ rule ∈ grammar.rules, (rule.attributes.map fun attr => attr.name.name).Nodup
  /-- The return value of a rule has a name of its own. -/
  returns : ∀ rule ∈ grammar.rules, ∀ value ∈ rule.returns, ∀ attr ∈ rule.attributes,
    attr.name.name ≠ value.name.name
  /-- A call names exactly one rule. -/
  calls : ∀ expr ∈ grammar.rules.exprs, ∀ name, expr.called? = some name →
    ∃! index : Nat, ∃ rule : Rule, grammar.rules[index]? = some rule ∧ rule.name.name = name
  /-- The labels of nodes are declared. -/
  tokens : ∀ expr ∈ grammar.rules.exprs, ∀ name, expr.nodeLabel? = some name →
    ∃ token ∈ grammar.tokens, token.name = name

namespace Rules

variable {rules : Rules}

/-- If no return value clashes, then it differs from all attributes. -/
theorem name_ne_of_repetitionErrors_eq_nil (h : rules.repetitionErrors = []) {rule : Rule}
    (hRule : rule ∈ rules) {value attr : Attribute} (hValue : value ∈ rule.returns)
    (hAttr : attr ∈ rule.attributes) : attr.name.name ≠ value.name.name := by
  intro hName
  obtain ⟨hRules, hOthers⟩ := List.append_eq_nil_iff.1 h
  rw [firstOfNames_eq_self (List.map_eq_nil_iff.1 hRules)] at hOthers
  have hErrors := List.flatMap_eq_nil_iff.1 hOthers rule hRule
  have hClash := (List.append_eq_nil_iff.1 hErrors).2
  -- the attribute would be found by the name of the return value
  have hFound : (rule.attribute? value.name.name).isSome :=
    List.find?_isSome.2 ⟨attr, hAttr, decide_eq_true hName⟩
  obtain ⟨found, hFound⟩ := Option.isSome_iff_exists.1 hFound
  rw [Option.mem_def.1 hValue, Option.bind_some, hFound] at hClash
  exact List.cons_ne_nil _ _ hClash

/-- A name that is declared at all is that of exactly one rule, if the names of rules differ. -/
theorem existsUnique_of_index? (hNames : (rules.map fun rule => rule.name.name).Nodup)
    {name : String} {i : Nat} (h : rules.index? name = some i) :
    ∃! index : Nat, ∃ rule : Rule, rules[index]? = some rule ∧ rule.name.name = name := by
  obtain ⟨hi, hName, -⟩ := List.findIdx?_eq_some_iff_getElem.1 h
  refine ⟨i, ⟨rules[i], List.getElem?_eq_getElem hi, of_decide_eq_true hName⟩, ?_⟩
  rintro j ⟨rule, hRule, rfl⟩
  have hj : j < rules.length := (List.getElem?_eq_some_iff.1 hRule).1
  refine (List.getElem?_inj (by simpa using hj) hNames).1 ?_
  rw [List.getElem?_map, List.getElem?_map, hRule, List.getElem?_eq_getElem hi, Option.map_some,
    Option.map_some, of_decide_eq_true hName]

end Rules

namespace Grammar

variable {source : List Char} {options : Options} {grammar : Grammar}

/-- The names of an accepted grammar are resolved. -/
theorem isResolved_of_accepted (h : (analyse source options).accepted? = some grammar) :
    grammar.IsResolved := by
  have hChecked := checked_of_accepted h
  have hText := isAnalysed_of_accepted h
  have hRepetitions := hText.isClean.repetitions
  obtain ⟨-, hAttributes⟩ := Rules.repetitionErrors_eq_nil hRepetitions
  refine ⟨hChecked.names, ?attributes, ?returns, ?calls, ?tokens⟩
  case attributes =>
    intro rule hRule
    exact nodup_of_repetitions_eq_nil (hAttributes rule (hText.rules ▸ hRule))
  case returns =>
    intro rule hRule value hValue attr hAttr
    exact Rules.name_ne_of_repetitionErrors_eq_nil hRepetitions (hText.rules ▸ hRule) hValue hAttr
  case calls =>
    intro expr hExpr name hCalled
    obtain ⟨i, hIndex⟩ := hChecked.calls expr hExpr name hCalled
    exact Rules.existsUnique_of_index? hChecked.names hIndex
  case tokens =>
    intro expr hExpr name hLabel
    have hError := hText.isClean.nameError?_eq_none (hText.rules ▸ hExpr)
    have hDeclared : (SourceGrammar.parse source).2.declaresToken name := by
      by_contra hNot
      cases expr with
      | node | token =>
        obtain rfl := Option.some.inj hLabel
        simp [SourceGrammar.nameError?, hNot] at hError
      | _ => cases hLabel
    obtain ⟨token, hToken, hName⟩ := List.any_eq_true.1 hDeclared
    exact ⟨token, hText.tokens ▸ hToken, of_decide_eq_true hName⟩

end Grammar

/-! ### Numbers and names -/

/-- What is read of any text is linked. If the analysis accepts the text, then moreover the grammar
has no other elements than those of its rules, and all names are resolved. -/
theorem grammar_integrity (source : List Char) (options : Options) :
    (SourceGrammar.parse source).2.IsLinked ∧
      ∀ grammar, (analyse source options).accepted? = some grammar →
        grammar.rules.exprs = (SourceGrammar.parse source).2.elements ∧ grammar.IsResolved := by
  refine ⟨SourceGrammar.isLinked_parse source, fun grammar h => ⟨?_, ?_⟩⟩
  · have hText := Grammar.isAnalysed_of_accepted h
    rw [hText.rules, (SourceGrammar.isWhole_parse hText.errors).elements]
  · exact Grammar.isResolved_of_accepted h

theorem Sample.grammar_integrity_sample :
    (SourceGrammar.parse source).2.IsLinked ∧ grammar.IsResolved :=
  have h := grammar_integrity source {}
  ⟨h.1, (h.2 grammar accepted).2⟩

end TreeGrammar
