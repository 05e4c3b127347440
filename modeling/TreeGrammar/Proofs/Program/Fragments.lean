import TreeGrammar.Proofs.Program.Compilation

/-!
# Code that steps bind

Where the steps of a rule are built, the references in its code are bound to the variants that may
hold their attributes. The scopes of a grammar are made for the code that another traversal of the
rule collects. Both agree: the code in the steps is the code of the rule, each piece once, and each
piece is bound to the attributes to which it refers.

## Main definitions

* `Grammar.BindsCode`: what steps bind for the code of a rule

## Main results

* `Grammar.Checked.bindsCode`: the steps of a checked grammar bind the code of its rules
* `bound_perm_fragments`: each reference that is bound has a meaning, and none is reported
-/

namespace TreeGrammar

/-- The names of the attributes that are bound for a piece of code. -/
def BoundFragment.names (code : BoundFragment) : List String := code.accesses.map (·.name)

/-- The steps of a procedure bind the code of its rule. -/
structure Grammar.BindsCode (grammar : Grammar) (index : Nat) (rule : Rule) (steps : List Step) :
    Prop where
  /-- The code in the steps is that of the rule, each piece once, and the attributes that are bound
  for a piece are those to which it refers. -/
  perm : ((Step.listFragments steps).map fun code => (code.source, code.names)).Perm
    (rule.fragments.map fun code => (code, code.attributeNames))
  /-- Each reference in this code has an entry in the scopes with rules that declare the attribute,
  and is bound to the variants of these rules. -/
  resolved : ∀ code ∈ Step.listFragments steps, ∀ reference ∈ code.source.references,
    ∃ resolution access, grammar.scopes.resolution? index reference.name = some resolution ∧
      resolution.declaring ≠ [] ∧ access ∈ code.accesses ∧ access.name = reference.name ∧
      access.variants = (resolution.declaring.filterMap fun declarer =>
        grammar.rules.scopeNames[declarer]?.join) ∧ access.variants ≠ []

theorem BuildContext.names_bind (context : BuildContext) (code : Fragment) :
    (context.bind code).names = code.attributeNames :=
  (List.map_map ..).trans (List.map_id _)

namespace Grammar

variable {grammar : Grammar}

/-- The steps of the procedures of a checked grammar bind the code of the rules. -/
theorem Checked.bindsCode (h : grammar.Checked) {index : Nat} {rule : Rule}
    (hRule : grammar.rules[index]? = some rule) :
    grammar.BindsCode index rule (rule.steps (grammar.context index)) := by
  have hBuilt := h.built hRule
  refine ⟨?perm, fun bound hBound reference hReference => ?resolved⟩
  case perm =>
    have hNames := hBuilt.perm_fragments.map fun code : BoundFragment => (code.source, code.names)
    simpa only [List.map_map, Function.comp_def, BuildContext.source_bind,
      BuildContext.names_bind] using hNames
  case resolved =>
    obtain ⟨code, hCode, rfl⟩ := hBuilt.exists_fragment hBound
    have hName : reference.name ∈ code.attributeNames :=
      List.mem_eraseDups.2 (List.mem_map_of_mem hReference)
    -- scopes are resolved for the first reference of a rule to an attribute only
    obtain ⟨first, hFirst, hSame⟩ := Rule.exists_reference hCode hName
    obtain ⟨resolution, hResolution, hResolve⟩ := h.resolution hRule hFirst
    obtain ⟨declarer, hMem, -⟩ := Rules.exists_declaring_of_resolve hResolve
    have hVariants := h.variants_ne_nil hRule hFirst
    rw [hSame] at hResolution hVariants
    exact ⟨resolution, (grammar.context index).access reference.name, hResolution,
      List.ne_nil_of_mem hMem, List.mem_map_of_mem hName, rfl, variants_access hResolution,
      hVariants⟩

end Grammar

/-- Where code is generated for a rule of an accepted grammar, the code whose references are bound is
the code that the scopes of the grammar are made for, each piece once. So each reference that is
bound has a meaning, and rules that declare the attribute; and none is reported as unreachable. -/
theorem bound_perm_fragments {source : List Char} {options : Options} {grammar : Grammar}
    (hAccepted : (analyse source options).accepted? = some grammar) :
    (∀ (index : Nat) (rule : Rule), grammar.rules[index]? = some rule →
      ∃ procedure, grammar.program.procedures[index]? = some procedure ∧
        grammar.BindsCode index rule procedure.steps) ∧
    ∀ report ∈ grammar.codeReports, report.problem.kind ≠ .unreachableAttribute := by
  have hChecked := Grammar.checked_of_accepted hAccepted
  refine ⟨fun index rule hRule => ?_, fun report hReport => ?_⟩
  · refine ⟨grammar.procedure index rule, ?_, hChecked.bindsCode hRule⟩
    rw [Grammar.getElem?_procedures, hRule, Option.map_some]
  · rw [Grammar.codeReports_eq_lexicalErrors hChecked (Grammar.legible_of_accepted hAccepted)]
      at hReport
    rw [Grammar.kind_lexicalErrors report hReport]
    decide

namespace Sample

/-- The code of the small grammar is bound once. -/
theorem bound_perm_fragments_sample :
    ∃ grammar : Grammar, (analyse source {}).accepted? = some grammar ∧
      (∃ procedure, grammar.program.procedures[1]? = some procedure ∧
        grammar.BindsCode 1 callee procedure.steps ∧
        (Step.listFragments procedure.steps).map (fun code => (code.source, code.names)) =
          [(code, ["x"])]) ∧
      ∀ report ∈ grammar.codeReports, report.problem.kind ≠ .unreachableAttribute := by
  obtain ⟨hRules, hReports⟩ := TreeGrammar.bound_perm_fragments accepted
  obtain ⟨procedure, hProcedure, hBinds⟩ := hRules 1 callee rfl
  refine ⟨grammar, accepted, ⟨procedure, hProcedure, hBinds, ?_⟩, hReports⟩
  obtain rfl : grammar.procedure 1 callee = procedure := Option.some.inj hProcedure
  decide +kernel

end Sample

end TreeGrammar
