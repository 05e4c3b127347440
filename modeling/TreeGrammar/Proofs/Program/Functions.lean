import TreeGrammar.Proofs.Program.Compilation
import TreeGrammar.Proofs.Program.Procedures

/-!
# Names of functions

The module of a grammar has two or three functions for each rule, whose names are made from that of
the rule. The analysis looks at the names of rules one by one, so that a rule may be named as a
function of another one. Then the module declares this name twice.

## Main definitions

* `Procedure.functions`, `Program.functions`: the functions of a module with their names
* `Rules.NamesApart`: no name of a function is made from two rules

## Main results

* `functionNames_nodup_iff`: when the functions of generated code have different names
* `Clash.functionNames_not_nodup`: a grammar whose code declares a name twice
-/

namespace TreeGrammar

open Host (Token)

/-! ### Functions -/

/-- The tokens declare a function of the given name. -/
def Host.Token.Declares (name : String) (tokens : List Token) : Prop :=
  ∃ visibility rest, tokens = visibility ++ phrase "fn" ++ [.word name] ++ rest

/-- The functions of a rule, each with its name. -/
def Procedure.functions (procedure : Procedure) : List (String × List Token) :=
  [(procedure.name, procedure.entering), (procedure.alternativesName, procedure.alternatives)] ++
    if procedure.isEntry then [(procedure.walkName, procedure.walk)] else []

/-- The functions of a program, each with its name. -/
def Program.functions (program : Program) : List (String × List Token) :=
  program.procedures.flatMap Procedure.functions

/-- The names of the functions of a program. -/
def Program.functionNames (program : Program) : List String := program.functions.map Prod.fst

theorem Procedure.declares_functions (procedure : Procedure) :
    ∀ function ∈ procedure.functions, Token.Declares function.1 function.2 := by
  refine List.forall_mem_append.2 ⟨List.forall_mem_cons.2 ⟨?entering,
    List.forall_mem_singleton.2 ?alternatives⟩, ?walk⟩
  case entering =>
    rw [entering, List.append_assoc]
    exact ⟨_, _, rfl⟩
  case alternatives =>
    rw [alternatives, List.append_assoc]
    exact ⟨[], _, rfl⟩
  case walk =>
    intro function hFunction
    split at hFunction
    · obtain rfl := List.mem_singleton.1 hFunction
      exact ⟨phrase "pub", _, rfl⟩
    · cases hFunction

/-- The functions of a program end its module. -/
theorem Program.moduleTokens_eq (program : Program) :
    ∃ before, program.moduleTokens = phrase "pub mod" ++
      [.word program.name, .braces (before ++ program.functions.flatMap Prod.snd)] := by
  have hItems : ∀ procedure : Procedure, procedure.items = procedure.functions.flatMap Prod.snd := by
    intro procedure
    rw [Procedure.items, Procedure.functions, List.flatMap_append]
    split <;> simp
  rw [moduleTokens, itemTokens, funext hItems, functions, List.flatMap_assoc]
  exact ⟨_, rfl⟩

/-! ### Names -/

/-- The names that the functions of a program are given for three purposes. -/
theorem Program.functionNames_perm (program : Program) :
    program.functionNames.Perm (program.procedures.map Procedure.name ++
      (program.procedures.map Procedure.alternativesName ++
        (program.procedures.filter Procedure.isEntry).map Procedure.walkName)) := by
  have hNames : program.functionNames = program.procedures.flatMap fun procedure =>
      procedure.name :: procedure.alternativesName ::
        if procedure.isEntry then [procedure.walkName] else [] := by
    rw [functionNames, functions, List.map_flatMap]
    refine congrArg (program.procedures.flatMap ·) (funext fun procedure => ?_)
    rw [Procedure.functions]
    split <;> rfl
  have hWalks : (program.procedures.flatMap fun procedure =>
      if procedure.isEntry then [procedure.walkName] else []) =
        (program.procedures.filter Procedure.isEntry).map Procedure.walkName := by
    induction program.procedures with
    | nil => rfl
    | cons procedure procedures ih =>
      rw [List.flatMap_cons, List.filter_cons, ih]
      split <;> rfl
  rw [hNames, ← hWalks]
  refine (List.map_append_flatMap_perm ..).symm.trans (List.Perm.append_left _ ?_)
  exact (List.map_append_flatMap_perm ..).symm

/-- No name of a function is made from two rules: neither from a rule and its own name, nor from two
entries or alternatives. -/
structure Rules.NamesApart (rules : Rules) : Prop where
  /-- No rule is named as the function for the alternatives of a rule. -/
  alternatives : ∀ rule ∈ rules, ∀ other ∈ rules,
    rule.name.name ≠ other.name.name ++ "_alternatives"
  /-- No rule is named as the function that walks from an entry. -/
  walks : ∀ rule ∈ rules, ∀ entry ∈ rules.entries, rule.name.name ≠ "walk_" ++ rules.nameOf entry
  /-- The function that walks from an entry is not named as one for alternatives. -/
  both : ∀ other ∈ rules, ∀ entry ∈ rules.entries,
    other.name.name ++ "_alternatives" ≠ "walk_" ++ rules.nameOf entry

section Names

variable {grammar : Grammar}

theorem Grammar.map_name_procedures :
    grammar.program.procedures.map Procedure.name =
      grammar.rules.map fun rule => rule.name.name := by
  rw [← map_rule_procedures, List.map_map]
  rfl

theorem Grammar.map_alternativesName_procedures :
    grammar.program.procedures.map Procedure.alternativesName =
      (grammar.rules.map fun rule => rule.name.name).map (· ++ "_alternatives") := by
  rw [← map_name_procedures, List.map_map]
  rfl

/-- Walks start at the entries. -/
theorem Grammar.mem_walkNames {name : String} :
    name ∈ (grammar.program.procedures.filter Procedure.isEntry).map Procedure.walkName ↔
      ∃ entry ∈ grammar.rules.entries, "walk_" ++ grammar.rules.nameOf entry = name := by
  have hName : ∀ {index : Nat} {rule : Rule}, grammar.rules[index]? = some rule →
      grammar.rules.nameOf index = rule.name.name := by
    intro index rule hRule
    rw [Rules.nameOf, hRule]
    rfl
  constructor
  · intro hMem
    obtain ⟨procedure, hProcedure, rfl⟩ := List.mem_map.1 hMem
    obtain ⟨hProcedure, hEntry⟩ := List.mem_filter.1 hProcedure
    obtain ⟨index, hIndex⟩ := List.mem_iff_getElem?.1 hProcedure
    rw [getElem?_procedures] at hIndex
    obtain ⟨rule, hRule, rfl⟩ := Option.map_eq_some_iff.1 hIndex
    exact ⟨index, of_decide_eq_true hEntry, congrArg ("walk_" ++ ·) (hName hRule)⟩
  · rintro ⟨entry, hEntry, rfl⟩
    have hRule : grammar.rules[entry]? = some _ :=
      List.getElem?_eq_getElem (Rules.lt_length_of_mem_entries hEntry)
    have hProcedure := @getElem?_procedures grammar entry
    rw [hRule] at hProcedure
    refine List.mem_map.2 ⟨_, List.mem_filter.2 ⟨List.mem_of_getElem? hProcedure, ?_⟩, ?_⟩
    · exact decide_eq_true hEntry
    · exact congrArg ("walk_" ++ ·) (hName hRule).symm

/-- The functions of a grammar have different names if and only if the names of its rules, which are
different, are apart. -/
theorem Grammar.nodup_functionNames
    (hNames : (grammar.rules.map fun rule => rule.name.name).Nodup) :
    grammar.program.functionNames.Nodup ↔ grammar.rules.NamesApart := by
  -- functions of one kind have different names since the rules do; it remains to compare two kinds
  have hAlternatives : (grammar.program.procedures.map Procedure.alternativesName).Nodup := by
    rw [map_alternativesName_procedures]
    exact hNames.map fun _ _ h => (String.append_left_inj _).1 h
  have hWalks :
      ((grammar.program.procedures.filter Procedure.isEntry).map Procedure.walkName).Nodup := by
    have hAll : (grammar.program.procedures.map Procedure.walkName).Nodup := by
      rw [← map_name_procedures] at hNames
      have hMapped := hNames.map fun _ _ h => (String.append_right_inj "walk_").1 h
      rwa [List.map_map] at hMapped
    exact hAll.sublist (List.filter_sublist.map _)
  rw [grammar.program.functionNames_perm.nodup_iff, List.nodup_append', List.nodup_append',
    map_name_procedures]
  have hMem : ∀ rule ∈ grammar.rules, rule.name.name ∈ grammar.rules.map (·.name.name) :=
    fun rule => List.mem_map_of_mem
  constructor
  case mp =>
    rintro ⟨-, ⟨-, -, hBoth⟩, hFirst⟩
    refine ⟨fun rule hRule other hOther hEq => ?_, fun rule hRule entry hEntry hEq => ?_,
      fun other hOther entry hEntry hEq => ?_⟩
    · refine hFirst (hMem rule hRule) (List.mem_append_left _ ?_)
      rw [map_alternativesName_procedures, hEq]
      exact List.mem_map_of_mem (hMem other hOther)
    · refine hFirst (hMem rule hRule) (List.mem_append_right _ ?_)
      exact mem_walkNames.2 ⟨entry, hEntry, hEq.symm⟩
    · refine hBoth ?_ (mem_walkNames.2 ⟨entry, hEntry, rfl⟩)
      rw [map_alternativesName_procedures, ← hEq]
      exact List.mem_map_of_mem (hMem other hOther)
  case mpr =>
    intro hApart
    refine ⟨hNames, ⟨hAlternatives, hWalks, fun name hLeft hRight => ?_⟩, fun name hLeft hRight => ?_⟩
    · rw [map_alternativesName_procedures, List.map_map] at hLeft
      obtain ⟨other, hOther, rfl⟩ := List.mem_map.1 hLeft
      obtain ⟨entry, hEntry, hEq⟩ := mem_walkNames.1 hRight
      exact hApart.both other hOther entry hEntry hEq.symm
    · obtain ⟨rule, hRule, rfl⟩ := List.mem_map.1 hLeft
      rcases List.mem_append.1 hRight with hRight | hRight
      · rw [map_alternativesName_procedures, List.map_map] at hRight
        obtain ⟨other, hOther, hEq⟩ := List.mem_map.1 hRight
        exact hApart.alternatives rule hRule other hOther hEq.symm
      · obtain ⟨entry, hEntry, hEq⟩ := mem_walkNames.1 hRight
        exact hApart.walks rule hRule entry hEntry hEq.symm

end Names

/-- The code that is generated for a text declares the functions of its rules, each under its name.
These names are different if and only if no rule is named as a function of a rule, and no function
that walks from an entry is named as one for the alternatives of a rule. -/
theorem functionNames_nodup_iff {source : List Char} {options : Options}
    {compilation : Compilation} {code : String}
    (hCompile : compile source options = .ok compilation) (hCode : compilation.code = some code) :
    ∃ grammar before, (analyse source options).accepted? = some grammar ∧
      code = Token.print (phrase "pub mod" ++ [.word grammar.program.name,
        .braces (before ++ grammar.program.functions.flatMap Prod.snd)]) ∧
      (∀ function ∈ grammar.program.functions, Token.Declares function.1 function.2) ∧
      (grammar.program.functionNames.Nodup ↔ grammar.rules.NamesApart) := by
  obtain ⟨grammar, hAccepted, rfl⟩ := exists_accepted_of_code hCompile hCode
  obtain ⟨before, hModule⟩ := grammar.program.moduleTokens_eq
  refine ⟨grammar, before, hAccepted, by rw [hModule], fun function hFunction => ?_,
    Grammar.nodup_functionNames (Grammar.checked_of_accepted hAccepted).names⟩
  obtain ⟨procedure, -, hFunction⟩ := List.mem_flatMap.1 hFunction
  exact procedure.declares_functions function hFunction

/-- The code that is generated for an accepted grammar is the module of its program. -/
theorem code_eq_of_accepted {source : List Char} {options : Options} {grammar : Grammar}
    {compilation : Compilation} {code : String}
    (hAccepted : (analyse source options).accepted? = some grammar)
    (hCompile : compile source options = .ok compilation) (hCode : compilation.code = some code) :
    code = Token.print grammar.program.moduleTokens := by
  obtain ⟨other, hOther, hEq⟩ := exists_accepted_of_code hCompile hCode
  obtain rfl := Option.some.inj (hOther.symm.trans hAccepted)
  exact hEq

/-- Code is generated for an accepted grammar, if its own code can be read. -/
theorem exists_code_of_accepted {source : List Char} {grammar : Grammar}
    (hAccepted : (analyse source {}).accepted? = some grammar)
    (hAnalysed : (analyse source {}).isReadable = true) (hReadable : grammar.isReadable = true)
    (hErrors : grammar.lexicalErrors = [])
    (hVariants : (grammar.program.procedures.filterMap Procedure.variant).find?
      (!isVariantName ·) = none) (hPrint : grammar.options.printCode = .nothing) :
    ∃ compilation, compile source {} = .ok compilation ∧
      compilation.code = some (Token.print grammar.program.moduleTokens) := by
  rw [compile, hAnalysed, hAccepted]
  simp only [Grammar.compile, hVariants, hReadable, hErrors, hPrint, Program.describe]
  exact ⟨_, rfl, rfl⟩

namespace Sample

/-- The functions of the small grammar have different names. -/
theorem functionNames_nodup_iff_sample :
    ∃ compilation code, compile source {} = .ok compilation ∧ compilation.code = some code ∧
      ∃ grammar before, (analyse source {}).accepted? = some grammar ∧
        code = Token.print (phrase "pub mod" ++ [.word grammar.program.name,
          .braces (before ++ grammar.program.functions.flatMap Prod.snd)]) ∧
        (∀ function ∈ grammar.program.functions, Token.Declares function.1 function.2) ∧
        (grammar.program.functionNames.Nodup ↔ grammar.rules.NamesApart) := by
  have hReadable : grammar.isReadable := by decide +kernel
  have hVariants : (grammar.program.procedures.filterMap Procedure.variant).find?
      (!isVariantName ·) = none := by decide +kernel
  obtain ⟨compilation, hCompile, hCode⟩ := exists_code_of_accepted accepted
    isReadable_analyse hReadable lexicalErrors_eq hVariants rfl
  exact ⟨compilation, _, hCompile, hCode, TreeGrammar.functionNames_nodup_iff hCompile hCode⟩

end Sample

/-! ### A name that is declared twice -/

namespace Clash

/-- The text `a:walk_a;walk_a:;`. -/
def source : List Char :=
  ['a', ':', 'w', 'a', 'l', 'k', '_', 'a', ';', 'w', 'a', 'l', 'k', '_', 'a', ':', ';']

/-- The rule `a`, at which walks start. -/
def caller : Rule where
  name := ⟨"a", Sample.place 0⟩
  isPublic := false
  attributes := []
  params := none
  returns := none
  alternatives :=
    [.mk none [.rule 0 (Sample.place 2) none ⟨"walk_a", Sample.place 2⟩ none] (Sample.place 2)]

/-- The rule `walk_a`. -/
def callee : Rule where
  name := ⟨"walk_a", Sample.place 9⟩
  isPublic := false
  attributes := []
  params := none
  returns := none
  alternatives := [.mk none [] (Sample.place 16)]

/-- The rules. -/
def rules : Rules := [caller, callee]

/-- The grammar as it is read. -/
def written : SourceGrammar where
  rules
  elements := rules.exprs
  infos := rules.exprs.map fun expr => ⟨expr.span, none⟩

/-- The grammar that the analysis makes of the text. -/
def grammar : Grammar where
  name := ⟨"tree_grammar", Span.start⟩
  options := {}
  tokens := []
  prelude := []
  rules
  decisions := []
  scopes := []

theorem parse_source : SourceGrammar.parse source = ([], written) := by with_unfolding_all rfl

/-- The grammar is accepted. -/
theorem accepted : (analyse source {}).accepted? = some grammar := by
  have hClean : written.IsClean {} := by decide +kernel
  have hDecisions : rules.decisions rules.first rules.follows = [] := by decide +kernel
  have hScopes : rules.scopes = [] := by decide +kernel
  exact (analyse_of_isClean parse_source rfl hClean hDecisions hScopes).1

theorem isReadable_analyse : (analyse source {}).isReadable := by
  rw [analyse, parse_source]
  simp only [SourceGrammar.analyse]
  decide +kernel

/-- The grammar is accepted and code is generated for it, in which two functions have the name
`walk_a`: the one that walks from `a`, and the one that enters `walk_a`. -/
theorem functionNames_not_nodup :
    ∃ compilation, compile source {} = .ok compilation ∧
      (analyse source {}).accepted? = some grammar ∧
      compilation.code = some (Token.print grammar.program.moduleTokens) ∧
      grammar.program.functionNames =
        ["a", "a_alternatives", "walk_a", "walk_a", "walk_a_alternatives"] ∧
      ¬ grammar.program.functionNames.Nodup := by
  have hReadable : grammar.isReadable := by decide +kernel
  have hErrors : grammar.lexicalErrors = [] := by decide +kernel
  have hVariants : (grammar.program.procedures.filterMap Procedure.variant).find?
      (!isVariantName ·) = none := by decide +kernel
  obtain ⟨compilation, hCompile, hCode⟩ := exists_code_of_accepted accepted isReadable_analyse
    hReadable hErrors hVariants rfl
  have hNames : grammar.program.functionNames =
      ["a", "a_alternatives", "walk_a", "walk_a", "walk_a_alternatives"] := by
    decide +kernel
  refine ⟨compilation, hCompile, accepted, hCode, hNames, ?_⟩
  rw [hNames]
  decide

end Clash

end TreeGrammar
