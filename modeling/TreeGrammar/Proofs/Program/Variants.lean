import Mathlib.Data.List.DropRight
import Mathlib.Data.List.ReduceOption
import TreeGrammar.Proofs.Program.Attributes
import TreeGrammar.Proofs.Program.Functions

/-!
# Variants of scopes

A variant is named for the rule whose attributes it holds. If the name is taken by an earlier
variant, or by the scope in which walks start, then the number of the rule is added. The result is
not compared with the earlier variants, so that it may be one of them.

## Main definitions

* `Rules.variants`: the variants of the rules that declare attributes
* `Rules.VariantsApart`: no number makes the name of an earlier variant
* `Program.structs`: the structs of a module that hold attributes, with their names

## Main results

* `Rules.nodup_variants_iff`: when the variants are different
* `Rules.variantsApart_of_endings`: they are, if no name of a variant ends in a digit by itself
* `variants_nodup_iff`: when the variants and the structs of generated code are different
* `Overlap.variants_not_nodup`: a grammar whose code declares a variant twice
-/

namespace TreeGrammar

open Host (Token)

/-! ### Numbers at the end of names -/

/-- The last character of the name is a decimal digit. -/
def EndsInDigit (name : String) : Prop := ∃ c, name.toList.getLast? = some c ∧ c.isDigit

theorem toList_append_number (name : String) (number : Nat) :
    (name ++ toString number).toList = name.toList ++ Nat.toDigits 10 number := by
  rw [String.toList_append, Nat.toString_eq_ofList_toDigits, String.toList_ofList]

theorem endsInDigit_append_number (name : String) (number : Nat) :
    EndsInDigit (name ++ toString number) := by
  have hLast := List.getLast?_eq_some_getLast (Nat.toDigits_ne_nil (n := number) (b := 10))
  refine ⟨(Nat.toDigits 10 number).getLast Nat.toDigits_ne_nil, ?_, ?_⟩
  · rw [toList_append_number, List.getLast?_append, hLast, Option.some_or]
  · exact Nat.isDigit_of_mem_toDigits (by decide) (by decide) (List.getLast_mem _)

/-- What follows a name that does not end in a digit is its number. -/
theorem number_inj {left right : String} (hLeft : ¬ EndsInDigit left) (hRight : ¬ EndsInDigit right)
    {i j : Nat} (h : left ++ toString i = right ++ toString j) : i = j := by
  -- the digits at the end of such a name are those of its number, and no others
  have hDigits : ∀ {name : String}, ¬ EndsInDigit name → ∀ number : Nat,
      (name ++ toString number).toList.rtakeWhile Char.isDigit = Nat.toDigits 10 number := by
    intro name hName number
    rw [toList_append_number, List.rtakeWhile, List.reverse_append, List.takeWhile_append_of_pos]
    · have hEnd : name.toList.reverse.takeWhile Char.isDigit = [] := by
        refine List.takeWhile_eq_nil_iff.2 fun hPos hDigit => hName ⟨_, ?_, hDigit⟩
        rw [← List.head?_reverse, List.head?_eq_getElem?]
        exact List.getElem?_eq_getElem hPos
      rw [hEnd, List.append_nil, List.reverse_reverse]
    · intro c hc
      exact Nat.isDigit_of_mem_toDigits (by decide) (by decide) (List.mem_reverse.1 hc)
  have hSame : Nat.toDigits 10 i = Nat.toDigits 10 j := by
    rw [← hDigits hLeft i, ← hDigits hRight j, h]
  calc
    i = Nat.ofDigitChars 10 (Nat.toDigits 10 i) 0 := Nat.ofDigitChars_ten_toDigits.symm
    _ = Nat.ofDigitChars 10 (Nat.toDigits 10 j) 0 := by rw [hSame]
    _ = j := Nat.ofDigitChars_ten_toDigits

/-! ### Variants -/

/-- The variants of rules, of which the first one has the given number, where some names are
taken. -/
def variantsFrom (taken : List String) (start : Nat) (rules : Rules) : List String :=
  (scopeNamesFrom taken start rules).reduceOption

/-- The variants of the rules that declare attributes. -/
def Rules.variants (rules : Rules) : List String := rules.scopeNames.reduceOption

/-- The names that are taken when the rule with the given number is given a variant. -/
def Rules.takenBefore (rules : Rules) (index : Nat) : List String :=
  rootVariant :: Rules.variants (rules.take index)

/-- No number makes the name of an earlier variant: where the name of a rule with attributes is
taken, the name with the number of the rule is not. -/
def Rules.VariantsApart (rules : Rules) : Prop :=
  ∀ (index : Nat) (rule : Rule), rules[index]? = some rule → rule.attributes ≠ [] →
    camelCase rule.name.name ∈ rules.takenBefore index →
      camelCase rule.name.name ++ toString index ∉ rules.takenBefore index

/-- The variant of a rule, given the names that are taken. -/
def Rule.variantName (taken : List String) (number : Nat) (rule : Rule) : String :=
  if camelCase rule.name.name ∈ taken then camelCase rule.name.name ++ toString number
  else camelCase rule.name.name

section VariantsFrom

variable {taken : List String} {start : Nat} {rule : Rule} {rules : Rules}

theorem Rule.variantName_not_mem_iff : rule.variantName taken start ∉ taken ↔
    (camelCase rule.name.name ∈ taken → camelCase rule.name.name ++ toString start ∉ taken) := by
  rw [variantName]
  split
  · next hTaken => exact ⟨fun h _ => h, fun h => h hTaken⟩
  · next hFree => exact ⟨fun _ h => absurd h hFree, fun _ => hFree⟩

theorem variantsFrom_cons_of_nil (h : rule.attributes = []) :
    variantsFrom taken start (rule :: rules) = variantsFrom taken (start + 1) rules := by
  rw [variantsFrom, scopeNamesFrom, if_pos (List.isEmpty_iff.2 h), List.reduceOption_cons_of_none]
  rfl

theorem variantsFrom_cons (h : rule.attributes ≠ []) :
    variantsFrom taken start (rule :: rules) = rule.variantName taken start ::
      variantsFrom (rule.variantName taken start :: taken) (start + 1) rules := by
  rw [variantsFrom, scopeNamesFrom, if_neg (mt List.isEmpty_iff.1 h),
    List.reduceOption_cons_of_some]
  rfl

/-- A variant is the name of a rule with attributes, with its number or without. -/
theorem exists_rule_of_mem_variantsFrom {name : String} (h : name ∈ variantsFrom taken start rules) :
    ∃ index rule, rules[index]? = some rule ∧ rule.attributes ≠ [] ∧
      (name = camelCase rule.name.name ∨
        name = camelCase rule.name.name ++ toString (start + index)) := by
  induction rules generalizing taken start with
  | nil => cases h
  | cons rule rules ih =>
    have hLater : ∀ {taken}, name ∈ variantsFrom taken (start + 1) rules → ∃ index other,
        (rule :: rules)[index]? = some other ∧ other.attributes ≠ [] ∧
          (name = camelCase other.name.name ∨
            name = camelCase other.name.name ++ toString (start + index)) := by
      intro taken hMem
      obtain ⟨index, other, hOther, hAttributes, hName⟩ := ih hMem
      refine ⟨index + 1, other, hOther, hAttributes, ?_⟩
      rwa [← Nat.add_assoc, Nat.add_right_comm]
    by_cases hAttributes : rule.attributes = []
    · rw [variantsFrom_cons_of_nil hAttributes] at h
      exact hLater h
    · rw [variantsFrom_cons hAttributes] at h
      rcases List.mem_cons.1 h with rfl | h
      · refine ⟨0, rule, rfl, hAttributes, ?_⟩
        rw [Rule.variantName]
        split
        · exact .inr rfl
        · exact .inl rfl
      · exact hLater h

/-- A name that is taken and does not end in a digit is no variant. -/
theorem not_mem_variantsFrom {name : String} (hTaken : name ∈ taken) (hEnd : ¬ EndsInDigit name) :
    name ∉ variantsFrom taken start rules := by
  induction rules generalizing taken start with
  | nil => exact List.not_mem_nil
  | cons rule rules ih =>
    by_cases hAttributes : rule.attributes = []
    · rw [variantsFrom_cons_of_nil hAttributes]
      exact ih hTaken
    · rw [variantsFrom_cons hAttributes, List.mem_cons, not_or]
      refine ⟨?_, ih (List.mem_cons_of_mem _ hTaken)⟩
      rintro rfl
      -- with its number the name ends in a digit, and without one it was not taken
      rw [Rule.variantName] at hTaken hEnd
      split at hTaken
      · next hCamel =>
        rw [if_pos hCamel] at hEnd
        exact hEnd (endsInDigit_append_number ..)
      · next hCamel => exact hCamel hTaken

/-- The variants are different, and different from the names that are taken, if and only if each
rule makes a name that is not taken before it. -/
theorem nodup_variantsFrom_append (hTaken : taken.Nodup) :
    (variantsFrom taken start rules ++ taken).Nodup ↔
      ∀ (index : Nat) (rule : Rule), rules[index]? = some rule → rule.attributes ≠ [] →
        camelCase rule.name.name ∈ variantsFrom taken start (rules.take index) ++ taken →
          camelCase rule.name.name ++ toString (start + index) ∉
            variantsFrom taken start (rules.take index) ++ taken := by
  induction rules generalizing taken start with
  | nil =>
    refine ⟨fun _ index rule hRule => ?_, fun _ => hTaken⟩
    cases hRule
  | cons rule rules ih =>
    -- the rules after the first one are given their variants where that of the first one is taken
    have hShift : ∀ index : Nat, start + index.succ = start + 1 + index := by omega
    by_cases hAttributes : rule.attributes = []
    · rw [variantsFrom_cons_of_nil hAttributes, ih hTaken]
      constructor
      · intro h index other hOther hOtherAttributes
        cases index with
        | zero => exact absurd (Option.some.inj hOther ▸ hAttributes) hOtherAttributes
        | succ index =>
          rw [List.take_succ_cons, variantsFrom_cons_of_nil hAttributes, hShift index]
          exact h index other hOther hOtherAttributes
      · intro h index other hOther hOtherAttributes
        have hNext := h (index + 1) other hOther hOtherAttributes
        rwa [List.take_succ_cons, variantsFrom_cons_of_nil hAttributes, hShift index] at hNext
    · have hPerm : ∀ some : Rules, (variantsFrom taken start (rule :: some) ++ taken).Perm
          (variantsFrom (rule.variantName taken start :: taken) (start + 1) some ++
            rule.variantName taken start :: taken) := by
        intro some
        rw [variantsFrom_cons hAttributes]
        exact List.perm_middle.symm
      rw [(hPerm rules).nodup_iff]
      constructor
      · intro h index other hOther hOtherAttributes
        -- the variant of the first rule is new, so that the later ones are apart from it as well
        have hFree := (List.nodup_cons.1 (List.nodup_append'.1 h).2.1).1
        cases index with
        | zero =>
          obtain rfl : rule = other := Option.some.inj hOther
          exact Rule.variantName_not_mem_iff.1 hFree
        | succ index =>
          rw [List.take_succ_cons, (hPerm _).mem_iff, (hPerm _).mem_iff, hShift index]
          exact (ih (List.nodup_cons.2 ⟨hFree, hTaken⟩)).1 h index other hOther hOtherAttributes
      · intro h
        have hFree : rule.variantName taken start ∉ taken :=
          Rule.variantName_not_mem_iff.2 (h 0 rule rfl hAttributes)
        refine (ih (List.nodup_cons.2 ⟨hFree, hTaken⟩)).2 ?_
        intro index other hOther hOtherAttributes
        have hNext := h (index + 1) other hOther hOtherAttributes
        rwa [List.take_succ_cons, (hPerm _).mem_iff, (hPerm _).mem_iff, hShift index] at hNext

end VariantsFrom

theorem not_endsInDigit_rootVariant : ¬ EndsInDigit rootVariant := by
  rintro ⟨c, hLast, hDigit⟩
  obtain rfl : 't' = c := Option.some.inj hLast
  cases hDigit

namespace Rules

variable {rules : Rules}

/-- The scope in which walks start is that of no rule. -/
theorem rootVariant_not_mem_variants : rootVariant ∉ rules.variants :=
  not_mem_variantsFrom List.mem_cons_self not_endsInDigit_rootVariant

/-- The variants are different if and only if no number makes the name of an earlier one. -/
theorem nodup_variants_iff : rules.variants.Nodup ↔ rules.VariantsApart := by
  have hPerm : ∀ some : Rules, (variantsFrom [rootVariant] 0 some ++ [rootVariant]).Perm
      (rootVariant :: Rules.variants some) := fun some => List.perm_append_singleton ..
  have hIff := (hPerm rules).nodup_iff.symm.trans
    (nodup_variantsFrom_append (List.nodup_singleton rootVariant))
  simp only [Nat.zero_add, (hPerm _).mem_iff] at hIff
  rw [List.nodup_cons] at hIff
  exact (and_iff_right rootVariant_not_mem_variants).symm.trans hIff

/-- The variants are apart if the name of no rule with attributes ends in a digit before a number is
added. -/
theorem variantsApart_of_endings
    (h : ∀ rule ∈ rules, rule.attributes ≠ [] → ¬ EndsInDigit (camelCase rule.name.name)) :
    rules.VariantsApart := by
  intro index rule hRule hAttributes _ hMem
  -- a taken name that ends in a digit has a number, which is that of an earlier rule
  have hNumber := endsInDigit_append_number (camelCase rule.name.name) index
  rcases List.mem_cons.1 hMem with hRoot | hMem
  · exact not_endsInDigit_rootVariant (hRoot ▸ hNumber)
  · obtain ⟨earlier, other, hOther, hOtherAttributes, hName⟩ := exists_rule_of_mem_variantsFrom hMem
    rw [List.getElem?_take] at hOther
    split at hOther
    · next hLess =>
      have hOtherEnd := h other (List.mem_of_getElem? hOther) hOtherAttributes
      rcases hName with hName | hName
      · exact hOtherEnd (hName ▸ hNumber)
      · rw [Nat.zero_add] at hName
        have hSame := number_inj (h rule (List.mem_of_getElem? hRule) hAttributes) hOtherEnd hName
        omega
    · cases hOther

/-- Rules with variants that are apart have different variants. -/
theorem VariantsApart.distinctVariants (h : rules.VariantsApart) : rules.DistinctVariants := by
  have hUnique : ∀ {names : List (Option String)}, names.reduceOption.Nodup →
      ∀ (i j : Nat) (variant : String), names[i]? = some (some variant) →
        names[j]? = some (some variant) → i = j := by
    intro names
    -- an entry that stands at two places is repeated, once the empty entries are left out
    induction names with
    | nil => exact fun _ i _ _ hLeft => by cases hLeft
    | cons name names ih =>
      intro hNodup i j variant hLeft hRight
      have hTail : names.reduceOption.Nodup :=
        hNodup.sublist ((List.sublist_cons_self ..).filterMap id)
      have hHead : ∀ {k : Nat}, names[k]? = some (some variant) → name ≠ some variant := by
        rintro k hMem rfl
        rw [List.reduceOption_cons_of_some, List.nodup_cons] at hNodup
        exact hNodup.1 (List.mem_filterMap.2 ⟨_, List.mem_of_getElem? hMem, rfl⟩)
      cases i with
      | zero =>
        cases j with
        | zero => rfl
        | succ j => exact absurd (Option.some.inj hLeft) (hHead hRight)
      | succ i =>
        cases j with
        | zero => exact absurd (Option.some.inj hRight) (hHead hLeft)
        | succ j => exact congrArg (· + 1) (ih hTail i j variant hLeft hRight)
  exact hUnique (nodup_variants_iff.2 h)

end Rules

/-! ### Structs -/

/-- The tokens declare a struct of the given name. -/
def Host.Token.DeclaresStruct (name : String) (tokens : List Token) : Prop :=
  ∃ fields, tokens = phrase "pub struct" ++ [.word name, .braces fields]

/-- The type of scopes with the given variants beside that in which walks start. Each holds the
struct that is named for it. -/
def scopeEnum (variants : List String) : List Token :=
  blockTokens "pub enum Scope" ([.word rootVariant] ++ phrase "," ++
    separated "," (variants.map fun variant =>
      callTokens [.word variant] [[.word (structName variant)]]))

/-- The structs that hold the attributes of rules, each with its name. -/
def Program.structs (program : Program) : List (String × List Token) :=
  program.procedures.filterMap fun procedure =>
    procedure.variant.map fun variant => (structName variant, procedure.scopeStruct)

theorem Program.declares_structs (program : Program) :
    ∀ struct ∈ program.structs, Token.DeclaresStruct struct.1 struct.2 := by
  intro struct hMem
  obtain ⟨procedure, -, hStruct⟩ := List.mem_filterMap.1 hMem
  obtain ⟨variant, hVariant, rfl⟩ := Option.map_eq_some_iff.1 hStruct
  rw [Procedure.scopeStruct, hVariant]
  exact ⟨_, rfl⟩

/-- The type of scopes and its structs stand in the module of a program. -/
theorem Program.exists_scopeEnum (program : Program) :
    ∃ before after, program.moduleTokens = phrase "pub mod" ++ [.word program.name, .braces
      (before ++ scopeEnum (program.procedures.filterMap Procedure.variant) ++
        program.structs.flatMap Prod.snd ++ after)] := by
  have hStructs : ∀ procedures : List Procedure, procedures.flatMap Procedure.scopeStruct =
      (procedures.filterMap fun procedure => procedure.variant.map fun variant =>
        (structName variant, procedure.scopeStruct)).flatMap Prod.snd := by
    intro procedures
    induction procedures with
    | nil => rfl
    | cons procedure procedures ih =>
      rw [List.flatMap_cons, ih, List.filterMap_cons]
      -- a rule without attributes has no variant, and no struct is declared for it
      cases hVariant : procedure.variant with
      | none => rw [Procedure.scopeStruct, hVariant]; rfl
      | some variant => rfl
  rw [moduleTokens, itemTokens, scopeType, hStructs, ← List.append_assoc]
  exact ⟨_, _, rfl⟩

theorem length_scopeNamesFrom (taken : List String) (start : Nat) (rules : Rules) :
    (scopeNamesFrom taken start rules).length = rules.length := by
  induction rules generalizing taken start with
  | nil => rfl
  | cons rule rules ih =>
    rw [scopeNamesFrom]
    split
    · exact congrArg (· + 1) (ih ..)
    · exact congrArg (· + 1) (ih ..)

theorem Grammar.variants_procedures (grammar : Grammar) :
    grammar.program.procedures.filterMap Procedure.variant = grammar.rules.variants := by
  have hVariants : grammar.program.procedures.map Procedure.variant = grammar.rules.scopeNames := by
    refine List.ext_getElem ?_ fun index hLeft hRight => ?_
    · rw [List.length_map, length_procedures, Rules.scopeNames, length_scopeNamesFrom]
    · rw [List.length_map] at hLeft
      have hRule : grammar.rules[index]? = some _ :=
        List.getElem?_eq_getElem (length_procedures ▸ hLeft)
      have hProcedure := @getElem?_procedures grammar index
      rw [hRule, List.getElem?_eq_getElem hLeft] at hProcedure
      rw [List.getElem_map, Option.some.inj hProcedure]
      show grammar.rules.scopeNames[index]?.join = _
      rw [List.getElem?_eq_getElem hRight, Option.join_some]
  rw [Rules.variants, ← hVariants, List.reduceOption, List.filterMap_map]
  rfl

theorem structName_injective : Function.Injective structName :=
  fun _ _ h => (String.append_left_inj "Scope").1 h

theorem Grammar.map_fst_structs (grammar : Grammar) :
    grammar.program.structs.map Prod.fst = grammar.rules.variants.map structName := by
  rw [Program.structs, List.map_filterMap, ← variants_procedures, List.map_filterMap]
  refine congrArg (List.filterMap · _) (funext fun procedure => ?_)
  rw [Option.map_map]
  rfl

/-- In an accepted grammar, no rule has the variant of the scope in which walks start. The variants
and the structs that hold attributes are different if and only if no number that is added to the name
of a rule makes the name of an earlier variant. They are all that the generated code declares. -/
theorem variants_nodup_iff {source : List Char} {options : Options} {grammar : Grammar}
    (hAccepted : (analyse source options).accepted? = some grammar) :
    rootVariant ∉ grammar.rules.variants ∧
      ((rootVariant :: grammar.rules.variants).Nodup ↔ grammar.rules.VariantsApart) ∧
      ((grammar.program.structs.map Prod.fst).Nodup ↔ grammar.rules.VariantsApart) ∧
      (∀ struct ∈ grammar.program.structs, Token.DeclaresStruct struct.1 struct.2) ∧
      ∀ compilation code, compile source options = .ok compilation →
        compilation.code = some code → ∃ before after,
          code = Token.print (phrase "pub mod" ++ [.word grammar.program.name, .braces
            (before ++ scopeEnum grammar.rules.variants ++
              grammar.program.structs.flatMap Prod.snd ++ after)]) := by
  refine ⟨Rules.rootVariant_not_mem_variants, ?variants, ?structs, grammar.program.declares_structs,
    fun compilation code hCompile hCode => ?code⟩
  case variants =>
    rw [List.nodup_cons, Rules.nodup_variants_iff]
    exact and_iff_right Rules.rootVariant_not_mem_variants
  case structs =>
    rw [grammar.map_fst_structs, List.nodup_map_iff structName_injective, Rules.nodup_variants_iff]
  case code =>
    obtain ⟨before, after, hModule⟩ := grammar.program.exists_scopeEnum
    rw [grammar.variants_procedures] at hModule
    exact ⟨before, after, hModule ▸ code_eq_of_accepted hAccepted hCompile hCode⟩

namespace Sample

/-- The small grammar has one variant. -/
theorem variants_nodup_iff_sample :
    ∃ grammar : Grammar, (analyse source {}).accepted? = some grammar ∧
      (rootVariant ∉ grammar.rules.variants ∧
        ((rootVariant :: grammar.rules.variants).Nodup ↔ grammar.rules.VariantsApart) ∧
        ((grammar.program.structs.map Prod.fst).Nodup ↔ grammar.rules.VariantsApart) ∧
        (∀ struct ∈ grammar.program.structs, Token.DeclaresStruct struct.1 struct.2) ∧
        ∀ compilation code, compile source {} = .ok compilation →
          compilation.code = some code → ∃ before after,
            code = Token.print (phrase "pub mod" ++ [.word grammar.program.name, .braces
              (before ++ scopeEnum grammar.rules.variants ++
                grammar.program.structs.flatMap Prod.snd ++ after)])) :=
  ⟨_, accepted, TreeGrammar.variants_nodup_iff accepted⟩

end Sample

/-! ### A variant that is declared twice -/

namespace Overlap

/-- The text `root1[x:u8]:_root;_root[x:u8]:.;`. -/
def source : List Char :=
  ['r', 'o', 'o', 't', '1', '[', 'x', ':', 'u', '8', ']', ':', '_', 'r', 'o', 'o', 't', ';',
    '_', 'r', 'o', 'o', 't', '[', 'x', ':', 'u', '8', ']', ':', '.', ';']

/-- The attribute `x`, which starts at the given offset. -/
def declared (offset : Nat) : Attribute :=
  ⟨⟨"x", Sample.place offset⟩, ⟨"u8", Sample.place (offset + 2)⟩, none⟩

/-- The rule `root1`, at which walks start. -/
def numbered : Rule where
  name := ⟨"root1", Sample.place 0⟩
  isPublic := false
  attributes := [declared 6]
  params := none
  returns := none
  alternatives :=
    [.mk none [.rule 0 (Sample.place 12) none ⟨"_root", Sample.place 12⟩ none] (Sample.place 12)]

/-- The rule `_root`. -/
def plain : Rule where
  name := ⟨"_root", Sample.place 18⟩
  isPublic := false
  attributes := [declared 24]
  params := none
  returns := none
  alternatives := [.mk none [.wildcard 1 (Sample.place 30) none] (Sample.place 30)]

/-- The rules. -/
def rules : Rules := [numbered, plain]

/-- The grammar as it is read. -/
def written : SourceGrammar where
  rules
  elements := rules.exprs
  infos := rules.exprs.map fun expr => ⟨expr.span, none⟩

/-- The grammar that the analysis makes of the text. -/
def grammar : Grammar where
  name := ⟨"tree_grammar", Span.start⟩
  options := {}
  tokens := []
  prelude := []
  rules
  decisions := []
  scopes := []

theorem parse_source : SourceGrammar.parse source = ([], written) := by with_unfolding_all rfl

/-- The grammar is accepted. -/
theorem accepted : (analyse source {}).accepted? = some grammar := by
  have hClean : written.IsClean {} := by decide +kernel
  have hDecisions : rules.decisions rules.first rules.follows = [] := by decide +kernel
  have hScopes : rules.scopes = [] := by decide +kernel
  exact (analyse_of_isClean parse_source rfl hClean hDecisions hScopes).1

theorem isReadable_analyse : (analyse source {}).isReadable := by
  rw [analyse, parse_source]
  simp only [SourceGrammar.analyse]
  decide +kernel

/-- The grammar is accepted and code is generated for it, whose scopes have the variant `Root1`
twice: it is the name of `root1`, and that of `_root` with its number. -/
theorem variants_not_nodup :
    ∃ compilation, compile source {} = .ok compilation ∧
      (analyse source {}).accepted? = some grammar ∧
      compilation.code = some (Token.print grammar.program.moduleTokens) ∧
      grammar.rules.variants = ["Root1", "Root1"] ∧ ¬ grammar.rules.variants.Nodup ∧
      grammar.program.structs.map Prod.fst = ["Root1Scope", "Root1Scope"] := by
  have hReadable : grammar.isReadable := by decide +kernel
  have hErrors : grammar.lexicalErrors = [] := by decide +kernel
  have hChecked : (grammar.program.procedures.filterMap Procedure.variant).find?
      (!isVariantName ·) = none := by decide +kernel
  have hVariants : grammar.rules.variants = ["Root1", "Root1"] := by decide +kernel
  obtain ⟨compilation, hCompile, hCode⟩ := exists_code_of_accepted accepted isReadable_analyse
    hReadable hErrors hChecked rfl
  refine ⟨compilation, hCompile, accepted, hCode, hVariants, ?_, ?_⟩
  · rw [hVariants]
    decide
  · rw [grammar.map_fst_structs, hVariants]
    rfl

end Overlap

end TreeGrammar
