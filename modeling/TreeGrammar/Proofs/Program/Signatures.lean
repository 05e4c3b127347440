import TreeGrammar.Proofs.Program.Functions

/-!
# Parameters of functions

The functions of a rule are given the walker, the state of the host and what they walk, and then the
parameters of the rule. The names of the parameters are compared with those that the module uses
itself, as they are written. A raw identifier is the same one as that without its mark, so that a
parameter may have a name that is given already; and a rule may have two parameters of one name.

## Main definitions

* `Host.identifierOf`: the identifier that a word stands for
* `Host.readParameterTokens`: the parameters that tokens list
* `Host.IsParameter`: tokens that list one parameter, whatever stands after them
* `Rule.ParamsApart`: the parameters of a rule are different, and different from given ones

## Main results

* `readParameterTokens_separated`: lists of parameters are read one by one
* `signatures_nodup_iff`: the names that the functions of a rule bind, and when they are different
* `RawName.names_not_nodup`: a grammar whose functions bind a name twice
-/

namespace TreeGrammar

open Host (Token)

/-! ### Reading parameters -/

namespace Host

/-- The identifier that a word stands for: a raw identifier without its mark. -/
def identifierOf (word : String) : String :=
  match word.toList with
  | 'r' :: '#' :: name => String.ofList name
  | _ => word

/-- The parameters that tokens list. -/
def readParameterTokens (tokens : List Token) : Except Refusal (List Parameter) :=
  (readItems Construct.parameterForm tokens).map fun items =>
    items.map fun item => parameterKind item.1

theorem readParameters_eq {text : String} {tokens : List Token} (h : lex text.toList = some tokens) :
    readParameters text = readParameterTokens tokens := by
  rw [readParameters, readTokens, h, readParameterTokens]
  show (readItems Construct.parameterForm tokens).bind _ = _
  cases readItems Construct.parameterForm tokens <;> rfl

section Read

variable {rules : Construct → List Token → Reading} {first second : Pattern} {tokens : List Token}

theorem Pattern.read_append {found : Match} (h : first.read rules tokens = .ok found) :
    (first ++ second).read rules tokens = (second.read rules found.rest).map fun later =>
      ⟨found.output ++ later.output, later.rest⟩ := by
  show (first.read rules tokens).bind _ = _
  rw [h]
  show (second.read rules found.rest).bind _ = _
  cases second.read rules found.rest <;> rfl

theorem Pattern.read_append_of_error {refusal : Refusal}
    (h : first.read rules tokens = .error refusal) :
    (first ++ second).read rules tokens = .error refusal := by
  show (first.read rules tokens).bind _ = _
  rw [h]
  rfl

theorem Pattern.read_word_of_ne {text name : String} {rest : List Token} (h : name ≠ text) :
    (Pattern.word text).read rules (.word name :: rest) = .error .mismatch := if_neg h

theorem Pattern.read_identifier {name : String} {rest : List Token} (h : name ∉ keywords) :
    Pattern.identifier.read rules (.word name :: rest) = .ok ⟨[.word name], rest⟩ := if_neg h

theorem Pattern.read_choice {found : Match} (h : first.read rules tokens = .ok found) :
    (first <|> second).read rules tokens = .ok found := by
  show (choice first second).read rules tokens = _
  rw [Pattern.read, h]

theorem Pattern.read_choice_of_mismatch (hFirst : first.read rules tokens = .error .mismatch)
    {reading : Reading} (hSecond : second.read rules tokens = reading) :
    (first <|> second).read rules tokens = reading := by
  show (choice first second).read rules tokens = _
  rw [Pattern.read, hFirst]
  exact hSecond

theorem Pattern.read_opt_of_mismatch (h : first.read rules tokens = .error .mismatch) :
    (opt first).read rules tokens = .ok ⟨[], tokens⟩ :=
  read_choice_of_mismatch h rfl

theorem Pattern.read_ahead {found : Match} (h : first.read rules tokens = .ok found) :
    (ahead first).read rules tokens = .ok ⟨[], tokens⟩ := by
  show (first.read rules tokens).bind _ = _
  rw [h]
  rfl

end Read

section Kind

variable {rules : Construct → List Token → Reading} {name : String} {rest : List Token}

theorem read_outerAttributes_append {pattern : Pattern} :
    (Construct.outerAttributes ++ pattern).read rules (.word name :: rest) =
      pattern.read rules (.word name :: rest) := by
  have hNone : Construct.outerAttributes.read rules (.word name :: rest) =
      .ok ⟨[], .word name :: rest⟩ := rfl
  rw [Pattern.read_append hNone]
  cases pattern.read rules (.word name :: rest) <;> rfl

/-- A name is no value that a method is called on. -/
theorem read_plainReceiver (h : name ∉ keywords) :
    Construct.plainReceiver.read rules (.word name :: rest) = .error .mismatch := by
  have hSelf : name ≠ "self" := fun hEq => h (hEq ▸ by decide)
  have hMut : name ≠ "mut" := fun hEq => h (hEq ▸ by decide)
  have hNone : (Pattern.given (.op "&") (.op "&" ++ .opt .lifetime)).read rules
      (.word name :: rest) = .ok ⟨[], .word name :: rest⟩ := rfl
  have hReference : (Pattern.given (.op "&") (.op "&" ++ .opt .lifetime) ++ .opt (.word "mut")).read
      rules (.word name :: rest) = .ok ⟨[], .word name :: rest⟩ := by
    rw [Pattern.read_append hNone, Pattern.read_opt_of_mismatch (Pattern.read_word_of_ne hMut)]
    rfl
  refine Pattern.read_append_of_error ?_
  rw [Construct.receiver, Pattern.read_append hReference, Pattern.read_word_of_ne hSelf]
  rfl

/-- A name with a type after it is a parameter of this name. -/
theorem parameterKind_named (h : name ∉ keywords) :
    parameterKind (.word name :: .punct ':' false :: rest) = .named name := by
  have hMut : name ≠ "mut" := fun hEq => h (hEq ▸ by decide)
  -- no attribute, receiver or mark comes first, so that the name is the first word
  have hReceiver : startsWith (Construct.outerAttributes ++ Construct.plainReceiver)
      (.word name :: .punct ':' false :: rest) = false := by
    rw [startsWith, Productions.read, read_outerAttributes_append, read_plainReceiver h]
    rfl
  have hName : productions.read (Construct.outerAttributes ++
      (.ahead (.word "mut" ++ .anyWord <|> .identifier <|> .word "self") ++ .opt (.word "mut")))
      (.word name :: .punct ':' false :: rest) =
        .ok ⟨[], .word name :: .punct ':' false :: rest⟩ := by
    rw [Productions.read, read_outerAttributes_append, Pattern.read_append
      (Pattern.read_ahead (Pattern.read_choice_of_mismatch
        (Pattern.read_append_of_error (Pattern.read_word_of_ne hMut))
        (Pattern.read_choice (Pattern.read_identifier h)))),
      Pattern.read_opt_of_mismatch (Pattern.read_word_of_ne hMut)]
    rfl
  rw [parameterKind, hReceiver]
  simp only [Bool.false_eq_true, if_false]
  rw [hName]
  rfl

end Kind

/-! ### Lists of parameters -/

/-- The comma between two parameters. -/
def commaToken : Token := .punct ',' false

/-- Tokens list one parameter of the given name, at the end of a list and before others. -/
structure IsParameter (name : String) (tokens : List Token) : Prop where
  /-- The name is a word that is no keyword. -/
  identifier : name ∉ keywords
  /-- The name stands at the start, before a type. -/
  named : ∃ type, tokens = .word name :: .punct ':' false :: type
  /-- The tokens are read at the end of a list. -/
  last : ∀ depth, Construct.parameterForm.read (productions.readRule (depth + 32)) tokens =
    .ok ⟨tokens, []⟩
  /-- The tokens are read before other parameters. -/
  before : ∀ depth rest, Construct.parameterForm.read (productions.readRule (depth + 32))
    (tokens ++ commaToken :: rest) = .ok ⟨tokens, commaToken :: rest⟩

/-- The depth at which tokens are read is enough for a parameter. -/
theorem productions_read (pattern : Pattern) (tokens : List Token) :
    ∃ depth, productions.read pattern tokens =
      pattern.read (productions.readRule (depth + 32)) tokens :=
  ⟨32 * Productions.tokenListSize tokens, rfl⟩

namespace IsParameter

variable {name : String} {tokens : List Token}

theorem kind (h : IsParameter name tokens) (rest : List Token) :
    parameterKind (tokens ++ rest) = .named name := by
  obtain ⟨type, rfl⟩ := h.named
  exact parameterKind_named h.identifier

theorem isEmpty_append (h : IsParameter name tokens) (rest : List Token) :
    (tokens ++ rest).isEmpty = false := by
  obtain ⟨type, rfl⟩ := h.named
  rfl

/-- One parameter is read. -/
theorem readParameterTokens_last (h : IsParameter name tokens) :
    readParameterTokens tokens = .ok [.named name] := by
  obtain ⟨depth, hDepth⟩ := productions_read Construct.parameterForm tokens
  have hEmpty := h.isEmpty_append []
  have hKind := h.kind []
  rw [List.append_nil] at hEmpty hKind
  rw [readParameterTokens, readItems, hEmpty, hDepth, h.last]
  show Except.ok [parameterKind tokens] = _
  rw [hKind]

/-- A parameter is read before others. -/
theorem readParameterTokens_before (h : IsParameter name tokens) (rest : List Token) :
    readParameterTokens (tokens ++ commaToken :: rest) =
      (readParameterTokens rest).map (.named name :: ·) := by
  obtain ⟨depth, hDepth⟩ :=
    productions_read Construct.parameterForm (tokens ++ commaToken :: rest)
  have hLength : rest.length < (tokens ++ commaToken :: rest).length := by
    rw [List.length_append, List.length_cons]
    omega
  have hItems : readItems Construct.parameterForm (tokens ++ commaToken :: rest) =
      (readItems Construct.parameterForm rest).map
        ((tokens ++ commaToken :: rest, tokens) :: ·) := by
    rw [readItems, h.isEmpty_append, hDepth, h.before]
    show (if rest.length < (tokens ++ commaToken :: rest).length then _ else _) = _
    rw [if_pos hLength]
    cases readItems Construct.parameterForm rest <;> rfl
  rw [readParameterTokens, hItems, readParameterTokens]
  cases readItems Construct.parameterForm rest with
  | error refusal => rfl
  | ok items =>
    show Except.ok (parameterKind _ :: _) = _
    rw [h.kind]
    rfl

end IsParameter

/-- Parameters are read one by one. -/
theorem readParameterTokens_separated {given : List (String × List Token)} (hNonempty : given ≠ [])
    (h : ∀ parameter ∈ given, IsParameter parameter.1 parameter.2) :
    readParameterTokens (separated "," (given.map Prod.snd)) =
        .ok (given.map fun parameter => .named parameter.1) ∧
      ∀ rest, readParameterTokens (separated "," (given.map Prod.snd) ++ commaToken :: rest) =
        (readParameterTokens rest).map ((given.map fun parameter => .named parameter.1) ++ ·) := by
  induction given with
  | nil => exact absurd rfl hNonempty
  | cons parameter given ih =>
    obtain ⟨hFirst, hOthers⟩ := List.forall_mem_cons.1 h
    -- after the last parameter there may be others or none, after any other there is a comma
    cases given with
    | nil =>
      refine ⟨hFirst.readParameterTokens_last, fun rest => ?_⟩
      exact hFirst.readParameterTokens_before rest
    | cons next given =>
      obtain ⟨hLast, hBefore⟩ := ih (by simp) hOthers
      have hSeparated : separated "," ((parameter :: next :: given).map Prod.snd) =
          parameter.2 ++ commaToken :: separated "," ((next :: given).map Prod.snd) := by
        show parameter.2 ++ [commaToken] ++ _ = _
        rw [List.append_assoc]
        rfl
      rw [hSeparated]
      refine ⟨?_, fun rest => ?_⟩
      · rw [hFirst.readParameterTokens_before, hLast]
        rfl
      · rw [List.append_assoc, List.cons_append, hFirst.readParameterTokens_before, hBefore]
        cases readParameterTokens rest <;> rfl

end Host

/-! ### Functions of a rule -/

/-- The parameters of a function that enters a rule or matches its alternatives, before those of the
rule, with their names. -/
def matchParams : List (String × List Token) :=
  [("walker", phrase "walker : & mut Walker"), ("state", phrase "state : & mut State"),
    ("cursor", phrase "cursor : & mut Cursor < 't , N >"),
    ("frame", phrase "frame : & Frame < '_ , Scope >")]

/-- The parameters of a function that walks a whole tree, before those of the rule, with their
names. -/
def walkParams : List (String × List Token) :=
  [("walker", phrase "walker : & mut Walker"), ("state", phrase "state : & mut State"),
    ("root", phrase "root : & N")]

/-- Each parameter that functions of a rule are given is read by itself. -/
theorem isParameter_given :
    ∀ parameter ∈ matchParams ++ walkParams, Host.IsParameter parameter.1 parameter.2 := by
  have hWalker : Host.IsParameter "walker" (phrase "walker : & mut Walker") :=
    ⟨by decide, ⟨_, rfl⟩, fun _ => rfl, fun _ _ => rfl⟩
  have hState : Host.IsParameter "state" (phrase "state : & mut State") :=
    ⟨by decide, ⟨_, rfl⟩, fun _ => rfl, fun _ _ => rfl⟩
  have hCursor : Host.IsParameter "cursor" (phrase "cursor : & mut Cursor < 't , N >") :=
    ⟨by decide, ⟨_, rfl⟩, fun _ => rfl, fun _ _ => rfl⟩
  have hFrame : Host.IsParameter "frame" (phrase "frame : & Frame < '_ , Scope >") :=
    ⟨by decide, ⟨_, rfl⟩, fun _ => rfl, fun _ _ => rfl⟩
  have hRoot : Host.IsParameter "root" (phrase "root : & N") :=
    ⟨by decide, ⟨_, rfl⟩, fun _ => rfl, fun _ _ => rfl⟩
  simp only [matchParams, walkParams, List.cons_append, List.nil_append, List.forall_mem_cons]
  exact ⟨hWalker, hState, hCursor, hFrame, hWalker, hState, hRoot, List.forall_mem_nil _⟩

/-- Parameters that are all names are told by these names. -/
theorem Host.map_named_filterMap {name? : Parameter → Option String}
    (hName : ∀ name, name? (.named name) = some name) {parameters : List Parameter}
    (h : ∀ parameter ∈ parameters, ∃ name, parameter = .named name) :
    (parameters.filterMap name?).map .named = parameters := by
  induction parameters with
  | nil => rfl
  | cons parameter parameters ih =>
    obtain ⟨⟨name, rfl⟩, hOthers⟩ := List.forall_mem_cons.1 h
    rw [List.filterMap_cons_some (hName name), List.map_cons, ih hOthers]

/-- A name is in order if it is an identifier that the generated code does not use itself. -/
theorem NameRole.error?_eq_none_iff {role : NameRole} {name : String} :
    role.error? name = none ↔ Host.isIdentifier name ∧ isReserved name = false := by
  rw [error?]
  cases Host.isIdentifier name <;> cases isReserved name <;> simp

namespace Rule

variable {rule : Rule}

/-- The parameters of a rule whose code has been checked are names that are in order. -/
theorem exists_parameters (h : rule.codeErrors = []) :
    ∃ parameters, rule.readParameters = .ok parameters ∧ ∀ parameter ∈ parameters,
      ∃ name, parameter = .named name ∧ NameRole.parameter.error? name = none := by
  cases hParams : rule.params with
  | none => exact ⟨[], by rw [readParameters, hParams], List.forall_mem_nil _⟩
  | some params =>
    simp only [codeErrors, List.append_eq_nil_iff, List.flatMap_eq_nil_iff] at h
    have hErrors : rule.paramErrors = [] :=
      List.map_eq_nil_iff.1 (h.2 params (Option.mem_toList.2 hParams))
    rw [paramErrors] at hErrors
    split at hErrors
    · cases hErrors
    · next parameters hRead =>
      refine ⟨parameters, hRead, fun parameter hMem => ?_⟩
      have hError := List.filterMap_eq_nil_iff.1 hErrors parameter hMem
      -- a receiver or a pattern has an error of its own
      cases parameter with
      | named name => exact ⟨name, rfl, hError⟩
      | receiver | complex => cases hError

/-- The parameters of a rule whose code has been checked are names that the generated code does not
use itself. -/
theorem readParameters_eq_ok (h : rule.codeErrors = []) :
    rule.readParameters = .ok (rule.paramNames.map .named) ∧
      ∀ name ∈ rule.paramNames, Host.isIdentifier name ∧ isReserved name = false := by
  obtain ⟨parameters, hRead, hNamed⟩ := exists_parameters h
  have hParameters : rule.paramNames.map .named = parameters := by
    rw [paramNames, hRead]
    refine Host.map_named_filterMap (fun _ => rfl) fun parameter hMem => ?_
    exact (hNamed parameter hMem).imp fun _ => And.left
  refine ⟨hParameters ▸ hRead, fun name hName => ?_⟩
  obtain ⟨found, hFound, hError⟩ :=
    hNamed (.named name) (hParameters ▸ List.mem_map_of_mem hName)
  obtain rfl : name = found := Host.Parameter.named.inj hFound
  exact NameRole.error?_eq_none_iff.1 hError

/-- The parameters of a rule are different identifiers, and different from given ones. -/
structure ParamsApart (rule : Rule) (given : List String) : Prop where
  /-- No two parameters are the same identifier. -/
  distinct : (rule.paramNames.map Host.identifierOf).Nodup
  /-- No parameter is a given name as a raw identifier. -/
  raw : ∀ name ∈ given, "r#" ++ name ∉ rule.paramNames

end Rule

theorem Host.identifierOf_raw (name : String) : identifierOf ("r#" ++ name) = name := by
  rw [identifierOf, String.toList_append]
  show String.ofList name.toList = name
  exact String.ofList_toList

/-- A word stands for itself, or it is a raw identifier. -/
theorem Host.eq_or_eq_raw (word : String) :
    identifierOf word = word ∨ word = "r#" ++ identifierOf word := by
  rw [identifierOf]
  split
  · next name hWord =>
    refine .inr (String.toList_inj.1 ?_)
    rw [hWord, String.toList_append]
    exact congrArg ('r' :: '#' :: ·) String.toList_ofList.symm
  · exact .inl rfl

namespace Procedure

variable {procedure : Procedure} {given : List (String × List Token)} {text : String}

/-- The parameters of a function are the given ones and then those of the rule. -/
theorem exists_params (h : procedure.rule.codeErrors = []) (hNonempty : given ≠ [])
    (hGiven : ∀ parameter ∈ given, Host.IsParameter parameter.1 parameter.2)
    (hText : phrase text = separated "," (given.map Prod.snd)) :
    ∃ tokens, procedure.params text = .parens tokens ∧ Host.readParameterTokens tokens =
      .ok ((given.map Prod.fst ++ procedure.rule.paramNames).map .named) := by
  obtain ⟨hLast, hBefore⟩ := Host.readParameterTokens_separated hNonempty hGiven
  obtain ⟨hRead, -⟩ := Rule.readParameters_eq_ok h
  rw [params, hText, List.map_append, List.map_map]
  refine ⟨_, rfl, ?_⟩
  cases hParams : procedure.rule.params with
  | none =>
    rw [Rule.readParameters, hParams] at hRead
    rw [← Except.ok.inj hRead, List.append_nil, List.append_nil]
    exact hLast
  | some params =>
    rw [Rule.readParameters, hParams] at hRead
    -- the text of the parameters has been read, so that it has tokens
    have hOk : (Host.readParameters params.text).isOk := congrArg Except.isOk hRead
    obtain ⟨tokens, hTokens⟩ := Option.isSome_iff_exists.1 (Host.isSome_lex_of_isOk hOk)
    replace hRead := (Host.readParameters_eq hTokens).symm.trans hRead
    have hFragment : params.tokens = tokens := by rw [Fragment.tokens, hTokens, Option.getD_some]
    show Host.readParameterTokens (separated "," (given.map Prod.snd) ++ Host.commaToken ::
      params.tokens) = _
    rw [hBefore, hFragment, hRead]
    rfl

end Procedure

/-! ### Distinct names -/

/-- Names of the generated code are different identifiers from the parameters of a rule that has been
checked, unless one of these is a raw identifier. -/
theorem Rule.nodup_identifiers {rule : Rule} (h : rule.codeErrors = []) {given : List String}
    (hGiven : given ⊆ reservedNames) (hNodup : given.Nodup) :
    ((given ++ rule.paramNames).map Host.identifierOf).Nodup ↔ rule.ParamsApart given := by
  have hPlain : ∀ name ∈ given, Host.identifierOf name = name := by
    have hAll : ∀ name ∈ reservedNames, Host.identifierOf name = name := by decide
    exact fun name hName => hAll name (hGiven hName)
  rw [List.map_append, List.map_congr_left hPlain, List.map_id', List.nodup_append']
  constructor
  · rintro ⟨-, hDistinct, hDisjoint⟩
    refine ⟨hDistinct, fun name hName hRaw => hDisjoint hName ?_⟩
    exact List.mem_map.2 ⟨_, hRaw, Host.identifierOf_raw name⟩
  · intro hApart
    refine ⟨hNodup, hApart.distinct, fun name hName hMem => ?_⟩
    obtain ⟨param, hParam, rfl⟩ := List.mem_map.1 hMem
    rcases Host.eq_or_eq_raw param with hSame | hRaw
    · -- a parameter that is written like a given name has been refused
      have hReserved := ((Rule.readParameters_eq_ok h).2 param hParam).2
      rw [hSame] at hName
      rw [isReserved, decide_eq_true (hGiven hName)] at hReserved
      cases hReserved
    · exact hApart.raw _ hName (hRaw ▸ hParam)

/-- The tokens declare a function with the given generic parameters whose parameters have the given
names. -/
def Host.Token.Binds (name generics : String) (bound : List String) (tokens : List Token) : Prop :=
  ∃ visibility parameters rest, tokens = visibility ++ phrase "fn" ++ [.word name] ++
    phrase generics ++ [.parens parameters] ++ rest ∧
    Host.readParameterTokens parameters = .ok (bound.map .named)

theorem Host.Token.binds_of_eq {name generics : String} {bound : List String}
    {tokens visibility parameters result : List Token}
    (hTokens : ∃ body, tokens = visibility ++ phrase "fn" ++ [.word name] ++
      (phrase generics ++ [.parens parameters] ++ result) ++ body)
    (hRead : Host.readParameterTokens parameters = .ok (bound.map .named)) :
    Token.Binds name generics bound tokens := by
  obtain ⟨body, rfl⟩ := hTokens
  refine ⟨visibility, parameters, result ++ body, ?_, hRead⟩
  simp only [List.append_assoc]

namespace Procedure

variable {procedure : Procedure}

/-- The names that the functions which enter a rule and match its alternatives bind. -/
def matchNames (procedure : Procedure) : List String :=
  ["walker", "state", "cursor", "frame"] ++ procedure.rule.paramNames

/-- The names that the function which walks a whole tree binds. -/
def walkNames (procedure : Procedure) : List String :=
  ["walker", "state", "root"] ++ procedure.rule.paramNames

set_option maxRecDepth 2000 in
theorem matchHead_eq (h : procedure.rule.codeErrors = []) :
    ∃ tokens, procedure.matchHead = phrase "< 't , N : TreeNode >" ++ [.parens tokens] ++
      procedure.resultType ∧
      Host.readParameterTokens tokens = .ok (procedure.matchNames.map .named) := by
  have hText : phrase ("walker : & mut Walker , state : & mut State , " ++
      "cursor : & mut Cursor < 't , N > , frame : & Frame < '_ , Scope >") =
        separated "," (matchParams.map Prod.snd) := rfl
  obtain ⟨tokens, hParams, hRead⟩ := exists_params h (by simp [matchParams])
    (List.forall_mem_append.1 isParameter_given).1 hText
  exact ⟨tokens, by rw [← hParams]; rfl, hRead⟩

/-- Each function of a rule binds the given names and then the parameters of the rule. -/
theorem binds_functions (procedure : Procedure) (h : procedure.rule.codeErrors = []) :
    Token.Binds procedure.name "< 't , N : TreeNode >" procedure.matchNames procedure.entering ∧
      Token.Binds procedure.alternativesName "< 't , N : TreeNode >" procedure.matchNames
        procedure.alternatives ∧
      Token.Binds procedure.walkName "< N : TreeNode >" procedure.walkNames procedure.walk := by
  obtain ⟨tokens, hHead, hRead⟩ := matchHead_eq h
  have hText : phrase "walker : & mut Walker , state : & mut State , root : & N" =
      separated "," (walkParams.map Prod.snd) := rfl
  obtain ⟨walkTokens, hParams, hWalkRead⟩ := exists_params h (by simp [walkParams])
    (List.forall_mem_append.1 isParameter_given).2 hText
  have hEntering : ∃ body, procedure.entering = (if procedure.isEntry then phrase "pub" else []) ++
      phrase "fn" ++ [.word procedure.name] ++
      (phrase "< 't , N : TreeNode >" ++ [.parens tokens] ++ procedure.resultType) ++ body := by
    rw [← hHead]
    exact ⟨_, rfl⟩
  have hAlternatives : ∃ body, procedure.alternatives = [] ++ phrase "fn" ++
      [.word procedure.alternativesName] ++
      (phrase "< 't , N : TreeNode >" ++ [.parens tokens] ++ procedure.resultType) ++ body := by
    rw [← hHead]
    exact ⟨_, rfl⟩
  have hWalk : ∃ body, procedure.walk = phrase "pub" ++ phrase "fn" ++ [.word procedure.walkName] ++
      (phrase "< N : TreeNode >" ++ [.parens walkTokens] ++ procedure.resultType) ++ body := by
    rw [← hParams, ← List.append_assoc, ← List.append_assoc]
    exact ⟨_, rfl⟩
  exact ⟨Token.binds_of_eq hEntering hRead, Token.binds_of_eq hAlternatives hRead,
    Token.binds_of_eq hWalk hWalkRead⟩

end Procedure

/-- The functions of a rule of an accepted grammar bind the walker, the state, a cursor and a frame
or a tree, and then the parameters of the rule. These are all identifiers. They are different if and
only if no parameter of the rule is repeated and none is the raw identifier of a name before it. -/
theorem signatures_nodup_iff {source : List Char} {options : Options} {grammar : Grammar}
    (hAccepted : (analyse source options).accepted? = some grammar) :
    (∀ procedure ∈ grammar.program.procedures,
      (Token.Binds procedure.name "< 't , N : TreeNode >" procedure.matchNames procedure.entering ∧
        Token.Binds procedure.alternativesName "< 't , N : TreeNode >" procedure.matchNames
          procedure.alternatives ∧
        Token.Binds procedure.walkName "< N : TreeNode >" procedure.walkNames procedure.walk) ∧
      (∀ name ∈ procedure.matchNames ++ procedure.walkNames, Host.isIdentifier name) ∧
      ((procedure.matchNames.map Host.identifierOf).Nodup ↔
        procedure.rule.ParamsApart ["walker", "state", "cursor", "frame"]) ∧
      ((procedure.walkNames.map Host.identifierOf).Nodup ↔
        procedure.rule.ParamsApart ["walker", "state", "root"])) ∧
    ∀ compilation code, compile source options = .ok compilation →
      compilation.code = some code → ∃ before, code = Token.print (phrase "pub mod" ++
        [.word grammar.program.name,
          .braces (before ++ grammar.program.functions.flatMap Prod.snd)]) := by
  refine ⟨fun procedure hProcedure => ?_, fun compilation code hCompile hCode => ?_⟩
  · have hErrors : procedure.rule.codeErrors = [] := by
      refine (Grammar.legible_of_accepted hAccepted).rules procedure.rule ?_
      rw [← Grammar.map_rule_procedures]
      exact List.mem_map_of_mem hProcedure
    refine ⟨procedure.binds_functions hErrors, ?identifiers,
      Rule.nodup_identifiers hErrors (by decide) (by decide),
      Rule.nodup_identifiers hErrors (by decide) (by decide)⟩
    case identifiers =>
      have hGiven : ∀ name ∈ ["walker", "state", "cursor", "frame", "root"],
          Host.isIdentifier name := by decide +kernel
      have hParams := fun name hName => ((Rule.readParameters_eq_ok hErrors).2 name hName).1
      intro name hName
      simp only [Procedure.matchNames, Procedure.walkNames, List.mem_append] at hName
      rcases hName with (hName | hName) | (hName | hName)
      · exact hGiven name ((by decide : ["walker", "state", "cursor", "frame"] ⊆ _) hName)
      · exact hParams name hName
      · exact hGiven name ((by decide : ["walker", "state", "root"] ⊆ _) hName)
      · exact hParams name hName
  · obtain ⟨before, hModule⟩ := grammar.program.moduleTokens_eq
    exact ⟨before, hModule ▸ code_eq_of_accepted hAccepted hCompile hCode⟩

namespace Sample

/-- The names that the functions of the small grammar bind are identifiers. -/
theorem signatures_nodup_iff_sample :
    ∃ grammar : Grammar, (analyse source {}).accepted? = some grammar ∧
      (∀ procedure ∈ grammar.program.procedures,
        (Token.Binds procedure.name "< 't , N : TreeNode >" procedure.matchNames
            procedure.entering ∧
          Token.Binds procedure.alternativesName "< 't , N : TreeNode >" procedure.matchNames
            procedure.alternatives ∧
          Token.Binds procedure.walkName "< N : TreeNode >" procedure.walkNames procedure.walk) ∧
        (∀ name ∈ procedure.matchNames ++ procedure.walkNames, Host.isIdentifier name) ∧
        ((procedure.matchNames.map Host.identifierOf).Nodup ↔
          procedure.rule.ParamsApart ["walker", "state", "cursor", "frame"]) ∧
        ((procedure.walkNames.map Host.identifierOf).Nodup ↔
          procedure.rule.ParamsApart ["walker", "state", "root"])) ∧
      ∀ compilation code, compile source {} = .ok compilation →
        compilation.code = some code → ∃ before, code = Token.print (phrase "pub mod" ++
          [.word grammar.program.name,
            .braces (before ++ grammar.program.functions.flatMap Prod.snd)]) :=
  ⟨_, accepted, TreeGrammar.signatures_nodup_iff accepted⟩

end Sample

/-! ### A name that is bound twice -/

namespace RawName

/-- The text `a(r#root:T):.;`. -/
def source : List Char :=
  ['a', '(', 'r', '#', 'r', 'o', 'o', 't', ':', 'T', ')', ':', '.', ';']

/-- The rule `a`, at which walks start. -/
def rule : Rule where
  name := ⟨"a", Sample.place 0⟩
  isPublic := false
  attributes := []
  params := some ⟨"r#root:T", Sample.place 2⟩
  returns := none
  alternatives := [.mk none [.wildcard 0 (Sample.place 12) none] (Sample.place 12)]

/-- The rules. -/
def rules : Rules := [rule]

/-- The grammar as it is read. -/
def written : SourceGrammar where
  rules
  elements := rules.exprs
  infos := rules.exprs.map fun expr => ⟨expr.span, none⟩

/-- The grammar that the analysis makes of the text. -/
def grammar : Grammar where
  name := ⟨"tree_grammar", Span.start⟩
  options := {}
  tokens := []
  prelude := []
  rules
  decisions := []
  scopes := []

theorem parse_source : SourceGrammar.parse source = ([], written) := by with_unfolding_all rfl

/-- The grammar is accepted. -/
theorem accepted : (analyse source {}).accepted? = some grammar := by
  have hClean : written.IsClean {} := by decide +kernel
  have hDecisions : rules.decisions rules.first rules.follows = [] := by decide +kernel
  have hScopes : rules.scopes = [] := by decide +kernel
  exact (analyse_of_isClean parse_source rfl hClean hDecisions hScopes).1

theorem isReadable_analyse : (analyse source {}).isReadable := by
  rw [analyse, parse_source]
  simp only [SourceGrammar.analyse]
  decide +kernel

/-- The grammar is accepted and code is generated for it. The parameter `r#root` of its rule is the
identifier `root`, which the function that walks from this rule binds already. -/
theorem names_not_nodup :
    ∃ compilation, compile source {} = .ok compilation ∧
      (analyse source {}).accepted? = some grammar ∧
      compilation.code = some (Token.print grammar.program.moduleTokens) ∧
      ∃ procedure ∈ grammar.program.procedures, procedure.isEntry ∧
        procedure.walkNames = ["walker", "state", "root", "r#root"] ∧
        Token.Binds procedure.walkName "< N : TreeNode >" procedure.walkNames procedure.walk ∧
        ¬ (procedure.walkNames.map Host.identifierOf).Nodup := by
  have hReadable : grammar.isReadable := by decide +kernel
  have hErrors : grammar.lexicalErrors = [] := by decide +kernel
  have hVariants : (grammar.program.procedures.filterMap Procedure.variant).find?
      (!isVariantName ·) = none := by decide +kernel
  obtain ⟨compilation, hCompile, hCode⟩ := exists_code_of_accepted accepted isReadable_analyse
    hReadable hErrors hVariants rfl
  have hRule : rule.codeErrors = [] :=
    (Grammar.legible_of_accepted accepted).rules rule (List.mem_singleton_self rule)
  have hBinds := (grammar.procedure 0 rule).binds_functions hRule
  have hEntry : (grammar.procedure 0 rule).isEntry := by decide +kernel
  have hNames : (grammar.procedure 0 rule).walkNames = ["walker", "state", "root", "r#root"] := by
    decide +kernel
  refine ⟨compilation, hCompile, accepted, hCode, grammar.procedure 0 rule, ?_, hEntry, hNames,
    hBinds.2.2, ?_⟩
  · exact List.mem_of_getElem? (@Grammar.getElem?_procedures grammar 0)
  · rw [hNames]
    decide

end RawName

end TreeGrammar
