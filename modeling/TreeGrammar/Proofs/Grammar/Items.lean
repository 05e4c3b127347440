import TreeGrammar.Proofs.Grammar.Reading

/-!
# Items that are written are read

What holds for elements holds for rules and for all other items: what is written as an outline has
it is read without an error, and it is added to what has been read before. An item is recognized by
its first character, or by its first word and the mark after it, so `tokens` and `prelude` are names
of rules if no brace follows them.

## Main results

* `ReadState.rule_yields`, `ReadState.item_yields`: rules and items that are written are read
* `SourceGrammar.parse_of_isWritten`: texts that are written are read
-/

namespace TreeGrammar

open Text

/-- A token is declared once. -/
theorem SourceGrammar.contents_addToken (grammar : SourceGrammar) (token : Ident) :
    (grammar.addToken token).contents = grammar.contents.addToken token.name := by
  have hMem : (grammar.tokens.any (·.name = token.name)) = true ↔
      token.name ∈ grammar.contents.tokens := by
    simp [SourceGrammar.contents]
  rw [addToken, Contents.addToken]
  by_cases hDeclared : token.name ∈ grammar.contents.tokens
  · rw [if_pos hDeclared, if_pos (hMem.2 hDeclared)]
  · rw [if_neg hDeclared, if_neg (mt hMem.1 hDeclared)]
    simp [SourceGrammar.contents]

theorem SourceGrammar.contents_addPrelude (grammar : SourceGrammar) (items : Fragment) :
    SourceGrammar.contents { grammar with prelude := grammar.prelude ++ [items] } =
      grammar.contents.add (.prelude items.text) := by
  simp [SourceGrammar.contents, Contents.add]

theorem SourceGrammar.contents_addOption (grammar : SourceGrammar) (option : GrammarOption) :
    SourceGrammar.contents { grammar with options := grammar.options ++ [option] } =
      grammar.contents.add (.option option.name.name (option.args.map Fragment.text)) := by
  simp [SourceGrammar.contents, Contents.add]

theorem SourceGrammar.contents_addRule (grammar : SourceGrammar) {rule : Rule}
    {part : Outline.Rule} (h : rule.outline = part.grouped) :
    SourceGrammar.contents { grammar with rules := grammar.rules ++ [rule] } =
      grammar.contents.add (.rule part) := by
  simp [SourceGrammar.contents, Contents.add, h]

variable {source : List Char} {bound : Nat} {state : ReadState source bound} {contents : Contents}
  {text rest : List Char}

/-! ### Declarations -/

theorem Outline.Declaration.IsWritten.nextIs {declaration : Declaration}
    (h : declaration.IsWritten text rest) : NextIs (fun c => isIdentStart c) text := by
  obtain ⟨hName, -, -, -, -⟩ := h
  exact hName.nextIs

namespace ReadState

/-- A declaration that is written is read. -/
theorem attr_yields {declaration : Outline.Declaration} (hWritten : declaration.IsWritten text rest)
    (hRest : NextIs (· ≠ '=') rest) (h : state.Reaches contents text) :
    state.attr.Yields fun result =>
      result.value.outline = declaration ∧ result.state.Reaches contents rest := by
  obtain ⟨name, type, init⟩ := declaration
  obtain ⟨hName, hColon, hType, hBlank, hInit⟩ := hWritten
  refine (expectIdent_yields h hName _).bind fun ⟨ident, state₁, _⟩ ⟨hIdent, h₁⟩ => ?_
  refine (eat_yields_yes h₁.reaches hColon (by decide)).bind fun found hFound => ?_
  obtain ⟨state₂, lt, rfl, h₂, hBefore⟩ := hFound
  refine (fragment_yields h₂ hBefore hType).bind fun ⟨code, state₃, _⟩ ⟨hCode, h₃⟩ => ?_
  have hNotBlank : ¬ code.isBlank = true := by simp [isBlank_eq_false (hCode ▸ hBlank)]
  dsimp only at hIdent hCode ⊢
  subst hIdent hCode
  rw [if_neg hNotBlank]
  cases hInit with
  | none =>
    refine (eat_yields_no h₃.reaches hRest).bind fun found hFound => ?_
    obtain ⟨state₄, le, rfl, h₄⟩ := hFound
    exact Attempt.yields_ok ⟨rfl, h₄⟩
  | some hInit hBlankInit =>
    refine (eat_yields_yes h₃.reaches (.none _) (by decide)).bind fun found hFound => ?_
    obtain ⟨state₄, lt, rfl, h₄, hBefore⟩ := hFound
    refine (fragment_yields h₄ hBefore hInit).bind fun ⟨value, state₅, _⟩ ⟨hValue, h₅⟩ => ?_
    have hNotBlankInit : ¬ value.isBlank = true := by
      simp [isBlank_eq_false (hValue ▸ hBlankInit)]
    dsimp only at hValue ⊢
    subst hValue
    rw [if_neg hNotBlankInit]
    exact Attempt.yields_ok ⟨rfl, h₅.reaches⟩

/-- Attributes that are written are read, up to the closing bracket. -/
theorem attributes_yields {declarations : List Outline.Declaration}
    (hWritten : IsListed Outline.Declaration.IsWritten ']' declarations text rest)
    (h : state.Reaches contents text) :
    state.attributes.Yields fun result =>
      result.value.map Attribute.outline = declarations ∧ result.state.IsAt contents rest := by
  induction hWritten generalizing state with
  | nil hEnd =>
    rw [attributes]
    refine (eat_yields_yes h hEnd (by decide)).bind fun found hFound => ?_
    obtain ⟨state₁, lt, rfl, h₁, -⟩ := hFound
    exact Attempt.yields_ok ⟨rfl, h₁⟩
  | last hItem hEnd =>
    rw [attributes]
    have hNotEnd := hItem.nextIs.ne (c := ']') (by decide)
    refine (eat_yields_no h hNotEnd).bind fun found hFound => ?_
    obtain ⟨state₁, le, rfl, h₁⟩ := hFound
    have hNext := hEnd.nextIs (p := (· ≠ '=')) (by decide) (by decide)
    refine (attr_yields hItem hNext h₁).bind fun ⟨first, state₂, _⟩ ⟨hFirst, h₂⟩ => ?_
    -- no comma follows, so the bracket has to
    refine (eat_yields_no h₂ (hEnd.nextIs (by decide) (by decide))).bind fun found hFound => ?_
    obtain ⟨state₃, le, rfl, h₃⟩ := hFound
    refine (expect_yields h₃ hEnd (by decide)).bind fun ⟨_, state₄, _⟩ ⟨h₄, _⟩ => ?_
    exact Attempt.yields_ok ⟨congrArg (fun item => [item]) hFirst, h₄⟩
  | cons hItem hComma _ ih =>
    rw [attributes]
    have hNotEnd := hItem.nextIs.ne (c := ']') (by decide)
    refine (eat_yields_no h hNotEnd).bind fun found hFound => ?_
    obtain ⟨state₁, le, rfl, h₁⟩ := hFound
    have hNext := hComma.nextIs (p := (· ≠ '=')) (by decide) (by decide)
    refine (attr_yields hItem hNext h₁).bind fun ⟨first, state₂, _⟩ ⟨hFirst, h₂⟩ => ?_
    refine (eat_yields_yes h₂ hComma (by decide)).bind fun found hFound => ?_
    obtain ⟨state₃, lt, rfl, h₃, -⟩ := hFound
    refine (ih h₃.reaches).bind fun ⟨others, state₄, _⟩ ⟨hOthers, h₄⟩ => ?_
    exact Attempt.yields_ok ⟨congrArg₂ List.cons hFirst hOthers, h₄⟩

/-- Code in parentheses is read, if there is some. -/
theorem parenthesized_yields {code : Option String}
    (hWritten : Outline.IsParenthesized code text rest)
    (hRest : code = none → NextIs (· ≠ '(') rest) (h : state.Reaches contents text) :
    state.parenthesized.Yields fun result =>
      result.value.map Fragment.text = code ∧ result.state.Reaches contents rest := by
  cases hWritten with
  | none =>
    refine (eat_yields_no h (hRest rfl)).bind fun found hFound => ?_
    obtain ⟨state₁, le, rfl, h₁⟩ := hFound
    exact Attempt.yields_ok ⟨rfl, h₁⟩
  | some hCode =>
    obtain ⟨hOpening, hCode⟩ := hCode
    refine (eat_yields_yes h hOpening (by decide)).bind fun found hFound => ?_
    obtain ⟨state₁, lt, rfl, h₁, hBefore⟩ := hFound
    refine (fragment_yields h₁ hBefore hCode).bind fun ⟨text, state₂, _⟩ ⟨hText, h₂⟩ => ?_
    refine (expect_yields h₂.reaches (.none _) (by decide)).bind fun ⟨_, state₃, _⟩ ⟨h₃, _⟩ => ?_
    exact Attempt.yields_ok ⟨congrArg some hText, h₃.reaches⟩

/-! ### Rules -/

/-- A keyword with a mark after it is seen. -/
theorem keywordAhead_eq_true {keyword : String} {c : Char} {text₁ : List Char}
    (hWord : IsWord keyword text text₁) (hMark : IsMark c text₁ rest) (hc : isSign c)
    (h : state.Reaches contents text) : state.keywordAhead keyword c = true := by
  obtain ⟨_, hIdent, ident, next, lt, rfl, hName, hNext⟩ := ident_yields_yes h hWord
  obtain ⟨ahead, hAhead, hValue, -⟩ := nextChar_yields hNext.reaches (hMark.afterGap_eq hc)
  simp [keywordAhead, hIdent, hAhead, hName, hValue]

/-- A keyword is not seen where another name comes next, or another character after it. -/
theorem keywordAhead_eq_false {keyword name : String} {c : Char} {text₁ : List Char}
    (hWord : IsWord name text text₁) (hOther : name = keyword → NextIs (· ≠ c) text₁)
    (h : state.Reaches contents text) : state.keywordAhead keyword c = false := by
  obtain ⟨_, hIdent, ident, next, lt, rfl, hName, hNext⟩ := ident_yields_yes h hWord
  by_cases hKeyword : name = keyword
  · obtain ⟨d, more, hGap, hd⟩ := hOther hKeyword
    obtain ⟨ahead, hAhead, hValue, -⟩ := nextChar_yields hNext.reaches hGap
    simp [keywordAhead, hIdent, hAhead, hValue, hd]
  · rw [keywordAhead, hIdent]
    dsimp only
    cases next.nextChar with
    | ok ahead => simp [hName, hKeyword]
    | error failure => rfl

/-- A keyword is not seen where no name comes next. -/
theorem keywordAhead_eq_false_of_nextIs {keyword : String} {c : Char}
    (hNext : NextIs (fun c => ¬ isIdentStart c) text) (h : state.Reaches contents text) :
    state.keywordAhead keyword c = false := by
  obtain ⟨c, more, hGap, hc⟩ := hNext
  obtain ⟨_, hIdent, next, le, rfl⟩ := ident_yields_no h hGap (by simpa using hc)
  rw [keywordAhead, hIdent]

/-- The return value of a rule is read, if it has one. -/
theorem returnValue_yields {declaration : Option Outline.Declaration}
    (hWritten : Outline.IsReturn declaration text rest) (hRest : NextIs (· = ':') rest)
    (h : state.Reaches contents text) :
    state.returnValue.Yields fun result =>
      result.value.map Attribute.outline = declaration ∧ result.state.Reaches contents rest := by
  rw [returnValue]
  cases hWritten with
  | none =>
    have hNoWord := hRest.mono fun c hc => show ¬ isIdentStart c by subst hc; decide
    rw [if_neg (by simp [keywordAhead_eq_false_of_nextIs hNoWord h])]
    exact Attempt.yields_ok ⟨rfl, h⟩
  | some hWord hOpening hDeclaration hClosing =>
    rw [if_pos (keywordAhead_eq_true hWord hOpening (by decide) h)]
    refine (expectIdent_yields h hWord _).bind fun ⟨_, state₁, _⟩ ⟨_, h₁⟩ => ?_
    refine (expect_yields h₁.reaches hOpening (by decide)).bind fun ⟨_, state₂, _⟩ ⟨h₂, _⟩ => ?_
    have hNext := hClosing.nextIs (p := (· ≠ '=')) (by decide) (by decide)
    refine (attr_yields hDeclaration hNext h₂.reaches).bind
      fun ⟨value, state₃, _⟩ ⟨hValue, h₃⟩ => ?_
    refine (expect_yields h₃ hClosing (by decide)).bind fun ⟨_, state₄, _⟩ ⟨h₄, _⟩ => ?_
    exact Attempt.yields_ok ⟨congrArg some hValue, h₄.reaches⟩

/-- The name of a rule is read, and whether the rule is public. -/
theorem ruleName_yields {name : String} {isPublic : Bool}
    (hWritten : Outline.IsRuleName name isPublic text rest) (h : state.Reaches contents text) :
    state.ruleName.Yields fun result => result.value.1.name = name ∧ result.value.2 = isPublic ∧
      result.state.IsAt contents rest := by
  cases hWritten with
  | plain hName hPub =>
    refine (expectIdent_yields h hName _).bind fun ⟨ident, state₁, _⟩ ⟨hIdent, h₁⟩ => ?_
    dsimp only at hIdent ⊢
    rw [if_neg (hIdent ▸ hPub)]
    exact Attempt.yields_ok ⟨hIdent, rfl, h₁⟩
  | pub hWord hName =>
    refine (expectIdent_yields h hWord _).bind fun ⟨ident, state₁, _⟩ ⟨hIdent, h₁⟩ => ?_
    dsimp only at hIdent ⊢
    rw [if_pos hIdent]
    refine (expectIdent_yields h₁.reaches hName _).bind fun ⟨ident, state₂, _⟩ ⟨hIdent, h₂⟩ => ?_
    exact Attempt.yields_ok ⟨hIdent, rfl, h₂⟩

end ReadState

namespace Outline

/-- What comes after the parameters of a rule. -/
theorem IsReturn.nextIs {returns : Option Declaration} {text₁ : List Char}
    (h : IsReturn returns text text₁) (hColon : IsMark ':' text₁ rest) :
    NextIs (fun c => isIdentStart c ∨ c = ':') text := by
  cases h with
  | none => exact hColon.nextIs (by decide) (.inr rfl)
  | some hWord => exact hWord.nextIs.mono fun _ hc => .inl hc

theorem IsParenthesized.nextIs {params : Option String} {p : Char → Prop}
    (h : IsParenthesized params text rest) (hOpening : p '(') (hRest : NextIs p rest) :
    NextIs p text := by
  cases h with
  | none => exact hRest
  | some hCode => exact hCode.nextIs (by decide) hOpening

theorem AreAttributes.nextIs {attributes : List Declaration} {p : Char → Prop}
    (h : AreAttributes attributes text rest) (hOpening : p '[') (hRest : NextIs p rest) :
    NextIs p text := by
  cases h with
  | none => exact hRest
  | some hBracket => exact hBracket.nextIs (by decide) hOpening

/-- The first word of a rule. No brace comes after its name, as it does in a list of tokens or a
prelude. -/
theorem Rule.IsWritten.exists_word {rule : Rule} (h : rule.IsWritten text rest) :
    ∃ word more, IsWord word text more ∧ ((word = "pub" ∧ rule.isPublic = true) ∨
      (word = rule.name ∧ rule.isPublic = false ∧ NextIs (· ≠ '{') more)) := by
  obtain ⟨hName, -, hAttributes, hParams, hReturns, hColon, -, -⟩ := h
  obtain ⟨name, isPublic, attributes, params, returns, alternatives⟩ := rule
  cases hName with
  | pub hWord => exact ⟨_, _, hWord, .inl ⟨rfl, rfl⟩⟩
  | plain hWord =>
    refine ⟨_, _, hWord, .inr ⟨rfl, rfl, ?_⟩⟩
    refine hAttributes.nextIs (by decide) (hParams.nextIs (by decide) ?_)
    exact (hReturns.nextIs hColon).ne (by decide)

end Outline

namespace ReadState

/-- Attributes are read if their bracket is found, and there are none if it is not. -/
theorem bracket_yields {attributes : List Outline.Declaration}
    (hWritten : Outline.AreAttributes attributes text rest) (hRest : NextIs (· ≠ '[') rest)
    (h : state.Reaches contents text) :
    (state.eat '[').Yields fun
      | .yes _ next _ => next.attributes.Yields fun result =>
          result.value.map Attribute.outline = attributes ∧ result.state.IsAt contents rest
      | .no next _ => attributes = [] ∧ next.Reaches contents rest := by
  cases hWritten with
  | none =>
    obtain ⟨_, hEat, next, le, rfl, hNext⟩ := eat_yields_no h hRest
    exact ⟨_, hEat, rfl, hNext⟩
  | some hOpening hDeclarations =>
    obtain ⟨_, hEat, next, lt, rfl, hNext, -⟩ := eat_yields_yes h hOpening (by decide)
    exact ⟨_, hEat, attributes_yields hDeclarations hNext.reaches⟩

/-- What follows the name of a rule is read. -/
theorem ruleBody_yields (name : Ident) (isPublic : Bool) {attributes : List Outline.Declaration}
    {params : Option String} {returns : Option Outline.Declaration}
    {choices : List Outline.Alternative} {text₁ text₂ text₃ text₄ text₅ : List Char}
    (hAttributes : Outline.AreAttributes attributes text text₁)
    (hParams : Outline.IsParenthesized params text₁ text₂)
    (hReturns : Outline.IsReturn returns text₂ text₃) (hColon : IsMark ':' text₃ text₄)
    (hAlternatives : Outline.AreChoices choices text₄ text₅) (hEnd : IsMark ';' text₅ rest)
    (h : state.Reaches contents text) :
    (ruleBody name isPublic state).Yields fun result =>
      result.value.outline = ⟨name.name, isPublic, attributes, params, returns,
        Outline.groupedAlternatives choices⟩ ∧ result.state.IsAt contents rest := by
  have hNext₂ := hReturns.nextIs hColon
  have hNoParams : NextIs (· ≠ '(') text₂ := hNext₂.ne (by decide)
  have hNext₁ : NextIs (fun c => c = '(' ∨ isIdentStart c ∨ c = ':') text₁ :=
    hParams.nextIs (.inl rfl) (hNext₂.mono fun _ => .inr)
  have hNoAttributes : NextIs (· ≠ '[') text₁ := hNext₁.ne (by decide)
  rw [ruleBody]
  refine (bracket_yields hAttributes hNoAttributes h).bind fun found hFound => ?_
  extract_lets later
  -- the steps after the attributes are the same with and without attributes
  have hLater : ∀ result : Onward state (List Attribute),
      result.value.map Attribute.outline = attributes → result.state.Reaches contents text₁ →
        (later result).Yields fun result =>
          result.value.outline = ⟨name.name, isPublic, attributes, params, returns,
            Outline.groupedAlternatives choices⟩ ∧ result.state.IsAt contents rest := by
    rintro ⟨found, state₁, _⟩ rfl h₁
    refine (parenthesized_yields hParams (fun _ => hNoParams) h₁).bind
      fun ⟨foundParams, state₂, _⟩ ⟨hFoundParams, h₂⟩ => ?_
    refine (returnValue_yields hReturns (hColon.nextIs (by decide) rfl) h₂).bind
      fun ⟨foundReturns, state₃, _⟩ ⟨hFoundReturns, h₃⟩ => ?_
    refine (expect_yields h₃ hColon (by decide)).bind fun ⟨_, state₄, _⟩ ⟨h₄, _⟩ => ?_
    refine (alternatives_yields (.inr rfl) hAlternatives (hEnd.nextIs (by decide) rfl) state₄
      h₄.reaches).bind fun ⟨foundChoices, state₅, _⟩ ⟨hFoundChoices, h₅⟩ => ?_
    refine (expect_yields h₅ hEnd (by decide)).bind fun ⟨_, state₆, _⟩ ⟨h₆, _⟩ => ?_
    dsimp only at hFoundParams hFoundReturns hFoundChoices
    subst hFoundParams hFoundReturns
    rw [← hFoundChoices]
    exact Attempt.yields_ok ⟨rfl, h₆⟩
  cases found with
  | no next le => exact hLater ⟨[], next, le⟩ hFound.1.symm hFound.2
  | yes _ next lt =>
    refine hFound.bind fun result hResult => ?_
    exact hLater (result.weaken (Nat.le_of_lt lt)) hResult.1 hResult.2.reaches

/-- A rule that is written is added to the contents. -/
theorem rule_yields {rule : Outline.Rule} (hWritten : rule.IsWritten text rest)
    (h : state.Reaches contents text) :
    state.rule.Yields fun result => result.state.IsAt (contents.add (.rule rule)) rest := by
  obtain ⟨hName, hRule, hAttributes, hParams, hReturns, hColon, hAlternatives, hEnd⟩ := hWritten
  refine (ruleName_yields hName h).bind
    fun ⟨⟨name, isPublic⟩, state₁, _⟩ ⟨hIdent, hPublic, h₁⟩ => ?_
  have hNotToken : ¬ name.isToken := mt (Ident.isToken_iff hIdent).1 hRule
  obtain ⟨⟨found, state₂, _⟩, hBody, hFound, h₂⟩ :=
    ruleBody_yields name isPublic hAttributes hParams hReturns hColon hAlternatives hEnd h₁.reaches
  dsimp only at hIdent hPublic hFound h₂ ⊢
  rw [if_neg hNotToken, hBody]
  refine Attempt.yields_ok ⟨h₂.rest, ?_⟩
  subst hPublic
  rw [← h₂.contents]
  exact SourceGrammar.contents_addRule _ (hFound.trans (by rw [hIdent]; rfl))

/-! ### Other items -/

theorem IsAt.addToken (h : state.IsAt contents text) (token : Ident) :
    (state.update (·.addToken token)).IsAt (contents.addToken token.name) text :=
  ⟨h.rest, by rw [← h.contents]; exact SourceGrammar.contents_addToken ..⟩

/-- Names of tokens that are written are declared one after the other, up to the closing brace. -/
theorem tokenNames_yields {names : List String}
    (hWritten : IsListed Outline.IsTokenWord '}' names text rest)
    (h : state.Reaches contents text) :
    state.tokenNames.Yields fun result =>
      result.state.IsAt (names.foldl Contents.addToken contents) rest := by
  induction hWritten generalizing state contents with
  | nil hEnd =>
    rw [tokenNames]
    refine (eat_yields_yes h hEnd (by decide)).bind fun found hFound => ?_
    obtain ⟨state₁, lt, rfl, h₁, -⟩ := hFound
    exact Attempt.yields_ok h₁
  | last hItem hEnd =>
    obtain ⟨hWord, hToken⟩ := hItem
    rw [tokenNames]
    have hNotEnd := hWord.nextIs.ne (c := '}') (by decide)
    refine (eat_yields_no h hNotEnd).bind fun found hFound => ?_
    obtain ⟨state₁, le, rfl, h₁⟩ := hFound
    refine (expectIdent_yields h₁ hWord _).bind fun ⟨token, state₂, _⟩ ⟨hName, h₂⟩ => ?_
    have hIsToken : token.isToken := (Ident.isToken_iff hName).2 hToken
    dsimp only at hName ⊢
    rw [if_pos hIsToken]
    refine (eat_yields_no (h₂.addToken token).reaches
      (hEnd.nextIs (by decide) (by decide))).bind fun found hFound => ?_
    obtain ⟨state₃, le, rfl, h₃⟩ := hFound
    refine (expect_yields h₃ hEnd (by decide)).bind fun ⟨_, state₄, _⟩ ⟨h₄, _⟩ => ?_
    rw [hName] at h₄
    exact Attempt.yields_ok h₄
  | cons hItem hComma _ ih =>
    obtain ⟨hWord, hToken⟩ := hItem
    rw [tokenNames]
    have hNotEnd := hWord.nextIs.ne (c := '}') (by decide)
    refine (eat_yields_no h hNotEnd).bind fun found hFound => ?_
    obtain ⟨state₁, le, rfl, h₁⟩ := hFound
    refine (expectIdent_yields h₁ hWord _).bind fun ⟨token, state₂, _⟩ ⟨hName, h₂⟩ => ?_
    have hIsToken : token.isToken := (Ident.isToken_iff hName).2 hToken
    dsimp only at hName ⊢
    rw [if_pos hIsToken]
    refine (eat_yields_yes (h₂.addToken token).reaches hComma (by decide)).bind
      fun found hFound => ?_
    obtain ⟨state₃, lt, rfl, h₃, -⟩ := hFound
    refine (ih h₃.reaches).bind fun ⟨_, state₄, _⟩ h₄ => ?_
    rw [hName] at h₄
    exact Attempt.yields_ok h₄

/-- A list of tokens that is written is added to the contents. -/
theorem tokenList_yields {names : List String} {text₁ text₂ : List Char}
    (hWord : IsWord "tokens" text text₁) (hOpening : IsMark '{' text₁ text₂)
    (hNames : IsListed Outline.IsTokenWord '}' names text₂ rest) (h : state.Reaches contents text) :
    state.tokenList.Yields fun result => result.state.IsAt (contents.add (.tokens names)) rest := by
  refine (expectIdent_yields h hWord _).bind fun ⟨_, state₁, _⟩ ⟨_, h₁⟩ => ?_
  refine (expect_yields h₁.reaches hOpening (by decide)).bind fun ⟨_, state₂, _⟩ ⟨h₂, _⟩ => ?_
  refine (tokenNames_yields hNames h₂.reaches).bind fun ⟨_, state₃, _⟩ h₃ => ?_
  exact Attempt.yields_ok h₃

/-- A prelude that is written is added to the contents. -/
theorem prelude_yields {code : String} {text₁ : List Char} (hWord : IsWord "prelude" text text₁)
    (hCode : IsEnclosed '{' '}' code text₁ rest) (h : state.Reaches contents text) :
    state.prelude.Yields fun result => result.state.IsAt (contents.add (.prelude code)) rest := by
  obtain ⟨hOpening, hCode⟩ := hCode
  refine (expectIdent_yields h hWord _).bind fun ⟨_, state₁, _⟩ ⟨_, h₁⟩ => ?_
  refine (expect_yields h₁.reaches hOpening (by decide)).bind
    fun ⟨_, state₂, _⟩ ⟨h₂, hBefore⟩ => ?_
  refine (fragment_yields h₂ hBefore hCode).bind fun ⟨items, state₃, _⟩ ⟨hText, h₃⟩ => ?_
  refine (expect_yields h₃.reaches (.none _) (by decide)).bind fun ⟨_, state₄, _⟩ ⟨h₄, _⟩ => ?_
  refine Attempt.yields_ok ⟨h₄.rest, ?_⟩
  exact (SourceGrammar.contents_addPrelude ..).trans (by rw [hText, h₄.contents])

/-- An option that is written is added to the contents. -/
theorem option_yields {name : String} {args : Option String}
    {text₁ text₂ text₃ text₄ text₅ : List Char} (hHash : IsMark '#' text text₁)
    (hMark : IsMark '!' text₁ text₂) (hOpening : IsMark '[' text₂ text₃)
    (hName : IsWord name text₃ text₄) (hArgs : Outline.IsParenthesized args text₄ text₅)
    (hClosing : IsMark ']' text₅ rest) (h : state.Reaches contents text) :
    state.option.Yields fun result =>
      result.state.IsAt (contents.add (.option name args)) rest := by
  refine (expect_yields h hHash (by decide)).bind fun ⟨_, state₁, _⟩ ⟨h₁, _⟩ => ?_
  refine (expect_yields h₁.reaches hMark (by decide)).bind fun ⟨_, state₂, _⟩ ⟨h₂, _⟩ => ?_
  refine (expect_yields h₂.reaches hOpening (by decide)).bind fun ⟨_, state₃, _⟩ ⟨h₃, _⟩ => ?_
  refine (expectIdent_yields h₃.reaches hName _).bind fun ⟨ident, state₄, _⟩ ⟨hIdent, h₄⟩ => ?_
  have hNoArgs := hClosing.nextIs (p := (· ≠ '(')) (by decide) (by decide)
  refine (parenthesized_yields hArgs (fun _ => hNoArgs) h₄.reaches).bind
    fun ⟨code, state₅, _⟩ ⟨hCode, h₅⟩ => ?_
  refine (expect_yields h₅ hClosing (by decide)).bind fun ⟨_, state₆, _⟩ ⟨h₆, _⟩ => ?_
  refine Attempt.yields_ok ⟨h₆.rest, ?_⟩
  exact (SourceGrammar.contents_addOption ..).trans (by rw [hIdent, hCode, h₆.contents])

/-- An item that is written is added to the contents. -/
theorem item_yields {item : Outline.Item} (hWritten : item.IsWritten text rest)
    (h : state.Reaches contents text) :
    state.item.Yields fun result => result.state.IsAt (contents.add item) rest := by
  cases hWritten with
  | option hHash hMark hOpening hName hArgs hClosing =>
    have hGap := hHash.afterGap_eq (by decide)
    refine (nextChar_yields h hGap).bind fun ⟨c, state₁, _⟩ ⟨hc, hState₁⟩ => ?_
    obtain rfl : c = some '#' := hc
    have h₁ : state₁.Reaches contents text := hState₁.reaches_of_gap hGap
    dsimp only
    rw [if_pos rfl]
    refine (option_yields hHash hMark hOpening hName hArgs hClosing h₁).bind
      fun result hResult => ?_
    exact Attempt.yields_ok hResult
  | tokens hWord hOpening hNames =>
    refine (nextChar_yields h hWord.afterGap_eq).bind fun ⟨c, state₁, _⟩ ⟨hc, hState₁⟩ => ?_
    obtain rfl : c = some 't' := hc
    have h₁ : state₁.Reaches contents text := hState₁.reaches_of_gap hWord.afterGap_eq
    dsimp only
    rw [if_neg (by decide), if_pos (keywordAhead_eq_true hWord hOpening (by decide) h₁)]
    refine (tokenList_yields hWord hOpening hNames h₁).bind fun result hResult => ?_
    exact Attempt.yields_ok hResult
  | prelude hWord hCode =>
    refine (nextChar_yields h hWord.afterGap_eq).bind fun ⟨c, state₁, _⟩ ⟨hc, hState₁⟩ => ?_
    obtain rfl : c = some 'p' := hc
    have h₁ : state₁.Reaches contents text := hState₁.reaches_of_gap hWord.afterGap_eq
    have hOther : state₁.keywordAhead "tokens" '{' = false :=
      keywordAhead_eq_false hWord nofun h₁
    have hAhead : state₁.keywordAhead "prelude" '{' = true := by
      obtain ⟨hOpening, -⟩ := hCode
      exact keywordAhead_eq_true hWord hOpening (by decide) h₁
    dsimp only
    rw [if_neg (by decide), if_neg (by simp [hOther]), if_pos hAhead]
    refine (prelude_yields hWord hCode h₁).bind fun result hResult => ?_
    exact Attempt.yields_ok hResult
  | rule hRule =>
    obtain ⟨word, more, hWord, hOther⟩ := hRule.exists_word
    obtain ⟨c, others, hName, hStart⟩ := hWord.exists_cons
    refine (nextChar_yields h hWord.afterGap_eq).bind fun ⟨d, state₁, _⟩ ⟨hd, hState₁⟩ => ?_
    obtain rfl : d = some c := by rw [show d = _ from hd, hName]; rfl
    have h₁ : state₁.Reaches contents text := hState₁.reaches_of_gap hWord.afterGap_eq
    have hNoHash : ¬ some c = some '#' := by
      rintro hEq
      obtain rfl := Option.some.inj hEq
      exact absurd hStart (by decide)
    -- `tokens` and `prelude` are no keywords here, since no brace follows the name of a rule
    have hNoKeyword : ∀ keyword, keyword ≠ "pub" → ¬ state₁.keywordAhead keyword '{' = true := by
      intro keyword hKeyword
      have hNext : word = keyword → NextIs (· ≠ '{') more := fun hEq =>
        (hOther.resolve_left fun hPub => hKeyword (hEq.symm.trans hPub.1)).2.2
      simp [keywordAhead_eq_false hWord hNext h₁]
    dsimp only
    rw [if_neg hNoHash, if_neg (hNoKeyword "tokens" (by decide)),
      if_neg (hNoKeyword "prelude" (by decide)), if_pos (by exact hStart)]
    refine (rule_yields hRule h₁).bind fun result hResult => ?_
    exact Attempt.yields_ok hResult

end ReadState

/-! ### Whole texts -/

namespace Outline

/-- Something comes next where an item is written. -/
theorem Item.IsWritten.exists_afterGap {item : Item} (h : item.IsWritten text rest) :
    ∃ c more, afterGap text = some (c :: more) := by
  have hSome {p : Char → Prop} : NextIs p text → ∃ c more, afterGap text = some (c :: more) := by
    rintro ⟨c, more, hGap, -⟩
    exact ⟨c, more, hGap⟩
  cases h with
  | option hHash => exact ⟨_, _, hHash.afterGap_eq (by decide)⟩
  | tokens hWord => exact hSome hWord.nextIs
  | prelude hWord => exact hSome hWord.nextIs
  | rule hRule =>
    obtain ⟨word, more, hWord, -⟩ := hRule.exists_word
    exact hSome hWord.nextIs

/-- A text does not begin with the word `tree`. -/
def HasNoHeader (text : List Char) : Prop :=
  (∃ word more, IsWord word text more ∧ word ≠ "tree") ∨
    ∃ rest, afterGap text = some rest ∧ ∀ c ∈ rest.head?, ¬ isIdentStart c

/-- A mark is no word. -/
theorem hasNoHeader_of_isMark {c : Char} {text rest : List Char} (h : IsMark c text rest)
    (hc : isSign c) (hStart : ¬ isIdentStart c) : HasNoHeader text := by
  refine .inr ⟨_, h.afterGap_eq hc, fun d hd => ?_⟩
  obtain rfl := Option.some.inj hd
  exact hStart

/-- An item does not begin with the word `tree`, unless it is like a header. -/
theorem Item.IsWritten.hasNoHeader {item : Item} (h : item.IsWritten text rest)
    (hLike : ¬ item.IsHeaderLike) : HasNoHeader text := by
  cases h with
  | option hHash => exact hasNoHeader_of_isMark hHash (by decide) (by decide)
  | tokens hWord => exact .inl ⟨_, _, hWord, by decide⟩
  | prelude hWord => exact .inl ⟨_, _, hWord, by decide⟩
  | rule hRule =>
    obtain ⟨word, more, hWord, ⟨rfl, -⟩ | ⟨rfl, hPlain, -⟩⟩ := hRule.exists_word
    · exact .inl ⟨_, _, hWord, by decide⟩
    · exact .inl ⟨_, _, hWord, fun hTree => hLike ⟨hTree, hPlain⟩⟩

/-- Items do not begin with the word `tree`, unless the first one is like a header. -/
theorem AreItems.hasNoHeader {items : List Item} (h : AreItems items text)
    (hFirst : ∀ item ∈ items.head?, ¬ item.IsHeaderLike) : HasNoHeader text := by
  cases h with
  | nil hEnd => exact .inr ⟨[], hEnd.afterGap_eq.trans afterGap_nil, nofun⟩
  | cons hItem => exact hItem.hasNoHeader (hFirst _ rfl)

end Outline

namespace ReadState

theorem header_of_ident {state : ReadState source bound} {word : Ident}
    {next : ReadState source bound} {lt : next.remaining < state.remaining}
    (hIdent : state.ident = .ok (.yes word next lt)) (hTree : word.name ≠ "tree") :
    state.header = .ok ⟨(), state, state.remaining_le_self⟩ := by
  rw [header, hIdent]
  dsimp only
  rw [if_neg hTree]
  rfl

/-- Where the first word is not `tree`, or where there is no word, nothing is read as a header. -/
theorem header_of_hasNoHeader (hText : Outline.HasNoHeader text) (h : state.Reaches {} text) :
    state.header = .ok ⟨(), state, state.remaining_le_self⟩ := by
  rcases hText with ⟨word, more, hWord, hTree⟩ | ⟨rest, hGap, hRest⟩
  · obtain ⟨_, hIdent, ident, next, lt, rfl, hName, -⟩ := ident_yields_yes h hWord
    exact header_of_ident hIdent (hName ▸ hTree)
  · obtain ⟨_, hIdent, next, le, rfl⟩ := ident_yields_no h hGap hRest
    rw [header, hIdent]
    rfl

/-- The header is read, if there is one. -/
theorem header_yields {outline : Outline} (hWritten : outline.IsWritten text)
    (h : state.Reaches {} text) :
    state.header.Yields fun result => ∃ rest, Outline.AreItems outline.items rest ∧
      result.state.Reaches { name := outline.header.getD "tree_grammar" } rest := by
  cases hWritten with
  | plain hItems hFirst =>
    exact ⟨_, header_of_hasNoHeader (hItems.hasNoHeader hFirst) h, _, hItems, h⟩
  | header hTree hGrammar hName hEnd hItems =>
    obtain ⟨_, hIdent, ident, state₁, lt, rfl, hWord, h₁⟩ := ident_yields_yes h hTree
    rw [header, hIdent]
    dsimp only
    rw [if_pos hWord]
    refine (expectIdent_yields h₁.reaches hGrammar _).bind
      fun ⟨keyword, state₂, _⟩ ⟨hKeyword, h₂⟩ => ?_
    dsimp only at hKeyword ⊢
    rw [if_pos hKeyword]
    refine (expectIdent_yields h₂.reaches hName _).bind fun ⟨name, state₃, _⟩ ⟨hIdent, h₃⟩ => ?_
    have hNamed : (state₃.update fun grammar => { grammar with name }).Reaches
        { name := name.name } _ :=
      ⟨h₃.reaches.gap, congrArg (fun contents => { contents with name := name.name }) h₃.contents⟩
    refine (expect_yields hNamed hEnd (by decide)).bind fun ⟨_, state₄, _⟩ ⟨h₄, _⟩ => ?_
    rw [show name.name = _ from hIdent] at h₄
    exact Attempt.yields_ok ⟨_, hItems, h₄.reaches⟩

/-- At the end of a text there are no more items. -/
theorem items_of_end {c : Option Char} {state₁ : ReadState source bound}
    {le : state₁.remaining ≤ state.remaining} (hNext : state.nextChar = .ok ⟨c, state₁, le⟩)
    (hEnd : state₁.rest = []) : state.items = ([], state₁.grammar) := by
  rw [items, hNext]
  exact dif_pos (remaining_eq_zero hEnd)

/-- After an item, other items are read. -/
theorem items_of_ok {c : Option Char} {state₁ : ReadState source bound}
    {le : state₁.remaining ≤ state.remaining} (hNext : state.nextChar = .ok ⟨c, state₁, le⟩)
    (hPos : 0 < state₁.remaining) {result : Ahead state₁.tighten Unit}
    (hItem : state₁.tighten.item = .ok result) : state.items = result.state.items := by
  rw [items, hNext]
  dsimp only
  rw [dif_neg (Nat.ne_of_gt hPos), hItem]

/-- After an error, other items are read from the place on that the recovery finds. -/
theorem items_of_error {c : Option Char} {state₁ : ReadState source bound}
    {le : state₁.remaining ≤ state.remaining} (hNext : state.nextChar = .ok ⟨c, state₁, le⟩)
    (hPos : 0 < state₁.remaining) {error : SyntaxError}
    {state₂ : ReadState source state₁.remaining}
    (hItem : state₁.tighten.item = .error (error, state₂)) :
    state.items = (error :: (state₂.recover 0).1.items.1, (state₂.recover 0).1.items.2) := by
  rw [items, hNext]
  dsimp only
  rw [dif_neg (Nat.ne_of_gt hPos), hItem]

/-- An item that is written is read before the other ones. -/
theorem items_of_isWritten {item : Outline.Item} (hItem : item.IsWritten text rest) {bound : Nat}
    {state : ReadState source bound} (h : state.Reaches contents text) :
    ∃ (c : Option Char) (near : ReadState source bound) (le : near.remaining ≤ state.remaining)
      (result : Ahead near.tighten Unit), state.nextChar = .ok ⟨c, near, le⟩ ∧
        near.tighten.item = .ok result ∧ result.state.IsAt (contents.add item) rest ∧
        state.items = result.state.items := by
  obtain ⟨c, more, hGap⟩ := hItem.exists_afterGap
  obtain ⟨⟨d, near, le⟩, hNext, -, hNear⟩ := nextChar_yields h hGap
  have hReaches : near.Reaches contents text := hNear.reaches_of_gap hGap
  have hTight : near.tighten.Reaches contents text := ⟨hReaches.gap, hReaches.contents⟩
  obtain ⟨result, hRead, hResult⟩ := item_yields hItem hTight
  have hPos : 0 < near.remaining := remaining_pos hNear.rest
  exact ⟨d, near, le, result, hNext, hRead, hResult, items_of_ok hNext hPos hRead⟩

/-- Items that are written are read one after the other. -/
theorem items_of_areItems {parts : List Outline.Item} (hWritten : Outline.AreItems parts text)
    {bound : Nat} {state : ReadState source bound} (h : state.Reaches contents text) :
    state.items.1 = [] ∧ state.items.2.contents = parts.foldl Contents.add contents := by
  induction hWritten generalizing bound contents with
  | nil hEnd =>
    have hGap := hEnd.afterGap_eq.trans afterGap_nil
    obtain ⟨⟨_, state₁, _⟩, hNext, -, h₁⟩ := nextChar_yields h hGap
    rw [items_of_end hNext h₁.rest]
    exact ⟨rfl, h₁.contents⟩
  | cons hItem _ ih =>
    obtain ⟨_, _, _, _, -, -, hNext, hItems⟩ := items_of_isWritten hItem h
    rw [hItems]
    exact ih hNext.reaches

end ReadState

/-- After the header, items are read. -/
theorem SourceGrammar.parse_eq_of_header {source : List Char}
    {result : Onward (ReadState.ofText source) Unit}
    (h : (ReadState.ofText source).header = .ok result) : parse source = result.state.items := by
  rw [parse]
  split
  · next hEq =>
    cases h.symm.trans hEq
    rfl
  · next hEq => cases h.symm.trans hEq

/-- A text that is written as an outline has it is read without an error, and what is read says
what the outline says. -/
theorem SourceGrammar.parse_of_isWritten {outline : Outline} {source : List Char}
    (h : outline.IsWritten source) :
    (parse source).1 = [] ∧ (parse source).2.contents = outline.contents := by
  have hStart : (ReadState.ofText source).Reaches {} source := ⟨rfl, rfl⟩
  obtain ⟨⟨_, state, _⟩, hHeader, rest, hItems, hState⟩ := ReadState.header_yields h hStart
  have hRead := ReadState.items_of_areItems hItems hState
  rw [parse_eq_of_header hHeader]
  exact hRead

end TreeGrammar
