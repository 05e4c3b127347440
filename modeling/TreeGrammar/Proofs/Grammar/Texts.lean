import TreeGrammar.Proofs.Grammar.Items
import TreeGrammar.Proofs.Grammar.Origin

/-!
# Texts that are read without an error

What is read as an item is written as one, so a text in which no error is found is written as some
outline has it, and the contents of that outline are what has been read. The converse has been shown
before. So the notation of grammars is exactly what the parser reads.

## Main results

* `ReadState.rule_reveals`, `ReadState.item_reveals`: what is read as a rule or as another item
* `SourceGrammar.exists_isWritten_of_parse`: a text without errors is written as an outline has it
* `SourceGrammar.parse_eq_iff`: the texts without errors, and what is read of them
-/

namespace TreeGrammar

open Text

variable {source : List Char} {bound : Nat} {state : ReadState source bound} {contents : Contents}
  {text rest : List Char}

namespace ReadState

/-! ### Declarations -/

/-- What is read as a declaration is written as one. -/
theorem attr_reveals (h : state.Follows contents text) :
    state.attr.Reveals fun result => ∃ text₁, result.value.outline.IsWritten text text₁ ∧
      result.state.Follows contents text₁ := by
  refine (expectIdent_reveals h _).bind fun ⟨name, state₁, _⟩ ⟨hName, h₁⟩ => ?_
  refine (eat_reveals h₁ (by decide)).bind fun found hFound => ?_
  cases found with
  | no => trivial
  | yes _ state₂ _ =>
    obtain ⟨hColon, h₂, hBefore⟩ := hFound
    refine (fragment_reveals _ _ h₂ hBefore).bind fun ⟨type, state₃, _⟩ ⟨hType, hStop, h₃⟩ => ?_
    dsimp only
    split
    · trivial
    next hBlank =>
    refine (eat_reveals h₃ (by decide)).bind fun found hFound => ?_
    cases found with
    | no state₄ _ =>
      exact ⟨_, .intro hName hColon hType (not_isBlankCode hBlank) (.none _), hFound⟩
    | yes _ state₄ _ =>
      obtain ⟨hEquals, h₄, hBefore⟩ := hFound
      refine (fragment_reveals _ _ h₄ hBefore).bind fun ⟨init, state₅, _⟩ ⟨hInit, _, h₅⟩ => ?_
      dsimp only
      split
      · trivial
      · next hBlankInit =>
        -- the equals sign stands where the type ends
        obtain ⟨c, more, hRest, hc⟩ := hStop
        have hSigns : [',', '=', ']'].all isSign := by decide
        have hSign : isSign c := List.all_eq_true.1 hSigns c hc
        obtain ⟨rfl, rfl⟩ := (hRest ▸ hEquals).eq_of_cons (by decide) hSign
        refine ⟨_, .intro hName hColon hType (not_isBlankCode hBlank) ?_, h₅⟩
        rw [show state₃.rest = _ from hRest]
        exact .some hInit (not_isBlankCode hBlankInit)

/-- What is read as attributes is written as declarations, with a mark at the end. -/
theorem attributes_reveals {text : List Char} (state : ReadState source bound)
    (h : state.Follows contents text) :
    state.attributes.Reveals fun result =>
      IsListed Outline.Declaration.IsWritten ']' (result.value.map Attribute.outline) text
        result.state.rest ∧ result.state.Follows contents result.state.rest := by
  rw [attributes]
  refine (eat_reveals h (by decide)).bind fun found hFound => ?_
  cases found with
  | yes _ state₁ _ =>
    obtain ⟨hEnd, h₁, -⟩ := hFound
    exact ⟨.nil hEnd, h₁⟩
  | no state₁ hLe =>
    refine (attr_reveals hFound).bind ?_
    rintro ⟨first, state₂, hLess⟩ ⟨text₂, hFirst, h₂⟩
    refine (eat_reveals h₂ (by decide)).bind fun found hFound => ?_
    cases found with
    | yes _ state₃ hLess' =>
      obtain ⟨hComma, h₃, -⟩ := hFound
      have hAgain : state₃.remaining < state₂.remaining := hLess'
      refine (attributes_reveals state₃ h₃).bind ?_
      rintro ⟨others, state₄, _⟩ ⟨hOthers, h₄⟩
      exact ⟨.cons hFirst hComma hOthers, h₄⟩
    | no state₃ _ =>
      refine (expect_reveals hFound (by decide)).bind ?_
      rintro ⟨_, state₄, _⟩ ⟨hEnd, h₄, _⟩
      exact ⟨.last hFirst hEnd, h₄⟩
termination_by state.remaining

/-- What is read as code in parentheses is written as such. -/
theorem parenthesized_reveals (h : state.Follows contents text) :
    state.parenthesized.Reveals fun result => ∃ text₁,
      Outline.IsParenthesized (result.value.map Fragment.text) text text₁ ∧
        result.state.Follows contents text₁ := by
  refine (eat_reveals h (by decide)).bind fun found hFound => ?_
  cases found with
  | no state₁ _ => exact ⟨text, .none text, hFound⟩
  | yes _ state₁ _ =>
    obtain ⟨hOpening, h₁, hBefore⟩ := hFound
    refine (fragment_reveals _ _ h₁ hBefore).bind fun ⟨code, state₂, _⟩ ⟨hCode, hStop, h₂⟩ => ?_
    refine (expect_reveals h₂ (by decide)).bind fun ⟨_, state₃, _⟩ ⟨hClosing, h₃, _⟩ => ?_
    exact ⟨_, .some ⟨hOpening, hCode.of_isMark hStop hClosing (by decide)⟩, h₃⟩

/-! ### Rules -/

/-- A keyword that is seen is there. -/
theorem exists_isWord_of_keywordAhead {keyword : String} {c : Char}
    (hAhead : state.keywordAhead keyword c = true) (h : state.Follows contents text) :
    ∃ text₁, IsWord keyword text text₁ := by
  have hFound := ident_reveals h
  rw [keywordAhead] at hAhead
  split at hAhead
  · next ident next _ hIdent =>
    have hFound := hFound.of_eq hIdent
    split at hAhead
    · rw [Bool.and_eq_true, decide_eq_true_eq] at hAhead
      exact ⟨next.rest, hAhead.1 ▸ hFound.1⟩
    · cases hAhead
  · cases hAhead

/-- What is read as a return value is written as one. -/
theorem returnValue_reveals (h : state.Follows contents text) :
    state.returnValue.Reveals fun result => ∃ text₁,
      Outline.IsReturn (result.value.map Attribute.outline) text text₁ ∧
        result.state.Follows contents text₁ := by
  rw [returnValue]
  split
  · next hAhead =>
    obtain ⟨_, hKeyword⟩ := exists_isWord_of_keywordAhead hAhead h
    refine (expectIdent_reveals h _).bind ?_
    rintro ⟨word, state₁, _⟩ ⟨hWord, h₁⟩
    refine (expect_reveals h₁ (by decide)).bind ?_
    rintro ⟨_, state₂, _⟩ ⟨hOpening, h₂, _⟩
    refine (attr_reveals h₂).bind ?_
    rintro ⟨value, state₃, _⟩ ⟨text₃, hValue, h₃⟩
    refine (expect_reveals h₃ (by decide)).bind ?_
    rintro ⟨_, state₄, _⟩ ⟨hClosing, h₄, _⟩
    exact ⟨_, .some (hWord.eq hKeyword ▸ hWord) hOpening hValue hClosing, h₄⟩
  · exact ⟨text, .none text, h⟩

/-- What is read as the name of a rule is written as one. -/
theorem ruleName_reveals (h : state.Follows contents text) :
    state.ruleName.Reveals fun result =>
      Outline.IsRuleName result.value.1.name result.value.2 text result.state.rest ∧
        result.state.Follows contents result.state.rest := by
  refine (expectIdent_reveals h _).bind fun ⟨word, state₁, _⟩ ⟨hWord, h₁⟩ => ?_
  dsimp only
  split
  · next hPub =>
    refine (expectIdent_reveals h₁ _).bind fun ⟨name, state₂, _⟩ ⟨hName, h₂⟩ => ?_
    exact ⟨.pub (hPub ▸ hWord) hName, h₂⟩
  · next hPub => exact ⟨.plain hWord hPub, h₁⟩

/-- What is read after the name of a rule is the rest of a rule. -/
theorem ruleBody_reveals {start : List Char} {name : Ident} {isPublic : Bool}
    (hName : Outline.IsRuleName name.name isPublic start text) (hRule : ¬ IsTokenName name.name)
    (h : state.Follows contents text) :
    (ruleBody name isPublic state).Reveals fun result => ∃ rule : Outline.Rule,
      rule.IsWritten start result.state.rest ∧ result.value.outline = rule.grouped ∧
        result.state.Follows contents result.state.rest := by
  rw [ruleBody]
  refine (eat_reveals h (by decide)).bind fun found hFound => ?_
  extract_lets later
  -- the steps after the attributes are the same with and without attributes
  have hLater : ∀ (result : Onward state (List Attribute)) (text₁ : List Char),
      Outline.AreAttributes (result.value.map Attribute.outline) text text₁ →
        result.state.Follows contents text₁ →
          (later result).Reveals fun result => ∃ rule : Outline.Rule,
            rule.IsWritten start result.state.rest ∧ result.value.outline = rule.grouped ∧
              result.state.Follows contents result.state.rest := by
    rintro ⟨attributes, state₁, _⟩ text₁ hAttributes h₁
    refine (parenthesized_reveals h₁).bind ?_
    rintro ⟨params, state₂, _⟩ ⟨text₂, hParams, h₂⟩
    refine (returnValue_reveals h₂).bind ?_
    rintro ⟨returns, state₃, _⟩ ⟨text₃, hReturns, h₃⟩
    refine (expect_reveals h₃ (by decide)).bind ?_
    rintro ⟨_, state₄, _⟩ ⟨hColon, h₄, _⟩
    refine (alternatives_reveals ';' state₄ h₄).bind ?_
    rintro ⟨alternatives, state₅, _⟩ hResult
    obtain ⟨choices, text₅, hChoices, hAlternatives, h₅⟩ := hResult
    refine (expect_reveals h₅ (by decide)).bind ?_
    rintro ⟨_, state₆, _⟩ ⟨hEnd, h₆, _⟩
    refine ⟨⟨name.name, isPublic, attributes.map Attribute.outline, params.map Fragment.text,
      returns.map Attribute.outline, choices⟩,
      .intro hName hRule hAttributes hParams hReturns hColon hChoices hEnd, ?_, h₆⟩
    exact congrArg (Outline.Rule.mk name.name isPublic (attributes.map Attribute.outline)
      (params.map Fragment.text) (returns.map Attribute.outline)) hAlternatives
  cases found with
  | no next le => exact hLater ⟨[], next, le⟩ text (.none text) hFound
  | yes _ next lt =>
    obtain ⟨hOpening, hNext, -⟩ := hFound
    refine (attributes_reveals next hNext).bind ?_
    rintro result ⟨hDeclarations, hResult⟩
    exact hLater (result.weaken (Nat.le_of_lt lt)) _ (.some hOpening hDeclarations) hResult

/-- What is read as a rule is written as one, and it is added to the contents. -/
theorem rule_reveals (h : state.Follows contents text) :
    state.rule.Reveals fun result => ∃ rule : Outline.Rule, rule.IsWritten text result.state.rest ∧
      result.state.Follows (contents.add (.rule rule)) result.state.rest := by
  refine (ruleName_reveals h).bind fun ⟨⟨name, isPublic⟩, state₁, _⟩ ⟨hName, h₁⟩ => ?_
  dsimp only
  split
  · trivial
  next hToken =>
  have hBody := ruleBody_reveals hName (mt (Ident.isToken_iff rfl).2 hToken) h₁
  split
  · next rule state₂ _ hEq =>
    obtain ⟨part, hWritten, hOutline, h₂⟩ := hBody.of_eq hEq
    refine ⟨part, hWritten, .none _, ?_⟩
    rw [← h₂.contents]
    exact SourceGrammar.contents_addRule _ hOutline
  · trivial

/-! ### Other items -/

/-- What is read as names of tokens is written as such, and all of them are declared. -/
theorem tokenNames_reveals {contents : Contents} {text : List Char}
    (state : ReadState source bound) (h : state.Follows contents text) :
    state.tokenNames.Reveals fun result => ∃ names,
      IsListed Outline.IsTokenWord '}' names text result.state.rest ∧
        result.state.Follows (names.foldl Contents.addToken contents) result.state.rest := by
  rw [tokenNames]
  refine (eat_reveals h (by decide)).bind fun found hFound => ?_
  cases found with
  | yes _ state₁ _ =>
    obtain ⟨hEnd, h₁, -⟩ := hFound
    exact ⟨[], .nil hEnd, h₁⟩
  | no state₁ hLe =>
    refine (expectIdent_reveals hFound _).bind ?_
    rintro ⟨token, state₂, hLess⟩ ⟨hName, h₂⟩
    dsimp only
    split
    · next hToken =>
      have hItem : Outline.IsTokenWord token.name text state₂.rest :=
        ⟨hName, (Ident.isToken_iff rfl).1 hToken⟩
      -- the token is declared before the comma or the closing brace is read
      have h₃ : (state₂.update (·.addToken token)).Follows (contents.addToken token.name)
          state₂.rest :=
        ⟨.none _, by rw [← h₂.contents]; exact SourceGrammar.contents_addToken ..⟩
      refine (eat_reveals h₃ (by decide)).bind fun found hFound => ?_
      cases found with
      | yes _ state₄ hLess' =>
        have hAgain : state₄.remaining < state₂.remaining := hLess'
        obtain ⟨hComma, h₄, -⟩ := hFound
        refine (tokenNames_reveals state₄ h₄).bind ?_
        rintro ⟨_, state₅, _⟩ ⟨names, hNames, h₅⟩
        exact ⟨token.name :: names, .cons hItem hComma hNames, h₅⟩
      | no state₄ _ =>
        refine (expect_reveals hFound (by decide)).bind ?_
        rintro ⟨_, state₅, _⟩ ⟨hEnd, h₅, _⟩
        exact ⟨[token.name], .last hItem hEnd, h₅⟩
    · trivial
termination_by state.remaining

/-- What is read as a list of tokens is written as one. -/
theorem tokenList_reveals {text₁ : List Char} (hKeyword : IsWord "tokens" text text₁)
    (h : state.Follows contents text) :
    state.tokenList.Reveals fun result => ∃ names,
      (Outline.Item.tokens names).IsWritten text result.state.rest ∧
        result.state.Follows (contents.add (.tokens names)) result.state.rest := by
  refine (expectIdent_reveals h _).bind fun ⟨word, state₁, _⟩ ⟨hWord, h₁⟩ => ?_
  refine (expect_reveals h₁ (by decide)).bind fun ⟨_, state₂, _⟩ ⟨hOpening, h₂, _⟩ => ?_
  refine (tokenNames_reveals state₂ h₂).bind fun ⟨_, state₃, _⟩ ⟨names, hNames, h₃⟩ => ?_
  exact ⟨names, .tokens (hWord.eq hKeyword ▸ hWord) hOpening hNames, h₃⟩

/-- What is read as a prelude is written as one. -/
theorem prelude_reveals {text₁ : List Char} (hKeyword : IsWord "prelude" text text₁)
    (h : state.Follows contents text) :
    state.prelude.Reveals fun result => ∃ code,
      (Outline.Item.prelude code).IsWritten text result.state.rest ∧
        result.state.Follows (contents.add (.prelude code)) result.state.rest := by
  refine (expectIdent_reveals h _).bind fun ⟨word, state₁, _⟩ ⟨hWord, h₁⟩ => ?_
  refine (expect_reveals h₁ (by decide)).bind fun ⟨_, state₂, _⟩ ⟨hOpening, h₂, hBefore⟩ => ?_
  refine (fragment_reveals _ _ h₂ hBefore).bind fun ⟨items, state₃, _⟩ ⟨hCode, hStop, h₃⟩ => ?_
  refine (expect_reveals h₃ (by decide)).bind fun ⟨_, state₄, _⟩ ⟨hClosing, h₄, _⟩ => ?_
  refine ⟨items.text, .prelude (hWord.eq hKeyword ▸ hWord)
    ⟨hOpening, hCode.of_isMark hStop hClosing (by decide)⟩, .none _, ?_⟩
  exact (SourceGrammar.contents_addPrelude ..).trans (by rw [h₄.contents])

/-- What is read as an option is written as one. -/
theorem option_reveals (h : state.Follows contents text) :
    state.option.Reveals fun result => ∃ name args,
      (Outline.Item.option name args).IsWritten text result.state.rest ∧
        result.state.Follows (contents.add (.option name args)) result.state.rest := by
  refine (expect_reveals h (by decide)).bind fun ⟨_, state₁, _⟩ ⟨hHash, h₁, _⟩ => ?_
  refine (expect_reveals h₁ (by decide)).bind fun ⟨_, state₂, _⟩ ⟨hMark, h₂, _⟩ => ?_
  refine (expect_reveals h₂ (by decide)).bind fun ⟨_, state₃, _⟩ ⟨hOpening, h₃, _⟩ => ?_
  refine (expectIdent_reveals h₃ _).bind fun ⟨name, state₄, _⟩ ⟨hName, h₄⟩ => ?_
  refine (parenthesized_reveals h₄).bind fun ⟨args, state₅, _⟩ ⟨text₅, hArgs, h₅⟩ => ?_
  refine (expect_reveals h₅ (by decide)).bind fun ⟨_, state₆, _⟩ ⟨hClosing, h₆, _⟩ => ?_
  refine ⟨name.name, args.map Fragment.text, .option hHash hMark hOpening hName hArgs hClosing,
    .none _, ?_⟩
  exact (SourceGrammar.contents_addOption ..).trans (by rw [h₆.contents])

/-- What is read as an item is written as one, and it is added to the contents. -/
theorem item_reveals (h : state.Follows contents text) :
    state.item.Reveals fun result => ∃ part : Outline.Item,
      part.IsWritten text result.state.rest ∧
        result.state.Follows (contents.add part) result.state.rest := by
  refine (nextChar_reveals h).bind fun ⟨c, state₁, _⟩ ⟨_, _, h₁⟩ => ?_
  dsimp only
  split
  · refine (option_reveals h₁).bind fun result ⟨name, args, hResult⟩ => ?_
    exact ⟨.option name args, hResult⟩
  split
  · next hAhead =>
    obtain ⟨_, hKeyword⟩ := exists_isWord_of_keywordAhead hAhead h₁
    refine (tokenList_reveals hKeyword h₁).bind fun result ⟨names, hResult⟩ => ?_
    exact ⟨.tokens names, hResult⟩
  split
  · next hAhead =>
    obtain ⟨_, hKeyword⟩ := exists_isWord_of_keywordAhead hAhead h₁
    refine (prelude_reveals hKeyword h₁).bind fun result ⟨code, hResult⟩ => ?_
    exact ⟨.prelude code, hResult⟩
  split
  · refine (rule_reveals h₁).bind fun result ⟨rule, hWritten, hResult⟩ => ?_
    exact ⟨.rule rule, .rule hWritten, hResult⟩
  · trivial

end ReadState

/-! ### Whole texts -/

/-- Items of which the first one is like a header begin with the word `tree`. -/
theorem Outline.AreItems.isWord_tree {parts : List Item} (h : AreItems parts text) {item : Item}
    (hFirst : item ∈ parts.head?) (hLike : item.IsHeaderLike) :
    ∃ rest, IsWord "tree" text rest := by
  cases h with
  | nil => cases hFirst
  | cons hItem =>
    obtain rfl := Option.some.inj hFirst
    cases hItem with
    | rule hRule =>
      obtain ⟨hTree, hPlain⟩ := hLike
      obtain ⟨word, more, hWord, ⟨-, hPub⟩ | ⟨hName, -, -⟩⟩ := hRule.exists_word
      · exact absurd (hPlain.symm.trans hPub) (by decide)
      · exact ⟨more, hTree ▸ hName ▸ hWord⟩
    | option | tokens | prelude => exact hLike.elim

namespace ReadState

/-- Items that are read without an error are written one after the other. -/
theorem items_reveal {bound : Nat} {contents : Contents} {text : List Char}
    (state : ReadState source bound) (h : state.Follows contents text)
    (hErrors : state.items.1 = []) :
    ∃ parts, Outline.AreItems parts text ∧
      state.items.2.contents = parts.foldl Contents.add contents := by
  have hNext := nextChar_reveals h
  rw [items] at hErrors ⊢
  cases hChar : state.nextChar with
  | error =>
    rw [hChar] at hErrors
    cases hErrors
  | ok result =>
    obtain ⟨hGap, -, h₁⟩ := hNext.of_eq hChar
    obtain ⟨_, state₁, hLe⟩ := result
    rw [hChar] at hErrors
    dsimp only at hGap h₁ hErrors ⊢
    by_cases hEnd : state₁.remaining = 0
    · rw [dif_pos hEnd]
      have hRest : state₁.rest = [] := List.length_eq_zero_iff.1 hEnd
      exact ⟨[], .nil (hRest ▸ h₁.gap), h₁.contents⟩
    · rw [dif_neg hEnd] at hErrors ⊢
      have hTight : state₁.tighten.Follows contents text := ⟨h₁.gap, h₁.contents⟩
      have hItem := item_reveals hTight
      cases hRead : state₁.tighten.item with
      | error =>
        rw [hRead] at hErrors
        cases hErrors
      | ok result =>
        obtain ⟨part, hPart, h₂⟩ := hItem.of_eq hRead
        obtain ⟨_, state₂, hLess⟩ := result
        rw [hRead] at hErrors
        -- every item leaves less text
        have hDecreases : state₂.remaining < state.remaining := Nat.lt_of_lt_of_le hLess hLe
        obtain ⟨parts, hParts, hContents⟩ := items_reveal state₂ h₂ hErrors
        exact ⟨part :: parts, .cons hPart hParts, hContents⟩
termination_by state.remaining

/-- A header has been read, or there is none, and no item looks like one. -/
theorem header_reveals (h : state.Follows {} text) :
    state.header.Reveals fun result => ∃ name rest,
      result.state.Follows { name := name.getD "tree_grammar" } rest ∧
        ∀ parts, Outline.AreItems parts rest → (⟨name, parts⟩ : Outline).IsWritten text := by
  have hFound := ident_reveals h
  rw [header]
  cases hIdent : state.ident with
  | error => trivial
  | ok found =>
    have hFound := hFound.of_eq hIdent
    cases found with
    | no next le =>
      refine ⟨none, text, h, fun parts hParts => .plain hParts fun item hFirst hLike => ?_⟩
      -- the parser would have found the word `tree` here
      obtain ⟨rest, hTree⟩ := hParts.isWord_tree hFirst hLike
      have hReaches : state.Reaches {} text := ⟨h.gap.afterGap_eq.symm, h.contents⟩
      obtain ⟨found, hOther, ident, _, _, rfl, -⟩ := ident_yields_yes hReaches hTree
      cases hIdent.symm.trans hOther
    | yes word state₁ _ =>
      obtain ⟨hWord, h₁⟩ := hFound
      dsimp only
      split
      · next hTree =>
        refine (expectIdent_reveals h₁ _).bind ?_
        rintro ⟨keyword, state₂, _⟩ ⟨hKeyword, h₂⟩
        dsimp only
        split
        · next hGrammar =>
          refine (expectIdent_reveals h₂ _).bind ?_
          rintro ⟨name, state₃, _⟩ ⟨hName, h₃⟩
          have hNamed : (state₃.update fun grammar => { grammar with name }).Follows
              { name := name.name } state₃.rest :=
            ⟨.none _, congrArg (fun contents => { contents with name := name.name }) h₃.contents⟩
          refine (expect_reveals hNamed (by decide)).bind ?_
          rintro ⟨_, state₄, _⟩ ⟨hEnd, h₄, _⟩
          exact ⟨some name.name, _, h₄, fun parts hParts =>
            .header (hTree ▸ hWord) (hGrammar ▸ hKeyword) hName hEnd hParts⟩
        · trivial
      · next hTree =>
        refine ⟨none, text, h, fun parts hParts => .plain hParts fun item hFirst hLike => ?_⟩
        obtain ⟨rest, hOther⟩ := hParts.isWord_tree hFirst hLike
        exact hTree (hWord.eq hOther)

end ReadState

/-- Something is read as a header if there are no errors. -/
theorem SourceGrammar.exists_header_of_parse {source : List Char} (h : (parse source).1 = []) :
    ∃ result, (ReadState.ofText source).header = .ok result := by
  rw [parse] at h
  split at h
  · next hEq => exact ⟨_, hEq⟩
  · cases h

/-- A text without errors is written as some outline has it, whose contents have been read. -/
theorem SourceGrammar.exists_isWritten_of_parse {source : List Char}
    (h : (parse source).1 = []) :
    ∃ outline : Outline, outline.IsWritten source ∧
      outline.contents = (parse source).2.contents := by
  have hStart : (ReadState.ofText source).Follows {} source := ⟨.none _, rfl⟩
  obtain ⟨result, hHeader⟩ := exists_header_of_parse h
  obtain ⟨name, rest, hState, hWritten⟩ := (ReadState.header_reveals hStart).of_eq hHeader
  rw [parse_eq_of_header hHeader] at h ⊢
  obtain ⟨parts, hParts, hContents⟩ := result.state.items_reveal hState h
  exact ⟨⟨name, parts⟩, hWritten parts hParts, hContents.symm⟩

/-- The texts without errors are those that are written as an outline has it, and what is read of
them is what the outline says. -/
theorem SourceGrammar.parse_eq_iff (source : List Char) (contents : Contents) :
    ((parse source).1 = [] ∧ (parse source).2.contents = contents) ↔
      ∃ outline : Outline, outline.IsWritten source ∧ outline.contents = contents := by
  constructor
  · rintro ⟨hErrors, rfl⟩
    exact exists_isWritten_of_parse hErrors
  · rintro ⟨outline, hWritten, rfl⟩
    exact parse_of_isWritten hWritten

namespace Sample

/-- A grammar with one rule: a token with a label, and any nodes after it. -/
def labelledOutline : Outline :=
  ⟨none, [.rule ⟨"a", false, [], none, none,
    [.mk none [.primary (some "x") (.token "B") .once, .primary none .wildcard .star]]⟩]⟩

/-- A letter is a name if no other one comes after it. -/
theorem isWord_letter {c d : Char} {rest : List Char} (hStart : isIdentStart c)
    (hStop : ¬ isIdentChar d) : IsWord (String.ofList [c]) (c :: d :: rest) (d :: rest) := by
  have hLength : ReadState.identLength (c :: d :: rest) = 1 := by
    simp [ReadState.identLength, hStart, hStop]
  have hWord := isWord_of_identLength_pos (hLength ▸ Nat.one_pos)
  rwa [hLength] at hWord

/-- A gap may stand in front of a name, and a comment in front of a mark. -/
theorem isWritten_labelledOutline : labelledOutline.IsWritten "a: x=B/*c*/.*;".toList := by
  have hName : IsWord "a" "a: x=B/*c*/.*;".toList ": x=B/*c*/.*;".toList :=
    isWord_letter (by decide) (by decide)
  have hLabel : IsWord "x" "x=B/*c*/.*;".toList "=B/*c*/.*;".toList :=
    isWord_letter (by decide) (by decide)
  have hToken : IsWord "B" "B/*c*/.*;".toList "/*c*/.*;".toList :=
    isWord_letter (by decide) (by decide)
  have hComment : CommentRest 1 "c*/.*;".toList ".*;".toList :=
    .char (by decide) (by decide) (.last _)
  have hElements : Outline.AreWritten _ " x=B/*c*/.*;".toList ";".toList :=
    .cons (.labelled (hLabel.of_gap (.blank (by decide) (.none _))) (by decide) (.none _)
        (.token hToken (by decide)) rfl)
      (.cons (.plain (.wildcard (.block hComment (.none _))) (.star (.none _))) (.nil _))
  refine .plain (.cons (.rule (.intro (.plain hName ?_) ?_ (.none _) (.none _) (.none _) (.none _)
    (.last (.plain hElements nofun)) (.none _))) (.nil (.none _))) ?_
  · decide
  · show ¬ IsTokenName "a"
    decide
  · rintro _ ⟨⟩ ⟨hTree, -⟩
    exact absurd hTree (by decide)

/-- The grammar is read as it is written. -/
theorem parse_labelledOutline :
    (SourceGrammar.parse "a: x=B/*c*/.*;".toList).1 = [] ∧
      (SourceGrammar.parse "a: x=B/*c*/.*;".toList).2.contents = labelledOutline.contents :=
  (SourceGrammar.parse_eq_iff _ _).2 ⟨labelledOutline, isWritten_labelledOutline, rfl⟩

end Sample

end TreeGrammar
