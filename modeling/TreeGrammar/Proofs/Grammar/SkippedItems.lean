import TreeGrammar.Analysis.Verdict
import TreeGrammar.Proofs.Grammar.Recovery

/-!
# What a malformed option or list of tokens hides

After an error, reading goes on behind the next semicolon outside of all blocks of code. A rule ends
with a semicolon, so that an error in it does not affect any other item. Options and lists of tokens
do not: after an error in one of them, the items that follow it are skipped, too, up to the end of
the next rule. This rule is neither read nor noted as malformed, and it is reported as undefined
where it is called.

## Main definitions

* `Outline.AreItemsTo`: items up to a place in a text
* `IsSkipped`: what is skipped after an error in an option or a list of tokens
* `Attempt.FailsWithin`: where a step may fail

## Main results

* `ReadState.option_failsWithin`, `ReadState.tokenNames_failsWithin`: an error in an option or in a
  list of tokens stands before the next semicolon
* `SourceGrammar.parse_of_isSkipped`: the rules that are read are those in front of the item and
  those behind the next semicolon
* `Lost.parse_loses_rule`: a rule that is well written is lost
-/

namespace TreeGrammar

variable {source source' : List Char} {bound bound' : Nat} {α β γ : Type} {around : Surroundings}
  {opened : List Enclosure} {text rest : List Char}

/-! ### Places of errors -/

/-- If a step fails, then it has not come to the end of some item, and it stands outside of all
code. -/
def Attempt.FailsWithin (around : Surroundings) (attempt : Attempt source bound α) : Prop :=
  ∀ error failed, attempt = .error (error, failed) →
    ∃ (text : List Char) (length : Nat) (state : ReadState text length) (opened : List Enclosure),
      .code ∉ opened ∧ state.Mirrors around (Remains opened) failed

namespace Attempt

variable {r : α → β → Prop} {attempt : Attempt source bound α}
  {attempt' : Attempt source' bound' β} {next : β → Attempt source' bound' γ}

theorem failsWithin_ok (b : β) :
    Attempt.FailsWithin around (.ok b : Attempt source' bound' β) := nofun

theorem failsWithin_fail {state : ReadState source bound} {other : ReadState source' bound'}
    (h : state.Mirrors around (Remains opened) other) (hCode : .code ∉ opened) (span : Span)
    (cause : SyntaxError.Cause) :
    Attempt.FailsWithin around (other.fail span cause : Attempt source' bound' β) := by
  rintro _ _ ⟨⟩
  exact ⟨_, _, state, opened, hCode, h⟩

/-- A step that is also made in the item alone, and another one after it. -/
theorem Mirrors.failsWithin (h : attempt.Mirrors around r attempt')
    (hNext : ∀ a b, r a b → (next b).FailsWithin around) :
    (attempt' >>= next).FailsWithin around := by
  obtain ⟨a, b, -, rfl, hResult⟩ | ⟨error, state, state', opened, -, rfl, hCode, hState⟩ :=
    h.ok_or_error
  · exact hNext a b hResult
  · rintro _ _ ⟨⟩
    exact ⟨_, _, state, opened, hCode, hState⟩

/-- A step and another one after it. -/
theorem FailsWithin.bind {attempt : Attempt source' bound' β} (h : attempt.FailsWithin around)
    (hNext : ∀ b, (next b).FailsWithin around) : (attempt >>= next).FailsWithin around := by
  cases attempt with
  | ok b => exact hNext b
  | error failure =>
    rintro _ _ ⟨⟩
    exact h _ _ rfl

/-- The steps after one that succeeds. -/
theorem FailsWithin.of_ok {attempt : Attempt source' bound' β} {b : β} (hOk : attempt = .ok b)
    (h : (next b).FailsWithin around) : (attempt >>= next).FailsWithin around := by
  rw [hOk]
  exact h

end Attempt

namespace ReadState

section Steps

variable {state next : ReadState source bound} {other : ReadState source' bound'}

/-- The longer text may be read on with a grammar that has other tokens or options. -/
theorem Mirrors.of_sameRules {p : List Char → List Char → Prop}
    (h : other.Mirrors around p state) (change : SourceGrammar → SourceGrammar)
    (hSame : state.grammar.SameRules (change state.grammar)) :
    other.Mirrors around p (state.update change) :=
  { h with
    rules := hSame.rules.trans h.rules
    malformed := hSame.malformed.trans h.malformed
    count := hSame.count.trans h.count }

/-- An option fails within the item that is left after its first mark. -/
theorem option_failsWithin {lt : next.remaining < state.remaining}
    (hHash : state.expect '#' = .ok ⟨(), next, lt⟩)
    (h : other.Mirrors around (Remains []) next) : state.option.FailsWithin around := by
  have hCode : Enclosure.code ∉ [] := List.not_mem_nil
  have hBrackets : Enclosure.code ∉ [Enclosure.brackets] := by decide
  refine Attempt.FailsWithin.of_ok hHash ?_
  refine (expect_mirrors h hCode fun _ _ hRest => hRest.of_plain hCode (by decide)).failsWithin
    fun _ ⟨_, state₂, _⟩ ⟨_, h₂⟩ => ?_
  refine (expect_mirrors h₂ hCode fun _ _ => Remains.of_opening .brackets nofun).failsWithin
    fun _ ⟨_, state₃, _⟩ ⟨_, h₃⟩ => ?_
  refine (expectIdent_mirrors h₃ hBrackets _).failsWithin fun _ ⟨name, state₄, _⟩ ⟨_, h₄⟩ => ?_
  refine (parenthesized_mirrors h₄ hBrackets).failsWithin fun _ ⟨args, state₅, _⟩ ⟨_, h₅⟩ => ?_
  refine (expect_mirrors h₅ hBrackets fun _ _ => Remains.of_closing .brackets).failsWithin
    fun _ _ _ => ?_
  exact Attempt.failsWithin_ok _

/-- The names of tokens fail within the item that is left after their opening brace. -/
theorem tokenNames_failsWithin (h : other.Mirrors around (Remains [.names]) state) :
    state.tokenNames.FailsWithin around := by
  have hNames : Enclosure.code ∉ [Enclosure.names] := by decide
  fun_induction tokenNames state generalizing other with
  | case1 state ih =>
    refine (eat_mirrors h hNames fun _ _ => Remains.of_closing .names).failsWithin
      fun _ _ hFound => ?_
    obtain ⟨_, _, _, state₁, lt₁, -, rfl, -⟩ | ⟨other₁, _, state₁, le₁, -, rfl, h₁⟩ :=
      hFound.yes_or_no
    · exact Attempt.failsWithin_ok _
    refine (expectIdent_mirrors h₁ hNames _).failsWithin fun _ found hFound => ?_
    obtain ⟨token, state₂, lt₂⟩ := found
    have h₂ := hFound.2
    dsimp only
    split
    case isFalse => exact Attempt.failsWithin_fail h₂ hNames _ _
    -- the names that have been declared so far stay declared after an error
    have hToken := h₂.of_sameRules (·.addToken token) (SourceGrammar.addToken_sameRules _ token)
    refine (eat_mirrors hToken hNames fun _ _ hRest =>
      hRest.of_plain hNames (by decide)).failsWithin fun _ _ hFound => ?_
    obtain ⟨_, other₃, _, state₃, lt₃, -, rfl, h₃⟩ | ⟨other₃, _, state₃, _, -, rfl, h₃⟩ :=
      hFound.yes_or_no
    · refine (ih state₁ le₁ token state₂ lt₂ state₃ lt₃ h₃).bind fun _ => ?_
      exact Attempt.failsWithin_ok _
    · refine (expect_mirrors h₃ hNames fun _ _ => Remains.of_closing .names).failsWithin
        fun _ _ _ => ?_
      exact Attempt.failsWithin_ok _

end Steps

end ReadState

/-! ### What is skipped -/

/-- What is skipped after an error in an option or a list of tokens at the beginning of a text: all
of it up to the first semicolon outside of blocks of code. -/
inductive IsSkipped : List Char → List Char → Prop where
  | option {text inside rest : List Char} (hHash : IsMark '#' text (inside ++ rest))
      (hInside : Remains [] [] inside) : IsSkipped text rest
  | tokens {text text₁ inside rest : List Char} (hWord : IsWord "tokens" text text₁)
      (hOpening : IsMark '{' text₁ (inside ++ rest)) (hInside : Remains [.names] [] inside) :
      IsSkipped text rest

theorem IsSkipped.hasNoHeader (h : IsSkipped text rest) : Outline.HasNoHeader text := by
  cases h with
  | option hHash => exact Outline.hasNoHeader_of_isMark hHash (by decide) (by decide)
  | tokens hWord => exact .inl ⟨_, _, hWord, by decide⟩

/-- Something comes next where something may be skipped. -/
theorem IsSkipped.exists_afterGap (h : IsSkipped text rest) :
    ∃ c more, afterGap text = some (c :: more) := by
  cases h with
  | option hHash => exact ⟨_, _, hHash.afterGap_eq (by decide)⟩
  | tokens hWord =>
    obtain ⟨c, more, hGap, -⟩ := hWord.nextIs
    exact ⟨c, more, hGap⟩

namespace ReadState

variable {state : ReadState source bound} {contents : Contents}

/-- An option or a list of tokens is read, and it fails in what is skipped after an error in it. -/
theorem exists_step_of_isSkipped (hSkipped : IsSkipped text rest)
    (h : state.Reaches contents text) :
    ∃ (c : Option Char) (near : ReadState source bound) (le : near.remaining ≤ state.remaining)
      (step : Attempt source bound (Ahead near Unit)) (around : Surroundings),
        state.nextChar = .ok ⟨c, near, le⟩ ∧
        state.item = step.bind (fun result => .ok (result.weaken le)) ∧
        step.KeepsRules near.grammar Ahead.state ∧ step.FailsWithin around ∧
        around.back = rest := by
  cases hSkipped with
  | option hHash hInside =>
    have hGap := hHash.afterGap_eq (by decide)
    obtain ⟨⟨c, near, le⟩, hNext, rfl, hNear⟩ := nextChar_yields h hGap
    obtain ⟨⟨_, state₁, lt⟩, hExpect, h₁, hBefore⟩ :=
      expect_yields (hNear.reaches_of_gap hGap) hHash (by decide)
    -- what is left after the mark stands between what has been read and what is not skipped
    let around : Surroundings := ⟨state₁.reader.before, rest, state₁.grammar, hBefore⟩
    have hOption : near.option.FailsWithin around :=
      option_failsWithin hExpect (ofText_mirrors state₁ hBefore h₁.rest hInside)
    have hItem : state.item = near.option.bind fun result => .ok (result.weaken le) := by
      rw [item, hNext]
      rfl
    exact ⟨_, near, le, _, around, hNext, hItem, near.option_keeps, hOption, rfl⟩
  | tokens hWord hOpening hInside =>
    obtain ⟨⟨c, near, le⟩, hNext, hChar, hNear⟩ := nextChar_yields h hWord.afterGap_eq
    obtain rfl : c = some 't' := hChar
    have hReaches : near.Reaches contents text := hNear.reaches_of_gap hWord.afterGap_eq
    have hAhead := keywordAhead_eq_true hWord hOpening (by decide) hReaches
    obtain ⟨⟨_, state₁, _⟩, hIdent, -, h₁⟩ := expectIdent_yields hReaches hWord .tokenName
    obtain ⟨⟨_, state₂, _⟩, hExpect, h₂, hBefore⟩ :=
      expect_yields h₁.reaches hOpening (by decide)
    let around : Surroundings := ⟨state₂.reader.before, rest, state₂.grammar, hBefore⟩
    have hNames : state₂.tokenNames.FailsWithin around :=
      tokenNames_failsWithin (ofText_mirrors state₂ hBefore h₂.rest hInside)
    have hList : near.tokenList.FailsWithin around := by
      refine Attempt.FailsWithin.of_ok hIdent (Attempt.FailsWithin.of_ok hExpect ?_)
      exact hNames.bind fun _ => Attempt.failsWithin_ok _
    have hItem : state.item = near.tokenList.bind fun result => .ok (result.weaken le) := by
      rw [item, hNext]
      dsimp only [bind, Except.bind]
      rw [if_neg (by decide), if_pos hAhead]
      rfl
    exact ⟨_, near, le, _, around, hNext, hItem, near.tokenList_keeps, hList, rfl⟩

/-- An option or a list of tokens adds no rule, and it fails in what is skipped after an error in
it. -/
theorem item_of_isSkipped (hSkipped : IsSkipped text rest) (h : state.Reaches contents text) :
    ∃ around : Surroundings, around.back = rest ∧ state.item.FailsWithin around ∧
      state.item.KeepsRules state.grammar Ahead.state := by
  obtain ⟨c, near, le, step, around, hNext, hItem, hKeeps, hFails, hBack⟩ :=
    exists_step_of_isSkipped hSkipped h
  have hNear : state.grammar.SameRules near.grammar := by
    have hSame := state.nextChar_keeps
    rwa [hNext] at hSame
  rw [hItem]
  refine ⟨around, hBack, hFails.bind fun _ => ?_, ?_⟩
  · exact Attempt.failsWithin_ok _
  · exact (hKeeps.since hNear).bind fun _ hResult => hResult

/-- After an error in an option or a list of tokens, other items are read behind what is skipped. No
rule has been added until then. -/
theorem items_of_isSkipped (hSkipped : IsSkipped text rest)
    (hItem : ∀ item more, ¬ Outline.Item.IsWritten item text more)
    (h : state.Reaches contents text) :
    ∃ (error : SyntaxError) (bound' : Nat) (next : ReadState source bound'),
      state.items = (error :: next.items.1, next.items.2) ∧ next.rest = rest ∧
        state.grammar.SameRules next.grammar := by
  obtain ⟨c, more, hGap⟩ := hSkipped.exists_afterGap
  obtain ⟨⟨d, near, le⟩, hNext, -, hNear⟩ := nextChar_yields h hGap
  have hPos : 0 < near.remaining := remaining_pos hNear.rest
  have hReaches : near.Reaches contents text := hNear.reaches_of_gap hGap
  have hTight : near.tighten.Reaches contents text := ⟨hReaches.gap, hReaches.contents⟩
  obtain ⟨around, rfl, hFails, hKeeps⟩ := item_of_isSkipped hSkipped hTight
  -- an item that is read would be written here
  have hFollows : near.tighten.Follows contents text :=
    ⟨gap_of_afterGap (hGap.trans (congrArg some hNear.rest.symm)), hNear.contents⟩
  have hReveals := item_reveals hFollows
  cases hRead : near.tighten.item with
  | ok result =>
    obtain ⟨item, hWritten, -⟩ := hReveals.of_eq hRead
    exact absurd hWritten (hItem _ _)
  | error failure =>
    obtain ⟨error, failed⟩ := failure
    obtain ⟨_, _, inside, opened, hCode, hMirrors⟩ := hFails error failed hRead
    have hEnd : (inside.recover 0).1.Mirrors around NothingRemains (failed.recover 0).1 :=
      recover_mirrors [] hMirrors List.not_mem_nil hCode
    refine ⟨error, _, (failed.recover 0).1, items_of_error hNext hPos hRead, ?_, ?_⟩
    · rw [hEnd.rest, hEnd.here.1]
      rfl
    · rw [hRead] at hKeeps
      have hNear := state.nextChar_keeps
      rw [hNext] at hNear
      exact hNear.trans (hKeeps.trans (failed.recover_keeps 0))

end ReadState

/-! ### What is read -/

namespace Outline

/-- Items one after the other, up to a place in the text. -/
inductive AreItemsTo (rest : List Char) : List Item → List Char → Prop where
  | nil : AreItemsTo rest [] rest
  | cons {item : Item} {items : List Item} {text text₁ : List Char}
      (hItem : item.IsWritten text text₁) (hItems : AreItemsTo rest items text₁) :
      AreItemsTo rest (item :: items) text

end Outline

theorem Contents.rules_foldl_addToken (names : List String) (contents : Contents) :
    (names.foldl addToken contents).rules = contents.rules := by
  induction names generalizing contents with
  | nil => rfl
  | cons name names ih =>
    rw [List.foldl_cons, ih, addToken]
    split
    · rfl
    · rfl

/-- The rules that items add do not depend on what has been read besides rules. -/
theorem Contents.rules_foldl_add (items : List Outline.Item) {a b : Contents}
    (h : a.rules = b.rules) : (items.foldl add a).rules = (items.foldl add b).rules := by
  induction items generalizing a b with
  | nil => exact h
  | cons item items ih =>
    refine ih ?_
    cases item with
    | rule rule => exact congrArg (· ++ [rule.grouped]) h
    | tokens names => simp only [add, rules_foldl_addToken, h]
    | option | prelude => exact h

namespace ReadState

variable {contents : Contents}

/-- Items that are written are read up to a place in the text. Nothing is left out of the rules. -/
theorem items_of_areItemsTo {parts : List Outline.Item}
    (hWritten : Outline.AreItemsTo rest parts text) {bound : Nat} {state : ReadState source bound}
    (h : state.Reaches contents text) (hWell : state.grammar.WellNumbered)
    (hWhole : state.grammar.IsWhole) :
    ∃ (end_ : Nat) (next : ReadState source end_), state.items = next.items ∧
      next.Reaches (parts.foldl Contents.add contents) rest ∧ next.grammar.WellNumbered ∧
        next.grammar.IsWhole := by
  induction hWritten generalizing bound contents with
  | nil => exact ⟨_, state, rfl, h, hWell, hWhole⟩
  | cons hItem _ ih =>
    obtain ⟨_, near, _, result, hNext, hRead, hAt, hItems⟩ := items_of_isWritten hItem h
    have hNear := state.nextChar_keeps
    rw [hNext] at hNear
    have hNumbers := near.tighten.item_keepsNumbers (hWell.same hNear)
    rw [hRead] at hNumbers
    rw [hItems]
    exact ih hAt.reaches hNumbers.1 (hNumbers.2 (hWhole.same hNear))

end ReadState

/-- A call of a rule that is not declared is reported. -/
theorem undefinedRule_mem {id : Nat} {span : Span} {label : Option Ident} {name : Ident}
    {args : Option Fragment}
    (hCall : .rule id span label name args ∈ (SourceGrammar.parse source).2.rules.distinct.exprs)
    (hName : (SourceGrammar.parse source).2.declaresRule name.name = false) (options : Options) :
    ⟨span, .undefinedRule name.name⟩ ∈ (TreeGrammar.analyse source options).diagnostics := by
  have hRules : (SourceGrammar.parse source).2.rules ≠ [] := by
    intro hNil
    rw [hNil] at hCall
    cases hCall
  have hMem : ⟨span, .undefinedRule name.name⟩ ∈ (SourceGrammar.parse source).2.nameErrors := by
    refine List.mem_filterMap.2 ⟨_, hCall, ?_⟩
    rw [SourceGrammar.nameError?, if_neg (by simp [hName])]
    rfl
  rw [TreeGrammar.analyse]
  dsimp only
  rw [if_neg (by simpa using hRules), SourceGrammar.analyse]
  simp [SourceGrammar.declarationErrors, hMem]

namespace SourceGrammar

open Outline

/-- After an error in an option or a list of tokens, exactly the items up to the next semicolon are
lost. The rules among them are not noted as malformed, so that calls of them are reported. -/
theorem parse_of_isSkipped {first others : List Item}
    (hFirst : AreItemsTo text first source) (hHeader : ∀ item ∈ first.head?, ¬ item.IsHeaderLike)
    (hSkipped : IsSkipped text rest) (hItem : ∀ item more, ¬ Item.IsWritten item text more)
    (hOthers : AreItems others rest) :
    (∃ error, (parse source).1 = [error]) ∧
      (parse source).2.contents.rules = (Outline.mk none (first ++ others)).contents.rules ∧
      (parse source).2.malformed = [] ∧
      ∀ id span label name args options,
        Expr.rule id span label name args ∈ (parse source).2.rules.distinct.exprs →
        (∀ rule ∈ (Outline.mk none (first ++ others)).contents.rules, rule.name ≠ name.name) →
          ⟨span, .undefinedRule name.name⟩ ∈ (TreeGrammar.analyse source options).diagnostics := by
  have hStart : (ReadState.ofText source).Reaches {} source := ⟨rfl, rfl⟩
  have hNoHeader : HasNoHeader source := by
    cases hFirst with
    | nil => exact hSkipped.hasNoHeader
    | cons hItem => exact hItem.hasNoHeader (hHeader _ rfl)
  have hParse := parse_eq_of_header (ReadState.header_of_hasNoHeader hNoHeader hStart)
  obtain ⟨_, place, hItems, hPlace, hWell, hWhole⟩ :=
    ReadState.items_of_areItemsTo hFirst hStart wellNumbered_empty ⟨rfl, rfl⟩
  obtain ⟨error, _, next, hSkip, hRest, hSame⟩ :=
    ReadState.items_of_isSkipped hSkipped hItem hPlace
  -- only rules are compared, since a list of tokens may have declared some before the error
  have hNext : next.Reaches next.grammar.contents rest := ⟨congrArg afterGap hRest, rfl⟩
  obtain ⟨hErrors, hContents⟩ := ReadState.items_of_areItems hOthers hNext
  have hNumbers := (next.items_keepsNumbers (hWell.same hSame)).2 hErrors (hWhole.same hSame)
  have hRules : (parse source).2.contents.rules =
      (Outline.mk none (first ++ others)).contents.rules := by
    have hSameRules : next.grammar.contents.rules = place.grammar.contents.rules :=
      congrArg (List.map Rule.outline) hSame.rules
    rw [hParse, hItems, hSkip]
    show next.items.2.contents.rules = _
    rw [hContents, Contents.rules_foldl_add others hSameRules, hPlace.contents, Outline.contents,
      List.foldl_append]
    rfl
  have hMalformed : (parse source).2.malformed = [] := by
    rw [hParse, hItems, hSkip]
    exact hNumbers.malformed
  refine ⟨⟨error, ?_⟩, hRules, hMalformed, ?_⟩
  · rw [hParse, hItems, hSkip]
    show error :: next.items.1 = _
    rw [hErrors]
  · intro id span label name args options hCall hNames
    refine undefinedRule_mem hCall ?_ options
    have hOther : ∀ rule ∈ (parse source).2.rules, rule.name.name ≠ name.name := by
      intro rule hRule
      refine hNames rule.outline ?_
      rw [← hRules]
      exact List.mem_map_of_mem hRule
    simpa [declaresRule, hMalformed] using hOther

end SourceGrammar

namespace Lost

/-- A rule that calls `b`. -/
def caller : Outline.Rule :=
  ⟨"c", false, [], none, none, [.mk none [.primary none (.call "b" none) .once]]⟩

/-- Where the rule calls `b`. -/
def callPlace : Span := { line := 1, column := 3, offset := 2 }

/-- The call of `b`. -/
def call : Expr := .rule 0 callPlace none ⟨"b", callPlace⟩ none

/-- A rule for any node. -/
def wildcard (name : String) : Outline.Rule :=
  ⟨name, false, [], none, none, [.mk none [.primary none .wildcard .once]]⟩

/-- A rule that calls `b`. -/
theorem isWritten_caller (rest : List Char) :
    caller.IsWritten ("c:b;".toList ++ rest) rest := by
  have hName : IsWord "c" ("c:b;".toList ++ rest) (":b;".toList ++ rest) :=
    Sample.isWord_letter (by decide) (by decide)
  have hCall : IsWord "b" ("b;".toList ++ rest) (";".toList ++ rest) :=
    Sample.isWord_letter (by decide) (by decide)
  have hElements : Outline.AreWritten [.primary none (.call "b" none) .once]
      ("b;".toList ++ rest) (";".toList ++ rest) :=
    .cons (.plain (.call hCall (by decide)) (.once _)) (.nil _)
  exact .intro (.plain hName (by decide)) (show ¬ IsTokenName "c" by decide) (.none _) (.none _)
    (.none _) (.none _) (.last (.plain hElements nofun)) (.none _)

theorem isWritten_wildcard : (wildcard "d").IsWritten "d:.;".toList [] := by
  have hName : IsWord "d" "d:.;".toList ":.;".toList :=
    Sample.isWord_letter (by decide) (by decide)
  have hElements : Outline.AreWritten [.primary none .wildcard .once] ".;".toList ";".toList :=
    .cons (.plain (.wildcard (.none _)) (.once _)) (.nil _)
  exact .intro (.plain hName (by decide)) (show ¬ IsTokenName "d" by decide) (.none _) (.none _)
    (.none _) (.none _) (.last (.plain hElements nofun)) (.none _)

/-- What the token list `tokens{a}` contains after its brace, and a rule behind it. -/
def inside : List Char := ['a', '}', 'b', ':', '.', ';']

/-- The text `tokens{a}b:.;d:.;`: a list of tokens that declares a name of a rule, and two rules. -/
def later : List Char := ['t', 'o', 'k', 'e', 'n', 's', '{'] ++ (inside ++ "d:.;".toList)

/-- Up to the first semicolon, the rule `b` is skipped. -/
theorem isSkipped_later : IsSkipped later "d:.;".toList := by
  have hLength : ReadState.identLength later = 6 := by decide
  have hWord : IsWord "tokens" later ('{' :: (inside ++ "d:.;".toList)) := by
    have hPos : 0 < ReadState.identLength later := by
      rw [hLength]
      decide
    have hName := isWord_of_identLength_pos hPos
    rwa [hLength] at hName
  have hInside : Remains [.names] [] inside := by
    refine .plain (by decide) (by decide) (.closing .names ?_)
    refine .plain (by decide) (by decide) (.plain (by decide) (by decide) ?_)
    exact .plain (by decide) (by decide) (.last _)
  exact .tokens hWord (.none _) hInside

/-- The list of tokens is no item. -/
theorem not_isWritten_later (item : Outline.Item) (more : List Char) :
    ¬ item.IsWritten later more := by
  intro hWritten
  have hStart : (ReadState.ofText later).Reaches {} later := ⟨rfl, rfl⟩
  obtain ⟨result, hOk, -⟩ := ReadState.item_yields hWritten hStart
  have hError : (ReadState.ofText later).item.isOk = false := by decide +kernel
  rw [hOk] at hError
  cases hError

/-- What is read of the text `c:b;tokens{a}b:.;`. -/
def written : SourceGrammar where
  rules := [{
    name := ⟨"c", Span.start⟩
    isPublic := false
    attributes := []
    params := none
    returns := none
    alternatives := [.mk none [call] callPlace] }]
  elements := [call]
  infos := [⟨callPlace, none⟩]

/-- The rules that are read of the text `c:b;tokens{a}b:.;d:.;`. -/
def rulesLater : Rules :=
  let place : Span := { line := 1, column := 20, offset := 19 }
  written.rules ++ [{
    name := ⟨"d", { line := 1, column := 18, offset := 17 }⟩
    isPublic := false
    attributes := []
    params := none
    returns := none
    alternatives := [.mk none [.wildcard 1 place none] place] }]

theorem rules_parse_later :
    (SourceGrammar.parse ("c:b;".toList ++ later)).2.rules = rulesLater := by
  have hText : "c:b;".toList ++ later = ['c', ':', 'b', ';', 't', 'o', 'k', 'e', 'n', 's', '{',
      'a', '}', 'b', ':', '.', ';', 'd', ':', '.', ';'] := by decide +kernel
  -- the parser is unfolded over characters, which a string literal does not show
  rw [hText]
  with_unfolding_all rfl

/-- The rule `b` is lost, the other ones are read, and the call of `b` is reported. -/
theorem parse_of_isSkipped_later :
    IsSkipped later "d:.;".toList ∧ (∀ item more, ¬ Outline.Item.IsWritten item later more) ∧
      (∃ error, (SourceGrammar.parse ("c:b;".toList ++ later)).1 = [error]) ∧
      (SourceGrammar.parse ("c:b;".toList ++ later)).2.contents.rules = [caller, wildcard "d"] ∧
      (SourceGrammar.parse ("c:b;".toList ++ later)).2.malformed = [] ∧
      ⟨callPlace, .undefinedRule "b"⟩ ∈
        (TreeGrammar.analyse ("c:b;".toList ++ later) {}).diagnostics := by
  have hFirst : Outline.AreItemsTo later [.rule caller] ("c:b;".toList ++ later) :=
    .cons (.rule (isWritten_caller later)) .nil
  have hHeader : ∀ item ∈ [Outline.Item.rule caller].head?, ¬ item.IsHeaderLike := by
    rintro _ ⟨⟩ ⟨hTree, -⟩
    exact absurd hTree (by decide)
  have hOthers : Outline.AreItems [.rule (wildcard "d")] "d:.;".toList :=
    .cons (.rule isWritten_wildcard) (.nil (.none _))
  obtain ⟨hError, hRules, hMalformed, hCalls⟩ :=
    SourceGrammar.parse_of_isSkipped hFirst hHeader isSkipped_later not_isWritten_later hOthers
  have hCall : call ∈ (SourceGrammar.parse ("c:b;".toList ++ later)).2.rules.distinct.exprs := by
    rw [rules_parse_later]
    exact List.mem_cons_self
  refine ⟨isSkipped_later, not_isWritten_later, hError, hRules, hMalformed, ?_⟩
  refine hCalls 0 _ none ⟨"b", callPlace⟩ none {} hCall ?_
  intro rule hRule
  obtain rfl | rfl : rule = caller ∨ rule = wildcard "d" := by
    simpa using (show rule ∈ [caller, wildcard "d"] from hRule)
  · decide
  · decide

theorem parse_text : SourceGrammar.parse "c:b;tokens{a}b:.;".toList =
    ([⟨{ line := 1, column := 12, offset := 11 }, .lowercaseToken "a"⟩], written) := by
  have hText : "c:b;tokens{a}b:.;".toList = ['c', ':', 'b', ';', 't', 'o', 'k', 'e', 'n', 's', '{',
      'a', '}', 'b', ':', '.', ';'] := by decide +kernel
  rw [hText]
  with_unfolding_all rfl

/-- The text `c:b;tokens{a}b:.;` consists of two rules that are well written, and of a malformed
list of tokens between them. The second rule is neither read nor noted as malformed, and the call of
it is reported as undefined. -/
theorem parse_loses_rule :
    (SourceGrammar.parse "c:b;".toList).1 = [] ∧ (SourceGrammar.parse "b:.;".toList).1 = [] ∧
      (SourceGrammar.parse "b:.;".toList).2.contents.rules = [wildcard "b"] ∧
      (SourceGrammar.parse "c:b;tokens{a}b:.;".toList).2.contents.rules = [caller] ∧
      (SourceGrammar.parse "c:b;tokens{a}b:.;".toList).2.malformed = [] ∧
      ⟨callPlace, .undefinedRule "b"⟩ ∈
        (TreeGrammar.analyse "c:b;tokens{a}b:.;".toList {}).diagnostics := by
  have hCaller : (SourceGrammar.parse "c:b;".toList).1 = [] := by decide +kernel
  have hCallee : (SourceGrammar.parse "b:.;".toList).1 = [] ∧
      (SourceGrammar.parse "b:.;".toList).2.contents.rules = [wildcard "b"] := by
    have hText : "b:.;".toList = ['b', ':', '.', ';'] := by decide +kernel
    rw [hText]
    constructor
    · decide +kernel
    · with_unfolding_all rfl
  have hCall : call ∈ (SourceGrammar.parse "c:b;tokens{a}b:.;".toList).2.rules.distinct.exprs := by
    rw [parse_text]
    exact List.mem_singleton_self _
  have hName :
      (SourceGrammar.parse "c:b;tokens{a}b:.;".toList).2.declaresRule "b" = false := by
    rw [parse_text]
    decide
  have hReported := undefinedRule_mem hCall hName {}
  rw [parse_text]
  exact ⟨hCaller, hCallee.1, hCallee.2, rfl, rfl, hReported⟩

end Lost

end TreeGrammar
