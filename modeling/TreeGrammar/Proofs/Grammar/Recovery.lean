import TreeGrammar.Proofs.Grammar.Items
import TreeGrammar.Proofs.Grammar.Numbering
import TreeGrammar.Proofs.Grammar.RuleLocality
import TreeGrammar.Proofs.Grammar.Texts

/-!
# Malformed rules are isolated

After an error in an item that ends with a semicolon, reading goes on exactly behind the semicolon:
the error is found outside of all blocks of code, and the recovery counts the braces from there on.
So a text of such items is read item by item, as if each of them stood alone.

## Main definitions

* `IsRuleText`: a text that is meant as a rule, well written or not
* `Shift.after`: where the next of such texts stands

## Main results

* `ReadState.recover_mirrors`: the end of the item is found
* `SourceGrammar.parse_flatten`: a text of rules is read rule by rule
-/

namespace TreeGrammar

variable {source source' : List Char} {bound bound' : Nat} {around : Surroundings}

/-! ### The end of an item -/

/-- How many braces are open after a character. -/
def bracesAfter (c : Char) (depth : Nat) : Nat :=
  if c = '{' then depth + 1 else if c = '}' then depth - 1 else depth

namespace ReadState

section Recover

variable {state : ReadState source bound} {other : ReadState source' bound'} {depth : Nat}

theorem recover_of_literal {length : Nat}
    (hLiteral : literalLength state.reader.before state.rest = .ok (some length)) :
    (recover depth state).1 = (recover depth (state.drop length)).1 := by
  rw [recover]
  split
  · next hRest =>
    rw [hRest] at hLiteral
    cases hLiteral
  · split
    · next found hFound =>
      obtain rfl : found = length := by simpa [hLiteral] using hFound.symm
      rfl
    · next hNone => exact absurd hLiteral (hNone length)

theorem recover_of_none {c : Char} (hPeek : state.peek? = some c)
    (hLiteral : literalLength state.reader.before state.rest = .ok none) :
    (recover depth state).1 =
      if c = ';' ∧ depth = 0 then state.drop 1
      else (recover (bracesAfter c depth) (state.drop 1)).1 := by
  obtain ⟨rest, hRest⟩ := List.head?_eq_some_iff.1 hPeek
  rw [recover]
  split
  · next hNil => simp [hRest] at hNil
  · next d more hCons =>
    obtain ⟨rfl, rfl⟩ : d = c ∧ more = rest := by simpa [hRest, eq_comm] using hCons
    split
    · next found hFound => simp [hLiteral] at hFound
    · split
      · rfl
      · rfl

end Recover

end ReadState

/-- The recovery counts the blocks of code that have been opened since an error, unless the item
ends. A list of names in which the error stands does not count. -/
theorem Remains.exists_blocks {inner outer : List Enclosure} {before text : List Char} {c : Char}
    (h : Remains (inner ++ outer) before (c :: text))
    (hLiteral : literalLength before (c :: text) = .ok none) (hNames : .names ∉ inner)
    (hCode : .code ∉ outer) (hEnd : ¬ (c = ';' ∧ inner.count .code = 0)) :
    ∃ inner' outer', Remains (inner' ++ outer') (c :: before) text ∧ .names ∉ inner' ∧
      .code ∉ outer' ∧ bracesAfter c (inner.count .code) = inner'.count .code := by
  rcases h.of_cons hLiteral with
    ⟨rfl, hNil, -⟩ | ⟨new, hNew, rfl, hRest⟩ | ⟨closed, more, hClosed, rfl, hRest⟩ |
      ⟨hDelimiter, -, hRest⟩
  · obtain ⟨rfl, -⟩ := List.append_eq_nil_iff.1 hNil
    exact absurd ⟨rfl, List.count_nil⟩ hEnd
  · refine ⟨new :: inner, outer, hRest, by simp [hNew.symm, hNames], hCode, ?_⟩
    cases new <;> simp_all [bracesAfter, Enclosure.opening]
  · cases inner with
    | nil =>
      -- the error stands inside of this delimiter, which is not that of a block of code
      obtain rfl : outer = closed :: more := hClosed
      have hMore : .code ∉ more := fun hMem => hCode (List.mem_cons_of_mem _ hMem)
      refine ⟨[], more, hRest, List.not_mem_nil, hMore, ?_⟩
      cases closed <;> simp_all [bracesAfter, Enclosure.closing]
    | cons first inner =>
      obtain ⟨rfl, rfl⟩ := List.cons.inj hClosed
      refine ⟨inner, outer, hRest, fun hMem => hNames (List.mem_cons_of_mem _ hMem), hCode, ?_⟩
      cases first <;> simp_all [bracesAfter, Enclosure.closing]
  · have hBraces : c ≠ '{' ∧ c ≠ '}' := by
      constructor <;> rintro rfl <;> simp [isDelimiter] at hDelimiter
    exact ⟨inner, outer, hRest, hNames, hCode, by simp [bracesAfter, hBraces]⟩

namespace ReadState

/-- The recovery finds the end of the item in both texts. It has to know how many blocks of code are
open. -/
theorem recover_mirrors {state : ReadState source bound} {other : ReadState source' bound'}
    (inner : List Enclosure) {outer : List Enclosure}
    (h : state.Mirrors around (Remains (inner ++ outer)) other) (hNames : .names ∉ inner)
    (hCode : .code ∉ outer) :
    (recover (inner.count .code) state).1.Mirrors around NothingRemains
      (recover (inner.count .code) other).1 := by
  -- by induction on what is left, with the delimiters that have been opened since the error
  obtain ⟨length?, hLiteral⟩ := h.here.exists_literalLength
  have hLiteral' := h.literalLength_eq hLiteral
  cases length? with
  | some length =>
    rw [recover_of_literal hLiteral, recover_of_literal hLiteral']
    have hPos := literalLength_pos hLiteral
    have hLt := h.here.lt_of_literal hLiteral
    have hNext := h.drop (Nat.le_of_lt hLt) (h.here.of_literal hLiteral)
    have hShorter : (state.drop length).remaining < state.remaining := by
      rw [remaining_drop]
      exact Nat.sub_lt (Nat.lt_of_le_of_lt (Nat.zero_le _) hLt) hPos
    exact recover_mirrors inner hNext hNames hCode
  | none =>
    obtain ⟨c, rest, hRest⟩ := List.exists_cons_of_ne_nil h.here.ne_nil
    have hPeek : state.peek? = some c := congrArg List.head? hRest
    have hPeek' := (h.peek?_eq h.here.ne_nil).trans hPeek
    have hHere := h.here
    rw [recover_of_none hPeek hLiteral, recover_of_none hPeek' hLiteral']
    rw [hRest] at hHere hLiteral
    by_cases hEnd : c = ';' ∧ inner.count .code = 0
    · rw [if_pos hEnd, if_pos hEnd]
      obtain ⟨rfl, hCount⟩ := hEnd
      have hOutside : .code ∉ inner ++ outer := by
        simp [hCode, List.count_eq_zero.1 hCount]
      exact h.drop_one hPeek fun _ _ hRest => hRest.of_mark hOutside
    · rw [if_neg hEnd, if_neg hEnd]
      obtain ⟨inner', outer', hNext, hNames', hCode', hDepth⟩ :=
        hHere.exists_blocks hLiteral hNames hCode hEnd
      have hDrop : RemainsAfter 1 (inner' ++ outer') state.reader.before state.rest := by
        rw [RemainsAfter, hRest]
        exact hNext
      have hShorter : (state.drop 1).remaining < state.remaining := by
        rw [remaining_drop]
        exact Nat.sub_lt (remaining_pos hRest) Nat.one_pos
      rw [hDepth]
      exact recover_mirrors inner' (h.drop (Remains.le_length_of_after hDrop) hDrop) hNames' hCode'
termination_by state.remaining
decreasing_by all_goals exact hShorter

/-! ### Items -/

section Items

variable {state : ReadState source bound} {other : ReadState source' bound'}

theorem Mirrors.tighten {p : List Char → List Char → Prop} (h : state.Mirrors around p other) :
    state.tighten.Mirrors around p other.tighten :=
  ⟨h.rest, h.before, h.rules, h.malformed, h.count, h.here⟩

/-- Nothing is read where nothing is left. -/
theorem items_of_nil (h : state.rest = []) : state.items = ([], state.grammar) := by
  have hNext : state.nextChar = .ok ⟨none, state, state.remaining_le_self⟩ := by
    simp [nextChar, skipTrivia, h, bind, Except.bind, pure, Except.pure, drop, Reader.drop, peek?]
  exact items_of_end hNext h

/-- A rule is added, or none if there is an error. -/
theorem rule_ensures : state.rule.Ensures
    (fun result => ∃ rule, result.state.grammar.rules = state.grammar.rules ++ [rule])
    fun failed => failed.grammar.rules = state.grammar.rules := by
  refine Attempt.Ensures.bind state.ruleName_keeps (fun _ hFailed => hFailed.rules)
    fun ⟨⟨name, isPublic⟩, state₁, h₁⟩ hName => ?_
  dsimp only
  split
  · exact hName.rules
  · have hBody := state₁.ruleBody_reads name isPublic
    cases hResult : ruleBody name isPublic state₁ with
    | ok result =>
      rw [hResult] at hBody
      refine ⟨result.value, ?_⟩
      rw [← hName.rules, ← hBody.1.rules]
      rfl
    | error failure =>
      rw [hResult] at hBody
      obtain ⟨exprs, hReads⟩ := hBody
      exact hReads.rules.trans hName.rules

/-- In both texts, a name stands behind the gap in front of it. -/
theorem nextChar_of_isWord (h : state.Mirrors around (Remains []) other) {name : String}
    {more : List Char} (hWord : IsWord name state.rest more) :
    ∃ c next le next' le', state.nextChar = .ok ⟨some c, next, le⟩ ∧
      other.nextChar = .ok ⟨some c, next', le'⟩ ∧ next.Mirrors around (Remains []) next' ∧
      isIdentStart c ∧ IsWord name next.rest more := by
  have hHere : state.Reaches state.grammar.contents state.rest := ⟨rfl, rfl⟩
  obtain ⟨⟨_, next, le⟩, hNext, rfl, hRest, -⟩ := nextChar_yields hHere hWord.afterGap_eq
  obtain ⟨c, others, hName, hStart⟩ := hWord.exists_cons
  have hHead : (name.toList ++ more).head? = some c := by
    rw [hName]
    rfl
  rw [hHead] at hNext
  have hWord' : IsWord name next.rest more := { hWord with gap := hRest ▸ .none _ }
  obtain ⟨a, ⟨_, next', le'⟩, hA, hNext', -, hSame⟩ | ⟨_, _, _, _, hError, -⟩ :=
    (nextChar_mirrors h List.not_mem_nil).ok_or_error
  · cases hNext.symm.trans hA
    obtain ⟨rfl, hMirrors⟩ := hSame
    exact ⟨c, next, le, next', le', hNext, hNext', hMirrors, hStart, hWord'⟩
  · cases hNext.symm.trans hError

/-- Where a name stands that is no keyword, a rule is read. -/
theorem item_eq_rule {c : Char} {next : ReadState source bound}
    {le : next.remaining ≤ state.remaining} (hNext : state.nextChar = .ok ⟨some c, next, le⟩)
    (hStart : isIdentStart c) (hTokens : next.keywordAhead "tokens" '{' = false)
    (hPrelude : next.keywordAhead "prelude" '{' = false) :
    state.item = next.rule.bind fun result => .ok (result.weaken le) := by
  have hNoHash : ¬ some c = some '#' := by
    rintro ⟨⟩
    exact absurd hStart (by decide)
  rw [item, hNext]
  show (if some c = some '#' then _ else _) = _
  rw [if_neg hNoHash, if_neg (by simp [hTokens]), if_neg (by simp [hPrelude]),
    if_pos (by exact hStart)]
  rfl

/-- An item that begins with the name of a rule is read in both texts, or the same error is found in
it. It adds a rule, or none if there is an error. -/
theorem item_mirrors (h : state.Mirrors around (Remains []) other) {name : String}
    {more : List Char} (hWord : IsWord name state.rest more) (hTokens : name ≠ "tokens")
    (hPrelude : name ≠ "prelude") :
    state.item.Mirrors around (Ahead.Mirrors around id NothingRemains) other.item ∧
      state.item.Ensures
        (fun result => ∃ rule, result.state.grammar.rules = state.grammar.rules ++ [rule])
        fun failed => failed.grammar.rules = state.grammar.rules := by
  have hCode : Enclosure.code ∉ [] := List.not_mem_nil
  obtain ⟨c, next, le, next', le', hNext, hNext', hMirrors, hStart, hWord'⟩ :=
    nextChar_of_isWord h hWord
  have hKeyword : ∀ keyword, name ≠ keyword → next.keywordAhead keyword '{' = false :=
    fun keyword hOther => keywordAhead_eq_false hWord' (fun hEq => absurd hEq hOther) ⟨rfl, rfl⟩
  have hKeyword' : ∀ keyword, name ≠ keyword → next'.keywordAhead keyword '{' = false :=
    fun keyword hOther => (keywordAhead_eq hMirrors hCode keyword '{').trans (hKeyword _ hOther)
  have hGrammar := state.nextChar_keeps
  rw [hNext] at hGrammar
  rw [item_eq_rule hNext hStart (hKeyword _ hTokens) (hKeyword _ hPrelude),
    item_eq_rule hNext' hStart (hKeyword' _ hTokens) (hKeyword' _ hPrelude)]
  refine ⟨(rule_mirrors hMirrors).bind fun _ _ hResult => hResult, ?_⟩
  have hRules : next.grammar.rules = state.grammar.rules := hGrammar.rules
  refine Attempt.Ensures.bind next.rule_ensures (fun _ hFailed => hFailed.trans hRules) ?_
  rintro result ⟨rule, hRule⟩
  exact ⟨rule, hRules ▸ hRule⟩

/-- A text that is meant as a rule is read in both texts up to its semicolon. There is a rule in it,
or an error. -/
theorem items_mirrors (h : state.Mirrors around (Remains []) other) {name : String}
    {more : List Char} (hWord : IsWord name state.rest more) (hTokens : name ≠ "tokens")
    (hPrelude : name ≠ "prelude") :
    ∃ (end_ : Nat) (next : ReadState source end_) (end' : Nat) (next' : ReadState source' end')
      (errors : List SyntaxError), next.Mirrors around NothingRemains next' ∧
        state.items = (errors, next.grammar) ∧
        other.items = (errors.map around.shift.error ++ next'.items.1, next'.items.2) ∧
        ((errors = [] ∧ ∃ rule, next.grammar.rules = state.grammar.rules ++ [rule]) ∨
          (∃ error, errors = [error]) ∧ next.grammar.rules = state.grammar.rules) := by
  obtain ⟨c, state₁, le, other₁, le', hNext, hNext', h₁, -, hWord'⟩ := nextChar_of_isWord h hWord
  have hPos : 0 < state₁.remaining := List.length_pos_iff.2 h₁.here.ne_nil
  have hPos' : 0 < other₁.remaining := by
    rw [remaining, h₁.rest, List.length_append]
    exact Nat.lt_add_right _ hPos
  have hRules : state₁.grammar.rules = state.grammar.rules := by
    have hKeeps := state.nextChar_keeps
    rw [hNext] at hKeeps
    exact hKeeps.rules
  have hWordTight : IsWord name state₁.tighten.rest more := hWord'
  obtain ⟨hItem, hEnsures⟩ := item_mirrors h₁.tighten hWordTight hTokens hPrelude
  obtain ⟨⟨_, next, _⟩, ⟨_, next', _⟩, hOk, hOk', -, hMirrors⟩ |
      ⟨error, state₂, other₂, opened, hError, hError', hOpened, h₂⟩ := hItem.ok_or_error
  · rw [hOk] at hEnsures
    refine ⟨_, next, _, next', [], hMirrors, ?_, items_of_ok hNext' hPos' hOk', .inl ⟨rfl, ?_⟩⟩
    · rw [items_of_ok hNext hPos hOk, items_of_nil hMirrors.here.1]
    · exact hRules ▸ hEnsures
  · rw [hError] at hEnsures
    have hMirrors : (state₂.recover 0).1.Mirrors around NothingRemains (other₂.recover 0).1 :=
      recover_mirrors [] h₂ List.not_mem_nil hOpened
    refine ⟨_, _, _, _, [error], hMirrors, ?_, items_of_error hNext' hPos' hError',
      .inr ⟨⟨_, rfl⟩, ?_⟩⟩
    · rw [items_of_error hNext hPos hError, items_of_nil hMirrors.here.1]
    · exact (state₂.recover_keeps 0).rules.trans (hEnsures.trans hRules)

end Items

end ReadState

/-! ### Texts of rules -/

/-- A text that is meant as a rule, well written or not: it begins with a name and ends with the
first semicolon outside of all blocks of code, literals and comments. All delimiters, literals and
comments are closed, and there are no quotes outside of blocks of code. -/
structure IsRuleText (text : List Char) : Prop where
  exists_name : ∃ name rest, IsWord name text rest ∧
    name ≠ "tokens" ∧ name ≠ "prelude" ∧ name ≠ "tree"
  remains : Remains [] [] text

/-- Where a text stands that follows another one. -/
def Shift.after (shift : Shift) (text : List Char) : Shift where
  place := shift.place.advance text
  count := shift.count + (SourceGrammar.parse text).2.exprCount

/-- Texts one after the other, with the places where they stand. -/
def Shift.placed (shift : Shift) : List (List Char) → List (Shift × List Char)
  | [] => []
  | text :: texts => (shift, text) :: (shift.after text).placed texts

/-- The errors in texts, at the places where the texts stand. -/
def placedErrors (texts : List (Shift × List Char)) : List SyntaxError :=
  texts.flatMap fun (shift, text) => (SourceGrammar.parse text).1.map shift.error

/-- The rules of the texts that have no error, at the places where the texts stand. -/
def placedRules (texts : List (Shift × List Char)) : Rules :=
  (texts.filter fun (_, text) => (SourceGrammar.parse text).1.isEmpty).flatMap
    fun (shift, text) => (SourceGrammar.parse text).2.rules.map shift.rule

section Placed

variable (shift : Shift) (text : List Char) (texts : List (Shift × List Char))

theorem placedErrors_cons : placedErrors ((shift, text) :: texts) =
    (SourceGrammar.parse text).1.map shift.error ++ placedErrors texts :=
  List.flatMap_cons

variable {text}

theorem placedRules_of_ok (h : (SourceGrammar.parse text).1 = []) :
    placedRules ((shift, text) :: texts) =
      (SourceGrammar.parse text).2.rules.map shift.rule ++ placedRules texts := by
  rw [placedRules, List.filter_cons_of_pos (by simp [h]), List.flatMap_cons]
  rfl

theorem placedRules_of_error (h : (SourceGrammar.parse text).1 ≠ []) :
    placedRules ((shift, text) :: texts) = placedRules texts := by
  rw [placedRules, List.filter_cons_of_neg (by simp [h])]
  rfl

end Placed

namespace ReadState

/-- A text stands at a place in a longer one. -/
theorem ofText_mirrors {text post : List Char} {p : List Char → List Char → Prop}
    (state : ReadState source bound) (hBefore : EndsNoWord state.reader.before)
    (hRest : state.rest = text ++ post) (h : p [] text) :
    (ofText text).Mirrors ⟨state.reader.before, post, state.grammar, hBefore⟩ p state :=
  ⟨hRest, rfl, (List.append_nil _).symm, (List.append_nil _).symm, rfl, h⟩

end ReadState

namespace SourceGrammar

open ReadState

/-- A text that begins like a rule has no header. -/
theorem parse_append_eq_items {text : List Char} (h : IsRuleText text) (post : List Char) :
    parse (text ++ post) = (ofText (text ++ post)).items := by
  obtain ⟨name, rest, hWord, -, -, hTree⟩ := h.exists_name
  have hStart : (ofText text).Reaches {} text := ⟨rfl, rfl⟩
  obtain ⟨_, hIdent, word, next, lt, rfl, rfl, -⟩ := ident_yields_yes hStart hWord
  obtain ⟨found, found', hFound, hFound', hSame⟩ | ⟨_, _, _, _, hError, -⟩ :=
    (ident_mirrors (ofText_mirrors (ofText (text ++ post)) nofun rfl h.remains)
      List.not_mem_nil).ok_or_error
  · cases hIdent.symm.trans hFound
    obtain ⟨_, _, _, next', lt', hYes, rfl, -⟩ | ⟨_, _, _, _, hNo, -⟩ := hSame.yes_or_no
    · cases hYes
      exact parse_eq_of_header (header_of_ident hFound' hTree)
    · cases hNo
  · cases hIdent.symm.trans hError

theorem parse_nil : parse [] = (ofText []).items := by
  have hNoHeader : Outline.HasNoHeader [] := .inr ⟨[], afterGap_nil, nofun⟩
  exact parse_eq_of_header (header_of_hasNoHeader hNoHeader ⟨rfl, rfl⟩)

/-- Of a text that is meant as a rule, a rule is read or an error is found. -/
theorem parse_of_isRuleText {text : List Char} (h : IsRuleText text) :
    ((parse text).1 = [] ∧ ∃ rule, (parse text).2.rules = [rule]) ∨
      (∃ error, (parse text).1 = [error]) ∧ (parse text).2.rules = [] := by
  obtain ⟨name, rest, hWord, hTokens, hPrelude, -⟩ := h.exists_name
  obtain ⟨_, next, _, _, errors, -, hItems, -, hOutcome⟩ :=
    items_mirrors (ofText_mirrors (ofText (text ++ [])) nofun rfl h.remains) hWord hTokens hPrelude
  have hParse := parse_append_eq_items h []
  rw [List.append_nil] at hParse
  rw [hParse, hItems]
  exact hOutcome

end SourceGrammar

namespace ReadState

/-- Texts that are meant as rules are read one after the other. -/
theorem items_of_areRuleTexts {texts : List (List Char)} (h : ∀ text ∈ texts, IsRuleText text)
    {state : ReadState source bound} (hRest : state.rest = texts.flatten)
    (hBefore : EndsNoWord state.reader.before) :
    state.items.1 = placedErrors (Shift.placed ⟨state.span, state.grammar.exprCount⟩ texts) ∧
      state.items.2.rules = state.grammar.rules ++
        placedRules (Shift.placed ⟨state.span, state.grammar.exprCount⟩ texts) := by
  induction texts generalizing bound with
  | nil =>
    rw [items_of_nil hRest]
    exact ⟨rfl, (List.append_nil _).symm⟩
  | cons text texts ih =>
    obtain ⟨hText, hTexts⟩ := List.forall_mem_cons.1 h
    obtain ⟨name, rest, hWord, hTokens, hPrelude, -⟩ := hText.exists_name
    let around : Surroundings := ⟨state.reader.before, texts.flatten, state.grammar, hBefore⟩
    have hShift : around.shift = ⟨state.span, state.grammar.exprCount⟩ := by
      rw [span, state.reader.span_eq]
      rfl
    have hMirrors : (ofText text).Mirrors around (Remains []) state :=
      ofText_mirrors state hBefore hRest hText.remains
    obtain ⟨_, next, _, next', errors, hNext, hLocal, hGlobal, hOutcome⟩ :=
      items_mirrors hMirrors hWord hTokens hPrelude
    have hParse : SourceGrammar.parse text = (errors, next.grammar) := by
      have hItems := SourceGrammar.parse_append_eq_items hText []
      rw [List.append_nil] at hItems
      exact hItems.trans hLocal
    -- the other texts stand behind the semicolon of the first one
    have hRest' : next'.rest = texts.flatten := by
      rw [hNext.rest, hNext.here.1]
      rfl
    have hBefore' : EndsNoWord next'.reader.before := by
      obtain ⟨before, hSemicolon⟩ := List.head?_eq_some_iff.1 hNext.here.2
      rw [hNext.before, hSemicolon]
      rintro c ⟨⟩
      decide
    have hAfter : (⟨next'.span, next'.grammar.exprCount⟩ : Shift) =
        Shift.after ⟨state.span, state.grammar.exprCount⟩ text := by
      have hText : next.reader.before.reverse = text := by
        have hSplit := next.reader.split
        rwa [show next.reader.rest = [] from hNext.here.1, List.append_nil] at hSplit
      have hSpan : next.span = Span.start.advance text := by
        rw [span, next.reader.span_eq, hText]
      rw [hNext.span_eq, hSpan, Shift.span_advance, hNext.count, hShift, Shift.after, hParse]
    obtain ⟨hErrors, hRules⟩ := ih hTexts hRest' hBefore'
    rw [hGlobal, hErrors, hRules, hAfter, hNext.rules, hShift, Shift.placed]
    constructor
    · rw [placedErrors_cons, hParse]
    · rcases hOutcome with ⟨hOk, -⟩ | ⟨⟨error, hError⟩, hSame⟩
      · rw [placedRules_of_ok _ _ (by rw [hParse]; exact hOk), hParse, List.append_assoc]
      · rw [placedRules_of_error _ _ (by rw [hParse, hError]; exact List.cons_ne_nil _ _), hSame]
        show state.grammar.rules ++ [] ++ _ = _
        rw [List.append_nil]

end ReadState

/-- A text of rules, well written or not, is read rule by rule. The rules are exactly those of the
texts that have no error on their own, in order, and for each other text there is exactly one error,
the one that it has on its own. All of it is read as on its own, but for its place. -/
theorem SourceGrammar.parse_flatten {texts : List (List Char)}
    (h : ∀ text ∈ texts, IsRuleText text) :
    (parse texts.flatten).1 = placedErrors (Shift.placed {} texts) ∧
      (parse texts.flatten).2.rules = placedRules (Shift.placed {} texts) ∧
      ∀ text ∈ texts, ((parse text).1 = [] ∧ ∃ rule, (parse text).2.rules = [rule]) ∨
        (∃ error, (parse text).1 = [error]) ∧ (parse text).2.rules = [] := by
  have hItems : parse texts.flatten = (ReadState.ofText texts.flatten).items := by
    cases texts with
    | nil => exact parse_nil
    | cons text texts => exact parse_append_eq_items (h text List.mem_cons_self) texts.flatten
  have hRest : (ReadState.ofText texts.flatten).rest = texts.flatten := rfl
  obtain ⟨hErrors, hRules⟩ := ReadState.items_of_areRuleTexts h hRest nofun
  rw [hItems]
  exact ⟨hErrors, hRules, fun text hMem => parse_of_isRuleText (h text hMem)⟩

namespace Sample

/-- A rule with a mark that does not belong there after a block of code, and a rule. -/
def ruleTexts : List (List Char) := ["a:{;}=;".toList, "b:.;".toList]

theorem areRuleTexts : ∀ text ∈ ruleTexts, IsRuleText text := by
  have hBlock : Remains [] "a".toList ":{;}=;".toList := by
    refine .plain (by decide) (by decide) (.opening .code nofun (.other rfl rfl (by decide) ?_))
    exact .closing .code (.plain (by decide) (by decide) (.last _))
  have hWildcard : Remains [] "b".toList ":.;".toList :=
    .plain (by decide) (by decide) (.plain (by decide) (by decide) (.last _))
  have hFirst : IsRuleText "a:{;}=;".toList :=
    ⟨⟨"a", _, isWord_letter (by decide) (by decide), by decide⟩,
      .plain (by decide) (by decide) hBlock⟩
  have hSecond : IsRuleText "b:.;".toList :=
    ⟨⟨"b", _, isWord_letter (by decide) (by decide), by decide⟩,
      .plain (by decide) (by decide) hWildcard⟩
  exact List.forall_mem_cons.2 ⟨hFirst, List.forall_mem_singleton.2 hSecond⟩

/-- The error of the first text does not affect the second one. -/
theorem parse_flatten_ruleTexts :
    (∀ text ∈ ruleTexts, IsRuleText text) ∧
      (SourceGrammar.parse ruleTexts.flatten).1 = placedErrors (Shift.placed {} ruleTexts) ∧
      (SourceGrammar.parse ruleTexts.flatten).2.rules = placedRules (Shift.placed {} ruleTexts) :=
  ⟨areRuleTexts, (SourceGrammar.parse_flatten areRuleTexts).1,
    (SourceGrammar.parse_flatten areRuleTexts).2.1⟩

end Sample

end TreeGrammar
