import TreeGrammar.Proofs.Grammar.ParserSteps
import TreeGrammar.Proofs.Grammar.Reading

/-!
# What is read as elements is written

Whenever the parser has read elements, some elements of an outline are written there, and what has
been read is what they say.

The steps of the parser are gone through once more, now with what they have found. The parser may
have skipped the gap after a part already, or it may not. So a part ends at a place from which only
a gap leads to where the parser stands. Right after a mark or a name, there is no gap at all.

## Main definitions

* `Attempt.Reveals`: what holds of the result of a step
* `ReadState.Follows`: a parser stands at a place or after a gap behind it

## Main results

* `ReadState.alternatives_reveals`, `ReadState.element_reveals`: what is read as elements
-/

namespace TreeGrammar

open Text
open ReadState (identLength)

/-! ### Marks and words -/

/-- A mark where another one comes next is the same mark. -/
theorem IsMark.eq_of_cons {c d : Char} {text rest : List Char} (h : IsMark c (d :: text) rest)
    (hc : isSign c) (hd : isSign d) : d = c ∧ rest = text := by
  have hNext : afterGap (d :: text) = some (d :: text) := IsMark.afterGap_eq (.none _) hd
  obtain ⟨hChar, hRest⟩ := List.cons.inj (Option.some.inj (hNext.symm.trans (h.afterGap_eq hc)))
  exact ⟨hChar, hRest.symm⟩

/-- Only one word is at a place. -/
theorem IsWord.eq {name other : String} {text rest rest' : List Char} (h : IsWord name text rest)
    (hOther : IsWord other text rest') : name = other := by
  have hText : name.toList ++ rest = other.toList ++ rest' :=
    Option.some.inj (h.afterGap_eq.symm.trans hOther.afterGap_eq)
  have hLength : name.toList.length = other.toList.length := by
    rw [← h.identLength_eq, hText, hOther.identLength_eq]
  exact String.toList_inj.1 (List.append_inj_left hText hLength)

theorem IsWord.of_gap {name : String} {text middle rest : List Char} (hGap : Gap text middle)
    (h : IsWord name middle rest) : IsWord name text rest :=
  { h with gap := hGap.trans h.gap }

/-- Code ends right in front of the mark that ends it. -/
theorem IsCode.of_isMark {closing : Char} {angle : Bool} {code : String}
    {text text₁ rest : List Char} (hCode : IsCode [closing] angle code text text₁)
    (hStop : ∃ c more, text₁ = c :: more ∧ c ∈ [closing]) (hClosing : IsMark closing text₁ rest)
    (hc : isSign closing) : IsCode [closing] angle code text (closing :: rest) := by
  obtain ⟨c, more, rfl, hEnd⟩ := hStop
  obtain rfl := List.mem_singleton.1 hEnd
  obtain ⟨-, rfl⟩ := hClosing.eq_of_cons hc hc
  exact hCode

/-! ### Results of steps -/

variable {source : List Char} {bound : Nat} {α β : Type}

namespace Attempt

/-- The result of a step has a property, if there is a result. -/
def Reveals (p : α → Prop) (attempt : Attempt source bound α) : Prop :=
  attempt.Ensures p fun _ => True

variable {p : α → Prop} {q : β → Prop} {attempt : Attempt source bound α}
  {next : α → Attempt source bound β}

theorem Reveals.of_eq {result : α} (h : attempt.Reveals p) (hResult : attempt = .ok result) :
    p result := by
  rwa [hResult] at h

/-- A step and another one after it. -/
theorem Reveals.bind (h : attempt.Reveals p)
    (hNext : ∀ result, p result → (next result).Reveals q) : (attempt >>= next).Reveals q :=
  Ensures.bind h (fun _ _ => trivial) hNext

/-- One of two steps and another one after it. -/
theorem Reveals.bind_ite {c : Prop} [Decidable c] {other : Attempt source bound α}
    (h : (if c then attempt else other).Reveals p)
    (hNext : ∀ result, p result → (next result).Reveals q) :
    (if c then attempt >>= next else other >>= next).Reveals q := by
  rw [Attempt.bind_ite]
  exact h.bind hNext

end Attempt

namespace ReadState

/-- Only a gap lies between a place and the parser, which has read these contents. -/
structure Follows (state : ReadState source bound) (contents : Contents) (text : List Char) :
    Prop where
  gap : Gap text state.rest
  contents : state.grammar.contents = contents

variable {state : ReadState source bound} {contents : Contents} {text rest : List Char}

theorem Follows.drop (h : state.Follows contents text) (count : Nat) :
    (state.drop count).Follows contents (state.drop count).rest :=
  ⟨.none _, h.contents⟩

theorem Follows.finish (h : state.Follows contents text) (label : Option Ident)
    (build : Nat → Expr) : (state.finish label build).state.Follows contents text :=
  ⟨h.gap, h.contents⟩

/-! ### Marks, names and code -/

theorem skipTrivia_reveals (h : state.Follows contents text) :
    state.skipTrivia.Reveals fun result =>
      afterGap text = some result.state.rest ∧ result.state.Follows contents text := by
  rw [skipTrivia]
  split
  · trivial
  · next hClosed =>
    have hGap : afterGap text = some (state.drop (triviaLength state.rest).1).rest := by
      rw [h.gap.afterGap_eq, afterGap, if_neg hClosed, rest_drop]
    exact ⟨hGap, gap_of_afterGap hGap, h.contents⟩

theorem nextChar_reveals (h : state.Follows contents text) :
    state.nextChar.Reveals fun result => afterGap text = some result.state.rest ∧
      result.value = result.state.rest.head? ∧ result.state.Follows contents text :=
  (skipTrivia_reveals h).bind fun _ ⟨hGap, hNext⟩ => ⟨hGap, rfl, hNext⟩

/-- The next character is a mark. -/
theorem isMark_drop {c : Char} (h : state.Follows contents text) (hPeek : state.peek? = some c) :
    IsMark c text (state.drop 1).rest := by
  obtain ⟨more, hRest⟩ := List.head?_eq_some_iff.1 hPeek
  have hGap := h.gap
  rw [hRest] at hGap
  rw [rest_drop, hRest]
  exact hGap

theorem eat_reveals {c : Char} (h : state.Follows contents text) (hc : isSign c) :
    (state.eat c).Reveals fun
      | .yes _ next _ => IsMark c text next.rest ∧ next.Follows contents next.rest ∧
          EndsNoWord next.reader.before
      | .no next _ => next.Follows contents text := by
  refine (skipTrivia_reveals h).bind fun ⟨_, next, _⟩ ⟨_, hNext⟩ => ?_
  dsimp only at hNext ⊢
  split
  · next hPeek =>
    obtain ⟨more, hRest⟩ := List.head?_eq_some_iff.1 hPeek
    exact ⟨isMark_drop hNext hPeek, hNext.drop 1, endsNoWord_drop hRest hc⟩
  · exact hNext

theorem expect_reveals {c : Char} (h : state.Follows contents text) (hc : isSign c) :
    (state.expect c).Reveals fun result => IsMark c text result.state.rest ∧
      result.state.Follows contents result.state.rest ∧
        EndsNoWord result.state.reader.before := by
  refine (eat_reveals h hc).bind fun found hFound => ?_
  cases found with
  | yes => exact hFound
  | no => trivial

theorem ident_reveals (h : state.Follows contents text) :
    state.ident.Reveals fun
      | .yes ident next _ => IsWord ident.name text next.rest ∧ next.Follows contents next.rest
      | .no next _ => next.Follows contents text := by
  refine (skipTrivia_reveals h).bind fun ⟨_, next, _⟩ ⟨_, hNext⟩ => ?_
  dsimp only at hNext ⊢
  split
  · next hLength =>
    refine ⟨?_, hNext.drop _⟩
    rw [rest_drop]
    exact (isWord_of_identLength_pos hLength).of_gap hNext.gap
  · exact hNext

theorem expectIdent_reveals (h : state.Follows contents text) (wanted : SyntaxError.Wanted) :
    (state.expectIdent wanted).Reveals fun result =>
      IsWord result.value.name text result.state.rest ∧
        result.state.Follows contents result.state.rest := by
  refine (ident_reveals h).bind fun found hFound => ?_
  cases found with
  | yes => exact hFound
  | no => trivial

/-- What is read as code is code, up to one of the characters that end it. -/
theorem fragment_reveals (stops : List Char) (angle : Bool)
    (h : state.Follows contents text) (hBefore : EndsNoWord state.reader.before) :
    (state.fragment stops angle).Reveals fun result =>
      IsCode stops angle result.value.text state.rest result.state.rest ∧
        (∃ c more, result.state.rest = c :: more ∧ c ∈ stops) ∧
          result.state.Follows contents result.state.rest := by
  cases hResult : state.fragment stops angle with
  | error => trivial
  | ok result =>
    obtain ⟨hStop, hGrammar⟩ := end_of_fragment hResult
    exact ⟨isCode_of_fragment hBefore hResult, hStop, .none _, by rw [hGrammar, h.contents]⟩

theorem not_isBlankCode {code : Fragment} (h : ¬ code.isBlank) : ¬ IsBlankCode code.text :=
  fun hBlank => h (List.all_eq_true.2 hBlank)

/-! ### Elements -/

/-- A block of code has been read, with a question mark after it if it is a predicate. -/
theorem codeBlock_reveals (h : state.Follows contents text) :
    state.codeBlock.Reveals fun result => ∃ text₁,
      IsEnclosed '{' '}' result.value.1.text text text₁ ∧ ¬ IsBlankCode result.value.1.text ∧
        if result.value.2 then IsMark '?' text₁ result.state.rest ∧
          result.state.Follows contents result.state.rest
        else result.state.Follows contents text₁ := by
  refine (expect_reveals h (by decide)).bind fun ⟨_, state₁, _⟩ ⟨hOpening, h₁, hBefore⟩ => ?_
  refine (fragment_reveals _ _ h₁ hBefore).bind fun ⟨code, state₂, _⟩ ⟨hCode, hStop, h₂⟩ => ?_
  refine (expect_reveals h₂ (by decide)).bind fun ⟨_, state₃, _⟩ ⟨hClosing, h₃, _⟩ => ?_
  have hEnclosed : IsEnclosed '{' '}' code.text text state₃.rest :=
    ⟨hOpening, hCode.of_isMark hStop hClosing (by decide)⟩
  refine (eat_reveals h₃ (by decide)).bind fun found hFound => ?_
  cases found with
  | yes _ next lt =>
    dsimp only
    split
    · trivial
    · next hBlank => exact ⟨_, hEnclosed, not_isBlankCode hBlank, hFound.1, hFound.2.1⟩
  | no next le =>
    dsimp only
    split
    · trivial
    · next hBlank => exact ⟨_, hEnclosed, not_isBlankCode hBlank, hFound⟩

/-- What is read as a block of code is an action or a predicate. -/
theorem codeElement_reveals (h : state.Follows contents text) :
    state.codeElement.Reveals fun result => ∃ part : Outline.Element, ∃ text₁,
      part.IsWritten text text₁ ∧ result.value.outline = part.grouped ∧
        result.state.Follows contents text₁ := by
  refine (codeBlock_reveals h).bind fun ⟨⟨code, isPredicate⟩, next, _⟩ hBlock => ?_
  obtain ⟨text₁, hCode, hBlank, hEnd⟩ := hBlock
  cases isPredicate with
  | true =>
    obtain ⟨hMark, hNext⟩ := hEnd
    exact ⟨.predicate code.text, _, .predicate hCode hBlank hMark, rfl,
      hNext.finish none (.predicate · code)⟩
  | false =>
    have hNext : next.Follows contents text₁ := hEnd
    exact ⟨.action code.text, _, .action hCode hBlank, rfl, hNext.finish none (.action · code)⟩

/-- A label has been read, or nothing at all. -/
theorem label_reveals (h : state.Follows contents text) :
    state.label.Reveals fun result => (result.value = none ∧ result.state = state) ∨
      ∃ ident text₁, result.value = some ident ∧ IsWord ident.name text text₁ ∧
        ¬ IsTokenName ident.name ∧ IsMark '=' text₁ result.state.rest ∧
          result.state.Follows contents result.state.rest := by
  rw [ReadState.label]
  -- the parser goes on only from a name with an equals sign, and stays where it is otherwise
  have hFound := ident_reveals h
  cases hIdent : state.ident with
  | error => trivial
  | ok found =>
    have hFound := hFound.of_eq hIdent
    cases found with
    | no => exact .inl ⟨rfl, rfl⟩
    | yes ident next lt =>
      have hMark := eat_reveals (c := '=') hFound.2 (by decide)
      cases hEat : next.eat '=' with
      | error =>
        simp only [bind, Except.bind, hEat]
        trivial
      | ok mark =>
        have hMark := hMark.of_eq hEat
        cases mark with
        | no =>
          simp only [bind, Except.bind, hEat]
          exact .inl ⟨rfl, rfl⟩
        | yes _ next' lt' =>
          simp only [bind, Except.bind, hEat, pure, Except.pure]
          split
          · trivial
          · next hToken =>
            exact .inr ⟨ident, _, rfl, hFound.1, mt (Ident.isToken_iff rfl).2 hToken, hMark.1,
              hMark.2.1⟩

/-- A token or a call has been read. -/
theorem reference_reveals (span : Span) (label : Option Ident) (h : state.Follows contents text) :
    (reference span label state).Reveals fun result => ∃ matched : Outline.Primary, ∃ text₁,
      matched.IsWritten text text₁ ∧ matched.isGroup = false ∧
        result.value.outline = .primary (label.map Ident.name) matched.grouped .once ∧
          result.state.Follows contents text₁ := by
  refine (expectIdent_reveals h _).bind fun ⟨name, state₁, _⟩ ⟨hName, h₁⟩ => ?_
  dsimp only
  split
  · next hToken =>
    exact ⟨.token name.name, _, .token hName ((Ident.isToken_iff rfl).1 hToken), rfl, rfl,
      h₁.finish label (.token · span label name)⟩
  · next hToken =>
    have hRule : ¬ IsTokenName name.name := mt (Ident.isToken_iff rfl).2 hToken
    split
    · next hPeek =>
      obtain ⟨more, hRest⟩ := List.head?_eq_some_iff.1 hPeek
      have hBefore := endsNoWord_drop hRest (by decide)
      refine (fragment_reveals _ _ (h₁.drop 1) hBefore).bind
        fun ⟨args, state₂, _⟩ ⟨hArgs, hStop, h₂⟩ => ?_
      refine (expect_reveals h₂ (by decide)).bind fun ⟨_, state₃, _⟩ ⟨hClosing, h₃, _⟩ => ?_
      have hBracket : state₁.rest = '[' :: (state₁.drop 1).rest := by
        rw [rest_drop, hRest]
        rfl
      exact ⟨.call name.name (some args.text), _, .callWith (hBracket ▸ hName) hRule
        (hArgs.of_isMark hStop hClosing (by decide)), rfl, rfl,
        h₃.finish label (.rule · span label name (some args))⟩
    · exact ⟨.call name.name none, _, .call hName hRule, rfl, rfl,
        h₁.finish label (.rule · span label name none)⟩

theorem isSuffix_of_suffix? {c : Char} {repetition : Repetition}
    (h : suffix? (some c) = some repetition) (hMark : IsMark c text rest) :
    Outline.IsSuffix repetition text rest ∧ repetition ≠ .once := by
  rw [suffix?.eq_def] at h
  split at h
  · next hEq =>
    obtain rfl := Option.some.inj hEq
    obtain rfl := Option.some.inj h
    exact ⟨.optional hMark, nofun⟩
  · next hEq =>
    obtain rfl := Option.some.inj hEq
    obtain rfl := Option.some.inj h
    exact ⟨.star hMark, nofun⟩
  · next hEq =>
    obtain rfl := Option.some.inj hEq
    obtain rfl := Option.some.inj h
    exact ⟨.plus hMark, nofun⟩
  · cases h

/-- A suffix has been read, or nothing, and the element is under it. -/
theorem suffixed_reveals (span : Span) {label : Option Ident} {expr : Expr}
    {matched : Outline.Primary} (h : state.Follows contents text)
    (hExpr : expr.outline = .primary (label.map Ident.name) matched .once) :
    (suffixed span label expr state).Reveals fun result => ∃ repetition text₁,
      Outline.IsSuffix repetition text text₁ ∧ (repetition = .once ∨ label = none) ∧
        result.value.outline = matched.repeated (label.map Ident.name) repetition ∧
          result.state.Follows contents text₁ := by
  refine (nextChar_reveals h).bind fun ⟨c, state₁, _⟩ ⟨_, hc, h₁⟩ => ?_
  cases hSuffix : suffix? c with
  | none =>
    simp only [hSuffix]
    exact ⟨.once, text, .once text, .inl rfl, hExpr, h₁⟩
  | some repetition =>
    simp only [hSuffix]
    cases label with
    -- a suffix after a label is refused
    | some label => trivial
    | none =>
      obtain ⟨c, rfl⟩ : ∃ d, c = some d := by
        cases c with
        | none => cases hSuffix
        | some d => exact ⟨d, rfl⟩
      have hMark : IsMark c text (state₁.drop 1).rest := isMark_drop h₁ hc.symm
      obtain ⟨hWritten, hRepeats⟩ := isSuffix_of_suffix? hSuffix hMark
      have hPlace : (state₁.drop 1).IsAt contents (state₁.drop 1).rest := ⟨rfl, h₁.contents⟩
      obtain ⟨hOutline, hState⟩ := repeatExpr_yields span hRepeats hPlace hExpr
      exact ⟨repetition, _, hWritten, .inr rfl, hOutline, hState.rest ▸ .none _, hState.contents⟩

-- The induction is on the recursion of the parser, with the measure by which the parser ends.
mutual

/-- What is read as alternatives is written as alternatives. -/
theorem alternatives_reveals (close : Char) {text : List Char} (state : ReadState source bound)
    (h : state.Follows contents text) :
    (alternatives close state).Reveals fun result => ∃ choices text₁,
      Outline.AreChoices choices text text₁ ∧
        Alternative.outlines result.value = Outline.groupedAlternatives choices ∧
          result.state.Follows contents text₁ := by
  rw [alternatives]
  refine (alternative_reveals close state h).bind fun ⟨first, state₁, h₁⟩ hResult => ?_
  obtain ⟨choice, text₁, hChoice, hFirst, hState₁⟩ := hResult
  refine (eat_reveals hState₁ (by decide)).bind fun found hFound => ?_
  cases found with
  | no state₂ h₂ =>
    exact ⟨[choice], text₁, .last hChoice, congrArg (fun choice => [choice]) hFirst, hFound⟩
  | yes _ state₂ h₂ =>
    obtain ⟨hBar, hState₂, -⟩ := hFound
    have hLess : state₂.remaining < state₁.remaining := h₂
    refine (alternatives_reveals close state₂ hState₂).bind fun ⟨others, state₃, h₃⟩ hResult => ?_
    obtain ⟨choices, text₃, hChoices, hOthers, hState₃⟩ := hResult
    exact ⟨choice :: choices, text₃, .cons hChoice hBar hChoices,
      congrArg₂ List.cons hFirst hOthers, hState₃⟩
termination_by 8 * state.remaining + 7

/-- What is read as an alternative is written as one. -/
theorem alternative_reveals (close : Char) {text : List Char} (state : ReadState source bound)
    (h : state.Follows contents text) :
    (alternative close state).Reveals fun result => ∃ (choice : Outline.Alternative) (text₁ : _),
      choice.IsWritten text text₁ ∧ result.value.outline = choice.grouped ∧
        result.state.Follows contents text₁ := by
  rw [alternative]
  refine (skipTrivia_reveals h).bind fun ⟨_, state₁, h₁⟩ ⟨hGap, hState₁⟩ => ?_
  dsimp only at hGap ⊢
  split
  · refine (codeBlock_reveals hState₁).bind fun ⟨⟨code, isPredicate⟩, state₂, h₂⟩ hBlock => ?_
    obtain ⟨text₂, hCode, hBlank, hEnd⟩ := hBlock
    have hLess : state₂.remaining < state₁.remaining := h₂
    cases isPredicate with
    | true =>
      obtain ⟨hMark, hState₂⟩ := hEnd
      refine (elements_reveals close state₂ hState₂).bind fun ⟨exprs, state₃, h₃⟩ hResult => ?_
      obtain ⟨parts, text₃, hParts, hExprs, hState₃⟩ := hResult
      exact ⟨.mk (some code.text) parts, text₃, .guarded hCode hBlank hMark hParts,
        congrArg (Outline.Alternative.mk (some code.text)) hExprs, hState₃⟩
    | false =>
      -- the action becomes the first element of the alternative
      have hState₂ : state₂.Follows contents text₂ := hEnd
      have hRemaining : (state₂.finish none (.action · code)).state.remaining = state₂.remaining :=
        rfl
      refine (elements_reveals close (state₂.finish none (.action · code)).state
        (hState₂.finish none _)).bind fun ⟨exprs, state₃, h₃⟩ hResult => ?_
      obtain ⟨parts, text₃, hParts, hExprs, hState₃⟩ := hResult
      exact ⟨.mk none (.action code.text :: parts), text₃,
        .plain (.cons (.action hCode hBlank) hParts) nofun,
        congrArg (fun others => Outline.Alternative.mk none (.action code.text :: others)) hExprs,
        hState₃⟩
  · next hPeek =>
    refine (elements_reveals close state₁ hState₁).bind fun ⟨exprs, state₂, h₂⟩ hResult => ?_
    obtain ⟨parts, text₂, hParts, hExprs, hState₂⟩ := hResult
    refine ⟨.mk none parts, text₂, .plain hParts fun code hFirst => ?_,
      congrArg (Outline.Alternative.mk none) hExprs, hState₂⟩
    -- a predicate would begin with a brace
    cases hParts with
    | nil => cases hFirst
    | cons hPart =>
      obtain rfl := Option.some.inj hFirst
      cases hPart with
      | predicate hCode =>
        obtain ⟨hOpening, -⟩ := hCode
        have hText := hGap.symm.trans (hOpening.afterGap_eq (by decide))
        exact hPeek (congrArg List.head? (Option.some.inj hText))
termination_by 8 * state.remaining + 6

/-- What is read as elements is written as elements. -/
theorem elements_reveals (close : Char) {text : List Char} (state : ReadState source bound)
    (h : state.Follows contents text) :
    (elements close state).Reveals fun result => ∃ parts text₁,
      Outline.AreWritten parts text text₁ ∧
        Expr.outlines result.value = Outline.groupedElements parts ∧
          result.state.Follows contents text₁ := by
  rw [elements]
  refine (nextChar_reveals h).bind fun ⟨c, state₁, h₁⟩ ⟨_, _, hState₁⟩ => ?_
  cases c with
  | none => trivial
  | some c =>
    dsimp only
    split
    · exact ⟨[], text, .nil text, rfl, hState₁⟩
    · refine Attempt.Reveals.bind_ite (part_reveals c state₁ hState₁)
        fun ⟨expr, state₂, h₂⟩ hResult => ?_
      obtain ⟨part, text₂, hPart, hExpr, hState₂⟩ := hResult
      refine (elements_reveals close state₂ hState₂).bind fun ⟨exprs, state₃, h₃⟩ hResult => ?_
      obtain ⟨parts, text₃, hParts, hExprs, hState₃⟩ := hResult
      exact ⟨part :: parts, text₃, .cons hPart hParts, congrArg₂ List.cons hExpr hExprs, hState₃⟩
termination_by 8 * state.remaining + 5

/-- What is read as an element or as a block of code is written as an element. -/
theorem part_reveals (c : Char) {text : List Char} (state : ReadState source bound)
    (h : state.Follows contents text) :
    (if c = '{' then state.codeElement else element state).Reveals fun result =>
      ∃ (part : Outline.Element) (text₁ : _), part.IsWritten text text₁ ∧
        result.value.outline = part.grouped ∧ result.state.Follows contents text₁ := by
  split
  · exact codeElement_reveals h
  · exact element_reveals state h
termination_by 8 * state.remaining + 4

/-- What is read as an element is written as one. -/
theorem element_reveals {text : List Char} (state : ReadState source bound)
    (h : state.Follows contents text) :
    (element state).Reveals fun result => ∃ (part : Outline.Element) (text₁ : _),
      part.IsWritten text text₁ ∧ result.value.outline = part.grouped ∧
        result.state.Follows contents text₁ := by
  rw [element]
  refine (skipTrivia_reveals h).bind fun ⟨_, state₁, h₁⟩ ⟨_, hState₁⟩ => ?_
  refine (label_reveals hState₁).bind fun ⟨label, state₂, h₂⟩ hLabel => ?_
  have hLe : state₂.remaining ≤ state₁.remaining := h₂
  rcases hLabel with ⟨hNone, hState₂⟩ | ⟨ident, text₁, hSome, hWord, hLower, hEquals, hState₂⟩
  · obtain rfl := hNone
    obtain rfl : state₂ = state₁ := hState₂
    refine (primary_reveals none state₂ hState₁).bind fun ⟨expr, state₃, h₃⟩ hResult => ?_
    obtain ⟨matched, text₃, hMatched, -, hExpr, hState₃⟩ := hResult
    refine (suffixed_reveals _ hState₃ hExpr).bind fun ⟨expr, state₄, h₄⟩ hResult => ?_
    obtain ⟨repetition, text₄, hSuffix, -, hExpr, hState₄⟩ := hResult
    exact ⟨.primary none matched repetition, text₄, .plain hMatched hSuffix, hExpr, hState₄⟩
  · obtain rfl := hSome
    refine (primary_reveals (some ident) state₂ hState₂).bind fun ⟨expr, state₃, h₃⟩ hResult => ?_
    obtain ⟨matched, text₃, hMatched, hGroup, hExpr, hState₃⟩ := hResult
    refine (suffixed_reveals _ hState₃ hExpr).bind fun ⟨expr, state₄, h₄⟩ hResult => ?_
    obtain ⟨repetition, text₄, hSuffix, hOnce, hExpr, hState₄⟩ := hResult
    obtain rfl : repetition = .once := hOnce.resolve_right nofun
    cases hSuffix
    exact ⟨.primary (some ident.name) matched .once, text₃,
      .labelled hWord hLower hEquals hMatched (hGroup nofun), hExpr, hState₄⟩
termination_by 8 * state.remaining + 3

/-- What is read as an element without its label and its suffix is written as one. -/
theorem primary_reveals {span : Span} (label : Option Ident) {text : List Char}
    (state : ReadState source bound) (h : state.Follows contents text) :
    (primary span label state).Reveals fun result =>
      ∃ (matched : Outline.Primary) (text₁ : _), matched.IsWritten text text₁ ∧
        (label ≠ none → matched.isGroup = false) ∧
          result.value.outline = .primary (label.map Ident.name) matched.grouped .once ∧
            result.state.Follows contents text₁ := by
  rw [primary]
  refine (skipTrivia_reveals h).bind fun ⟨_, state₁, h₁⟩ ⟨_, hState₁⟩ => ?_
  dsimp only
  -- by the next mark: a node, a wildcard, a group, or the name of a token or rule
  split
  · next hPeek =>
    have hPos := remaining_pos_of_peek hPeek
    have hDrop := state₁.remaining_drop 1
    split
    · next hParenthesis =>
      have hDrop₂ := (state₁.drop 1).remaining_drop 1
      refine (expectIdent_reveals ((hState₁.drop 1).drop 1) _).bind
        fun ⟨name, state₃, h₃⟩ ⟨hName, hState₃⟩ => ?_
      have hLess : state₃.remaining < ((state₁.drop 1).drop 1).remaining := h₃
      dsimp only
      split
      · next hToken =>
        refine (children_reveals state₃ hState₃).bind fun ⟨children, state₄, h₄⟩ hResult => ?_
        obtain ⟨parts, text₄, hParts, hClosing, hChildren, hState₄⟩ := hResult
        refine ⟨.node name.name parts, _, .node ?_ hName ((Ident.isToken_iff rfl).1 hToken) hParts
          hClosing, fun _ => rfl, ?_, hState₄.finish label (.node · span label name children)⟩
        · obtain ⟨more, hRest⟩ := List.head?_eq_some_iff.1 hParenthesis
          have hOpening : IsMark '#' text (state₁.drop 1).rest := isMark_drop hState₁ hPeek
          rw [hRest] at hOpening
          rw [rest_drop _ 1, hRest]
          exact hOpening
        · exact congrArg (fun children => Outline.Element.primary (label.map Ident.name)
            (.node name.name children) .once) hChildren
      · trivial
    · trivial
  · next hPeek =>
    exact ⟨.wildcard, _, .wildcard (isMark_drop hState₁ hPeek), fun _ => rfl, rfl,
      (hState₁.drop 1).finish label (.wildcard · span label)⟩
  · next hPeek =>
    have hPos := remaining_pos_of_peek hPeek
    have hDrop := state₁.remaining_drop 1
    cases label with
    | some label => trivial
    | none =>
      refine (alternatives_reveals ')' (state₁.drop 1) (hState₁.drop 1)).bind
        fun ⟨alternatives, state₃, h₃⟩ hResult => ?_
      obtain ⟨choices, text₃, hChoices, hAlternatives, hState₃⟩ := hResult
      refine (expect_reveals hState₃ (by decide)).bind
        fun ⟨_, state₄, h₄⟩ ⟨hClosing, hState₄, _⟩ => ?_
      refine ⟨.group choices, _, .group (isMark_drop hState₁ hPeek) hChoices hClosing,
        nofun, ?_, hState₄.finish none (.subrule · span .once alternatives)⟩
      exact congrArg (fun choices => Outline.Element.primary none (.group choices) .once)
        hAlternatives
  · split
    · refine (reference_reveals span label hState₁).bind fun result hResult => ?_
      obtain ⟨matched, text₁, hMatched, hGroup, hExpr, hState⟩ := hResult
      exact ⟨matched, text₁, hMatched, fun _ => hGroup, hExpr, hState⟩
    · trivial
termination_by 8 * state.remaining + 1

/-- What is read as the children of a node is written as elements, with a mark at the end. -/
theorem children_reveals {text : List Char} (state : ReadState source bound)
    (h : state.Follows contents text) :
    (children state).Reveals fun result => ∃ parts text₁,
      Outline.AreWritten parts text text₁ ∧ IsMark ')' text₁ result.state.rest ∧
        Expr.outlines result.value = Outline.groupedElements parts ∧
          result.state.Follows contents result.state.rest := by
  rw [children]
  refine (nextChar_reveals h).bind fun ⟨c, state₁, h₁⟩ ⟨_, hc, hState₁⟩ => ?_
  cases c with
  | none => trivial
  | some c =>
    dsimp only
    split
    · next hClosing =>
      subst hClosing
      exact ⟨[], text, .nil text, isMark_drop hState₁ hc.symm, rfl, hState₁.drop 1⟩
    split
    · trivial
    · refine Attempt.Reveals.bind_ite (part_reveals c state₁ hState₁)
        fun ⟨expr, state₂, h₂⟩ hResult => ?_
      obtain ⟨part, text₂, hPart, hExpr, hState₂⟩ := hResult
      refine (children_reveals state₂ hState₂).bind fun ⟨exprs, state₃, h₃⟩ hResult => ?_
      obtain ⟨parts, text₃, hParts, hClosing, hExprs, hState₃⟩ := hResult
      exact ⟨part :: parts, text₃, .cons hPart hParts, hClosing,
        congrArg₂ List.cons hExpr hExprs, hState₃⟩
termination_by 8 * state.remaining + 5

end

end ReadState

end TreeGrammar
