import TreeGrammar.Grammar.Parser
import TreeGrammar.Proofs.Grammar.Words

/-!
# Elements that are written are read

The parser reads elements that are written as an outline has them without an error, and what it
reads says what the outline says.

The steps of the parser are gone through one by one. Since the parser may stand anywhere in a gap,
what is known about its place is only what comes after the gap; right after a word or a mark, it is
what comes next. A step sees at most one character of what follows its part, which decides whether a
name is a label, whether a suffix follows an element, and where elements and alternatives end.

## Main definitions

* `ReadState.Reaches`, `ReadState.IsAt`: where a parser stands, and what it has read
* `NextIs`: the first character after a gap

## Main results

* `ReadState.alternatives_yields`, `ReadState.element_yields`: elements that are written are read
-/

namespace TreeGrammar

open Text
open ReadState (identLength)

/-! ### Signs -/

/-- A character that ends gaps and words. -/
def isSign (c : Char) : Bool := !isBlank c && c ≠ '/' && !isIdentChar c

/-- A sign ends the gap in front of it. -/
theorem IsMark.afterGap_eq {c : Char} {text rest : List Char} (h : IsMark c text rest)
    (hc : isSign c) : afterGap text = some (c :: rest) := by
  simp only [isSign, Bool.and_eq_true, Bool.not_eq_true', decide_eq_true_eq] at hc
  rw [Gap.afterGap_eq h]
  exact afterGap_cons (by simp [hc.1.1]) hc.1.2

/-- A character with a property comes next, maybe after a gap. -/
def NextIs (p : Char → Prop) (text : List Char) : Prop :=
  ∃ c more, afterGap text = some (c :: more) ∧ p c

theorem NextIs.head {p : Char → Prop} {c : Char} {text more : List Char} (h : NextIs p text)
    (hGap : afterGap text = some (c :: more)) : p c := by
  obtain ⟨d, others, hText, hd⟩ := h
  obtain ⟨rfl, -⟩ := List.cons.inj (Option.some.inj (hGap.symm.trans hText))
  exact hd

/-- If something else comes next after a gap, then it does so without one. -/
theorem NextIs.head?_ne {c : Char} {text : List Char} (h : NextIs (· ≠ c) text) (hc : isSign c) :
    text.head? ≠ some c := by
  intro hHead
  obtain ⟨more, rfl⟩ := List.head?_eq_some_iff.1 hHead
  exact h.head (IsMark.afterGap_eq (.none _) hc) rfl

theorem NextIs.mono {p q : Char → Prop} {text : List Char} (h : NextIs p text)
    (hpq : ∀ c, p c → q c) : NextIs q text := by
  obtain ⟨c, more, hText, hc⟩ := h
  exact ⟨c, more, hText, hpq c hc⟩

/-- What comes next is not a character without the property. -/
theorem NextIs.ne {p : Char → Prop} {c : Char} {text : List Char} (h : NextIs p text)
    (hc : ¬ p c) : NextIs (· ≠ c) text :=
  h.mono fun _ hd hEq => hc (hEq ▸ hd)

theorem IsMark.nextIs {p : Char → Prop} {c : Char} {text rest : List Char} (h : IsMark c text rest)
    (hc : isSign c) (hp : p c) : NextIs p text :=
  ⟨c, rest, h.afterGap_eq hc, hp⟩

theorem IsWord.nextIs {name : String} {text rest : List Char} (h : IsWord name text rest) :
    NextIs (fun c => isIdentStart c) text := by
  obtain ⟨c, more, hName, hStart⟩ := h.exists_cons
  refine ⟨c, more ++ rest, ?_, hStart⟩
  rw [h.afterGap_eq, hName, List.cons_append]

/-- A character with which an element begins that is no code. -/
def startsPrimary (c : Char) : Bool := isIdentStart c || c = '#' || c = '.' || c = '('

/-- A character that may come after an element with all that belongs to it. -/
def mayFollow (c : Char) : Bool := startsPrimary c || c = '{' || c = '|' || c = ')' || c = ';'

/-- What may follow an element neither belongs to it nor makes its name a label. -/
theorem ne_of_mayFollow {c d : Char} (h : mayFollow c) (hd : mayFollow d = false) : c ≠ d := by
  rintro rfl
  exact absurd (h.symm.trans hd) (by decide)

theorem IsEnclosed.nextIs {p : Char → Prop} {opening closing : Char} {code : String}
    {text rest : List Char} (h : IsEnclosed opening closing code text rest) (hc : isSign opening)
    (hp : p opening) : NextIs p text := by
  obtain ⟨hOpening, -⟩ := h
  exact hOpening.nextIs hc hp

theorem mayFollow_of_close {close c : Char} (hClose : close = ')' ∨ close = ';')
    (hc : c = '|' ∨ c = close) : mayFollow c := by
  rcases hc with rfl | rfl
  · decide
  · rcases hClose with rfl | rfl
    · decide
    · decide

namespace Outline

theorem Primary.IsWritten.nextIs {primary : Primary} {text rest : List Char}
    (h : primary.IsWritten text rest) : NextIs (fun c => startsPrimary c) text := by
  have hWord : ∀ c, isIdentStart c = true → startsPrimary c = true := fun c hc => by
    simp [startsPrimary, hc]
  cases h with
  | node hOpening => exact IsMark.nextIs hOpening (by decide) (by decide)
  | token hName | call hName | callWith hName => exact hName.nextIs.mono hWord
  | wildcard hMark => exact hMark.nextIs (by decide) (by decide)
  | group hOpening => exact hOpening.nextIs (by decide) (by decide)

/-- The first character of an element. -/
theorem Element.IsWritten.nextIs {element : Element} {text rest : List Char}
    (h : element.IsWritten text rest) :
    NextIs (fun c => startsPrimary c ∨ c = '{') text := by
  cases h with
  | plain hPrimary => exact hPrimary.nextIs.mono fun _ hc => .inl hc
  | labelled hLabel => exact hLabel.nextIs.mono fun c hc => .inl (by simp [startsPrimary, hc])
  | action hCode => exact hCode.nextIs (by decide) (.inr rfl)
  | predicate hCode => exact hCode.nextIs (by decide) (.inr rfl)

/-- The first character of an element closes nothing, and it is no bar. -/
theorem ne_of_startsPrimary {c d : Char} (h : startsPrimary c ∨ c = '{')
    (hd : startsPrimary d = false) (hBrace : d ≠ '{') : c ≠ d := by
  rintro rfl
  rcases h with h | rfl
  · exact absurd (h.symm.trans hd) (by decide)
  · exact hBrace rfl

/-- What comes next before elements may follow another element, if what comes after them may. -/
theorem AreWritten.nextIs {elements : List Element} {text rest : List Char}
    (h : AreWritten elements text rest) (hRest : NextIs (fun c => mayFollow c) rest) :
    NextIs (fun c => mayFollow c) text := by
  cases h with
  | nil => exact hRest
  | cons hElement =>
    refine hElement.nextIs.mono fun c hc => ?_
    rcases hc with hc | rfl
    · simp [mayFollow, hc]
    · decide

end Outline

/-- A name is the name of a token if it starts like one. -/
theorem Ident.isToken_iff {ident : Ident} {name : String} (h : ident.name = name) :
    ident.isToken ↔ IsTokenName name := by
  rw [Ident.isToken, h, Option.any_eq_true]
  rfl

/-- A group around a single element. -/
theorem Expr.outline_singleton (id : Nat) (span place : Span) (repetition : Repetition)
    (expr : Expr) :
    (Expr.subrule id span repetition [.mk none [expr] place]).outline =
      .primary none (.group [.mk none [expr.outline]]) repetition := rfl

/-- A suffix is a mark, if there is one. -/
theorem Outline.IsSuffix.exists_mark {repetition : Repetition} {text rest : List Char}
    (h : IsSuffix repetition text rest) :
    (repetition = .once ∧ text = rest) ∨ (repetition ≠ .once ∧ ∃ c,
      ReadState.suffix? (some c) = some repetition ∧ isSign c ∧ IsMark c text rest) := by
  cases h with
  | once => exact .inl ⟨rfl, rfl⟩
  | optional hMark => exact .inr ⟨by simp, '?', rfl, by decide, hMark⟩
  | star hMark => exact .inr ⟨by simp, '*', rfl, by decide, hMark⟩
  | plus hMark => exact .inr ⟨by simp, '+', rfl, by decide, hMark⟩

/-- What may follow an element is no suffix. -/
theorem suffix?_of_mayFollow {c : Char} (h : mayFollow c) : ReadState.suffix? (some c) = none := by
  have hOptional := ne_of_mayFollow h (d := '?') (by decide)
  have hStar := ne_of_mayFollow h (d := '*') (by decide)
  have hPlus := ne_of_mayFollow h (d := '+') (by decide)
  simp [ReadState.suffix?, hOptional, hStar, hPlus]

/-- What comes after an element without its suffix. -/
theorem Outline.IsSuffix.nextIs {repetition : Repetition} {text rest : List Char}
    (h : IsSuffix repetition text rest) (hRest : NextIs (fun c => mayFollow c) rest) :
    NextIs (fun c => c ≠ '[' ∧ c ≠ '=') text := by
  have hFollow : ∀ c, mayFollow c = true → c ≠ '[' ∧ c ≠ '=' := fun c hc =>
    ⟨ne_of_mayFollow hc (by decide), ne_of_mayFollow hc (by decide)⟩
  cases h with
  | once => exact hRest.mono hFollow
  | optional hMark | star hMark | plus hMark => exact hMark.nextIs (by decide) (by decide)

/-- An element without a label does not look like one with a label. -/
theorem Outline.Primary.IsWritten.isUnlabelled {primary : Primary} {text rest : List Char}
    (h : primary.IsWritten text rest) (hRest : NextIs (· ≠ '=') rest) :
    (∃ name more, IsWord name text more ∧ NextIs (· ≠ '=') more) ∨
      NextIs (fun c => ¬ isIdentStart c) text := by
  cases h with
  | token hName | call hName => exact .inl ⟨_, _, hName, hRest⟩
  | callWith hName =>
    exact .inl ⟨_, _, hName, IsMark.nextIs (.none _) (by decide) (by decide)⟩
  | node hOpening => exact .inr (IsMark.nextIs hOpening (by decide) (by decide))
  | wildcard hMark => exact .inr (hMark.nextIs (by decide) (by decide))
  | group hOpening => exact .inr (hOpening.nextIs (by decide) (by decide))

/-! ### Results of steps -/

variable {source : List Char} {bound : Nat} {α β : Type}

namespace Attempt

/-- A step has a result with a property. -/
def Yields (attempt : Attempt source bound α) (p : α → Prop) : Prop :=
  ∃ result, attempt = .ok result ∧ p result

/-- One of two steps and another one after it, as they are written with `do`. -/
theorem bind_ite (c : Prop) [Decidable c] (attempt other : Attempt source bound α)
    (next : α → Attempt source bound β) :
    (if c then attempt >>= next else other >>= next) =
      (if c then attempt else other) >>= next := by
  by_cases hc : c
  · rw [if_pos hc, if_pos hc]
  · rw [if_neg hc, if_neg hc]

variable {p : α → Prop} {q : β → Prop} {attempt : Attempt source bound α}
  {next : α → Attempt source bound β}

theorem yields_ok {result : α} (h : p result) : Yields (.ok result : Attempt source bound α) p :=
  ⟨result, rfl, h⟩

/-- A step and another one after it. -/
theorem Yields.bind (h : attempt.Yields p) (hNext : ∀ result, p result → (next result).Yields q) :
    (attempt >>= next).Yields q := by
  obtain ⟨result, rfl, hResult⟩ := h
  exact hNext result hResult

/-- One of two steps and another one after it. -/
theorem Yields.bind_ite {c : Prop} [Decidable c] {other : Attempt source bound α}
    (h : (if c then attempt else other).Yields p)
    (hNext : ∀ result, p result → (next result).Yields q) :
    (if c then attempt >>= next else other >>= next).Yields q := by
  rw [Attempt.bind_ite]
  exact h.bind hNext

end Attempt

namespace ReadState

/-- A parser stands at a place up to a gap, and it has read these contents. -/
structure Reaches (state : ReadState source bound) (contents : Contents) (text : List Char) :
    Prop where
  gap : afterGap state.rest = afterGap text
  contents : state.grammar.contents = contents

/-- A parser stands at a place, and it has read these contents. -/
structure IsAt (state : ReadState source bound) (contents : Contents) (text : List Char) :
    Prop where
  rest : state.rest = text
  contents : state.grammar.contents = contents

variable {state : ReadState source bound} {contents : Contents} {text rest : List Char}

theorem IsAt.reaches (h : state.IsAt contents text) : state.Reaches contents text :=
  ⟨congrArg afterGap h.rest, h.contents⟩

/-- A parser that stands after a gap reaches the place in front of the gap. -/
theorem IsAt.reaches_of_gap (h : state.IsAt contents rest) (hGap : afterGap text = some rest) :
    state.Reaches contents text :=
  ⟨by rw [h.rest, hGap, afterGap_afterGap hGap], h.contents⟩

theorem IsAt.drop {c : Char} (h : state.IsAt contents (c :: rest)) :
    (state.drop 1).IsAt contents rest :=
  ⟨by rw [rest_drop, h.rest]; rfl, h.contents⟩

/-- After a sign, no word ends. -/
theorem endsNoWord_drop {c : Char} (hRest : state.rest = c :: rest) (hc : isSign c) :
    EndsNoWord (state.drop 1).reader.before := by
  intro d hd
  have hBefore : (state.reader.drop 1).before = c :: state.reader.before := by
    have hTake : state.reader.rest.take 1 = [c] := by
      rw [show state.reader.rest = c :: rest from hRest]
      rfl
    rw [Reader.before_drop, hTake]
    rfl
  obtain rfl : c = d := by
    rw [show (state.drop 1).reader = state.reader.drop 1 from rfl, hBefore] at hd
    exact Option.some.inj hd
  simp only [isSign, Bool.and_eq_true, Bool.not_eq_true'] at hc
  simp [hc.2]

/-! ### Marks, names and code -/

theorem skipTrivia_yields (h : state.Reaches contents text) (hGap : afterGap text = some rest) :
    state.skipTrivia.Yields fun result => result.state.IsAt contents rest := by
  have hRest := h.gap.trans hGap
  rw [afterGap] at hRest
  split at hRest
  · cases hRest
  · next hClosed =>
    rw [skipTrivia, if_neg hClosed]
    exact Attempt.yields_ok ⟨by rw [rest_drop]; exact Option.some.inj hRest, h.contents⟩

theorem nextChar_yields (h : state.Reaches contents text) (hGap : afterGap text = some rest) :
    state.nextChar.Yields fun result =>
      result.value = rest.head? ∧ result.state.IsAt contents rest :=
  (skipTrivia_yields h hGap).bind fun _ hNext =>
    Attempt.yields_ok ⟨congrArg List.head? hNext.rest, hNext⟩

/-- A mark that comes next is found. -/
theorem eat_yields_yes {c : Char} (h : state.Reaches contents text) (hMark : IsMark c text rest)
    (hc : isSign c) :
    (state.eat c).Yields fun found => ∃ next lt, found = .yes () next lt ∧
      next.IsAt contents rest ∧ EndsNoWord next.reader.before := by
  refine (skipTrivia_yields h (hMark.afterGap_eq hc)).bind fun ⟨_, next, _⟩ hNext => ?_
  have hPeek : next.peek? = some c := congrArg List.head? hNext.rest
  dsimp only
  rw [dif_pos hPeek]
  exact Attempt.yields_ok ⟨_, _, rfl, hNext.drop, endsNoWord_drop hNext.rest hc⟩

/-- A mark is not found where something else comes next. -/
theorem eat_yields_no {c : Char} (h : state.Reaches contents text) (hNext : NextIs (· ≠ c) text) :
    (state.eat c).Yields fun found => ∃ next le, found = .no next le ∧
      next.Reaches contents text := by
  obtain ⟨d, more, hGap, hd⟩ := hNext
  refine (skipTrivia_yields h hGap).bind fun ⟨_, next, _⟩ hNext => ?_
  have hPeek : next.peek? ≠ some c := by
    rw [peek?, hNext.rest]
    exact fun hEq => hd (Option.some.inj hEq)
  dsimp only
  rw [dif_neg hPeek]
  exact Attempt.yields_ok ⟨_, _, rfl, hNext.reaches_of_gap hGap⟩

theorem expect_yields {c : Char} (h : state.Reaches contents text) (hMark : IsMark c text rest)
    (hc : isSign c) :
    (state.expect c).Yields fun result =>
      result.state.IsAt contents rest ∧ EndsNoWord result.state.reader.before := by
  refine (eat_yields_yes h hMark hc).bind fun found hFound => ?_
  obtain ⟨next, lt, rfl, hNext⟩ := hFound
  exact Attempt.yields_ok hNext

/-- A name that comes next is found. -/
theorem ident_yields_yes {name : String} (h : state.Reaches contents text)
    (hWord : IsWord name text rest) :
    state.ident.Yields fun found => ∃ ident next lt, found = .yes ident next lt ∧
      ident.name = name ∧ next.IsAt contents rest := by
  refine (skipTrivia_yields h hWord.afterGap_eq).bind fun ⟨_, next, _⟩ hNext => ?_
  have hLength : identLength next.rest = name.toList.length := by
    rw [hNext.rest, hWord.identLength_eq]
  have hPos : 0 < identLength next.rest := by
    obtain ⟨c, more, hName, -⟩ := hWord.exists_cons
    rw [hLength, hName]
    exact Nat.zero_lt_succ _
  dsimp only
  rw [dif_pos hPos]
  refine Attempt.yields_ok ⟨_, _, _, rfl, ?_, ?_, hNext.contents⟩
  · rw [hLength, hNext.rest, List.take_left, String.ofList_toList]
  · rw [rest_drop, hLength, hNext.rest, List.drop_left]

/-- No name is found where something else comes next. -/
theorem ident_yields_no (h : state.Reaches contents text) (hGap : afterGap text = some rest)
    (hRest : ∀ c ∈ rest.head?, ¬ isIdentStart c) :
    state.ident.Yields fun found => ∃ next le, found = .no next le := by
  refine (skipTrivia_yields h hGap).bind fun ⟨_, next, _⟩ hNext => ?_
  have hLength : ¬ 0 < identLength next.rest := by
    rw [hNext.rest]
    cases rest with
    | nil => exact Nat.lt_irrefl 0
    | cons c more =>
      rw [identLength, if_neg (hRest c rfl)]
      exact Nat.lt_irrefl 0
  dsimp only
  rw [dif_neg hLength]
  exact Attempt.yields_ok ⟨_, _, rfl⟩

theorem expectIdent_yields {name : String} (h : state.Reaches contents text)
    (hWord : IsWord name text rest) (wanted : SyntaxError.Wanted) :
    (state.expectIdent wanted).Yields fun result =>
      result.value.name = name ∧ result.state.IsAt contents rest := by
  refine (ident_yields_yes h hWord).bind fun found hFound => ?_
  obtain ⟨ident, next, lt, rfl, hNext⟩ := hFound
  exact Attempt.yields_ok hNext

/-- Code is read up to its end, and the contents stay the same. -/
theorem fragment_yields {stops : List Char} {angle : Bool} {code : String}
    (h : state.IsAt contents text) (hBefore : EndsNoWord state.reader.before)
    (hCode : IsCode stops angle code text rest) :
    (state.fragment stops angle).Yields fun result =>
      result.value.text = code ∧ result.state.IsAt contents rest := by
  obtain ⟨result, hResult, hText, hRest⟩ := (h.rest ▸ hCode).exists_fragment hBefore
  have hGrammar := (end_of_fragment hResult).2
  exact ⟨result, hResult, hText, hRest, by rw [hGrammar, h.contents]⟩

theorem isBlank_eq_false {code : Fragment} (h : ¬ IsBlankCode code.text) :
    code.isBlank = false := by
  rw [Fragment.isBlank, ← Bool.not_eq_true, List.all_eq_true]
  exact h

/-! ### Elements -/

/-- A block of code is read. It is a predicate if and only if a question mark follows it. -/
theorem codeBlock_yields (isPredicate : Bool) {code : String} {text₁ : List Char}
    (h : state.Reaches contents text) (hCode : IsEnclosed '{' '}' code text text₁)
    (hBlank : ¬ IsBlankCode code)
    (hEnd : if isPredicate then IsMark '?' text₁ rest else text₁ = rest ∧ NextIs (· ≠ '?') rest) :
    state.codeBlock.Yields fun result => result.value.1.text = code ∧
      result.value.2 = isPredicate ∧ result.state.Reaches contents rest := by
  obtain ⟨hOpening, hCode⟩ := hCode
  refine (expect_yields h hOpening (by decide)).bind fun ⟨_, state₁, _⟩ ⟨h₁, hBefore⟩ => ?_
  refine (fragment_yields h₁ hBefore hCode).bind fun ⟨block, state₂, _⟩ ⟨hText, h₂⟩ => ?_
  refine (expect_yields h₂.reaches (.none _) (by decide)).bind fun ⟨_, state₃, _⟩ ⟨h₃, _⟩ => ?_
  have hNotBlank : block.isBlank = false := isBlank_eq_false (hText ▸ hBlank)
  -- only the mark after the block tells a predicate from an action
  cases isPredicate with
  | true =>
    refine (eat_yields_yes h₃.reaches hEnd (by decide)).bind fun found hFound => ?_
    obtain ⟨next, lt, rfl, h₄, -⟩ := hFound
    simp only [hNotBlank]
    exact Attempt.yields_ok ⟨hText, rfl, h₄.reaches⟩
  | false =>
    obtain ⟨rfl, hNext⟩ : text₁ = rest ∧ NextIs (· ≠ '?') rest := hEnd
    refine (eat_yields_no h₃.reaches hNext).bind fun found hFound => ?_
    obtain ⟨next, le, rfl, h₄⟩ := hFound
    simp only [hNotBlank]
    exact Attempt.yields_ok ⟨hText, rfl, h₄⟩

/-- A numbered element is read without a change of the contents. -/
theorem IsAt.finish (h : state.IsAt contents text) (label : Option Ident) (build : Nat → Expr) :
    (state.finish label build).state.IsAt contents text :=
  ⟨h.rest, h.contents⟩

theorem Reaches.finish (h : state.Reaches contents text) (label : Option Ident)
    (build : Nat → Expr) : (state.finish label build).state.Reaches contents text :=
  ⟨h.gap, h.contents⟩

/-- A label that comes next is read. -/
theorem label_yields_some {label : String} {text₁ : List Char} (h : state.Reaches contents text)
    (hLabel : IsWord label text text₁) (hLower : ¬ IsTokenName label)
    (hEquals : IsMark '=' text₁ rest) :
    state.label.Yields fun result => result.value.map Ident.name = some label ∧
      result.state.IsAt contents rest := by
  obtain ⟨_, hIdent, ident, next, lt, rfl, hName, hNext⟩ := ident_yields_yes h hLabel
  obtain ⟨_, hEat, next', lt', rfl, hNext', -⟩ :=
    eat_yields_yes hNext.reaches hEquals (by decide)
  have hNot : ident.isToken = false := Bool.eq_false_iff.2 (mt (Ident.isToken_iff hName).1 hLower)
  rw [ReadState.label, hIdent]
  simp only [bind, Except.bind, hEat, pure, Except.pure, hNot]
  exact Attempt.yields_ok ⟨congrArg some hName, hNext'⟩

/-- A name is no label unless an equals sign comes after it. -/
theorem label_yields_none (h : state.Reaches contents text)
    (hWord : (∃ name rest, IsWord name text rest ∧ NextIs (· ≠ '=') rest) ∨
      NextIs (fun c => ¬ isIdentStart c) text) :
    state.label.Yields fun result => result.value = none ∧ result.state = state := by
  rcases hWord with ⟨name, rest, hWord, hNext⟩ | hNext
  · obtain ⟨_, hIdent, ident, next, lt, rfl, -, hAt⟩ := ident_yields_yes h hWord
    obtain ⟨_, hEat, next', le', rfl, -⟩ := eat_yields_no hAt.reaches hNext
    rw [ReadState.label, hIdent]
    simp only [bind, Except.bind, hEat, pure, Except.pure]
    exact Attempt.yields_ok ⟨rfl, rfl⟩
  · obtain ⟨c, more, hGap, hc⟩ := hNext
    obtain ⟨_, hIdent, next, le, rfl⟩ := ident_yields_no h hGap (by simpa using hc)
    rw [ReadState.label, hIdent]
    exact Attempt.yields_ok ⟨rfl, rfl⟩

section Reference

variable {name : String} (span : Span) (label : Option Ident)

theorem reference_yields_token (h : state.Reaches contents text) (hName : IsWord name text rest)
    (hToken : IsTokenName name) :
    (reference span label state).Yields fun result =>
      result.value.outline = .primary (label.map Ident.name) (.token name) .once ∧
        result.state.Reaches contents rest := by
  refine (expectIdent_yields h hName _).bind fun ⟨ident, state₁, _⟩ ⟨hIdent, h₁⟩ => ?_
  have hIsToken : ident.isToken := (Ident.isToken_iff hIdent).2 hToken
  dsimp only at hIdent ⊢
  rw [if_pos hIsToken]
  subst hIdent
  exact Attempt.yields_ok ⟨rfl, (h₁.finish label (.token · span label ident)).reaches⟩

/-- A name without arguments after it is a call if it is no token. -/
theorem reference_yields_call (h : state.Reaches contents text) (hName : IsWord name text rest)
    (hRule : ¬ IsTokenName name) (hRest : rest.head? ≠ some '[') :
    (reference span label state).Yields fun result =>
      result.value.outline = .primary (label.map Ident.name) (.call name none) .once ∧
        result.state.Reaches contents rest := by
  refine (expectIdent_yields h hName _).bind fun ⟨ident, state₁, _⟩ ⟨hIdent, h₁⟩ => ?_
  have hIsRule : ¬ ident.isToken := mt (Ident.isToken_iff hIdent).1 hRule
  have hPeek : state₁.peek? ≠ some '[' := by
    rw [peek?, h₁.rest]
    exact hRest
  dsimp only at hIdent ⊢
  rw [if_neg hIsRule, if_neg hPeek]
  subst hIdent
  exact Attempt.yields_ok ⟨rfl, (h₁.finish label (.rule · span label ident none)).reaches⟩

theorem reference_yields_callWith {args : String} {text₁ : List Char}
    (h : state.Reaches contents text) (hName : IsWord name text ('[' :: text₁))
    (hRule : ¬ IsTokenName name) (hArgs : IsCode [']'] false args text₁ (']' :: rest)) :
    (reference span label state).Yields fun result =>
      result.value.outline = .primary (label.map Ident.name) (.call name (some args)) .once ∧
        result.state.Reaches contents rest := by
  refine (expectIdent_yields h hName _).bind fun ⟨ident, state₁, _⟩ ⟨hIdent, h₁⟩ => ?_
  have hIsRule : ¬ ident.isToken := mt (Ident.isToken_iff hIdent).1 hRule
  have hPeek : state₁.peek? = some '[' := congrArg List.head? h₁.rest
  dsimp only at hIdent ⊢
  rw [if_neg hIsRule, if_pos hPeek]
  have hBefore := endsNoWord_drop h₁.rest (by decide)
  refine (fragment_yields h₁.drop hBefore hArgs).bind fun ⟨code, state₂, _⟩ ⟨hCode, h₂⟩ => ?_
  refine (expect_yields h₂.reaches (.none _) (by decide)).bind fun ⟨_, state₃, _⟩ ⟨h₃, _⟩ => ?_
  subst hIdent hCode
  exact Attempt.yields_ok
    ⟨rfl, (h₃.finish label (.rule · span label ident (some code))).reaches⟩

end Reference

/-- An element is put under a suffix, and nothing else is changed. -/
theorem repeatExpr_yields (span : Span) {repetition : Repetition} (hRepeats : repetition ≠ .once)
    {expr : Expr} {primary : Outline.Primary} (h : state.IsAt contents text)
    (hExpr : expr.outline = .primary none primary .once) :
    (repeatExpr span repetition expr state).value.outline = primary.repeated none repetition ∧
      (repeatExpr span repetition expr state).state.IsAt contents text := by
  have hRepeated : primary.repeated none repetition = if primary.isGroup then
      .primary none primary repetition
      else .primary none (.group [.mk none [.primary none primary .once]]) repetition := by
    cases repetition with
    | once => exact absurd rfl hRepeats
    | optional | star | plus => rfl
  rw [hRepeated]
  -- a group takes the suffix itself, and anything else is put into a group of its own
  cases expr with
  | subrule id span inner alternatives =>
    rw [Expr.outline] at hExpr
    obtain ⟨-, rfl, rfl⟩ := Outline.Element.primary.inj hExpr
    exact ⟨rfl, h.rest, h.contents⟩
  | node | token | wildcard | rule =>
    have hExpr' := hExpr
    rw [Expr.outline] at hExpr'
    obtain ⟨-, rfl, -⟩ := Outline.Element.primary.inj hExpr'
    refine ⟨?_, h.finish none (.subrule · span repetition [.mk none [_] span])⟩
    rw [if_neg (by simp [Outline.Primary.isGroup])]
    exact (Expr.outline_singleton ..).trans (by rw [hExpr])
  | action | predicate => cases hExpr

/-- The suffix of an element is read, and the element is put under it. -/
theorem suffixed_yields (span : Span) {label : Option Ident} {repetition : Repetition}
    {expr : Expr} {primary : Outline.Primary} (h : state.Reaches contents text)
    (hSuffix : Outline.IsSuffix repetition text rest) (hLabel : repetition = .once ∨ label = none)
    (hExpr : expr.outline = .primary (label.map Ident.name) primary .once)
    (hRest : NextIs (fun c => mayFollow c) rest) :
    (suffixed span label expr state).Yields fun result =>
      result.value.outline = primary.repeated (label.map Ident.name) repetition ∧
        result.state.Reaches contents rest := by
  rcases hSuffix.exists_mark with ⟨rfl, rfl⟩ | ⟨hRepeats, c, hSuffix, hSign, hMark⟩
  -- without a suffix, only the gap after the element is passed
  · obtain ⟨c, more, hGap, hc⟩ := hRest
    refine (nextChar_yields h hGap).bind fun ⟨d, state₁, _⟩ ⟨hd, h₁⟩ => ?_
    obtain rfl : d = some c := hd
    simp only [suffix?_of_mayFollow hc]
    exact Attempt.yields_ok ⟨hExpr, h₁.reaches_of_gap hGap⟩
  · obtain rfl : label = none := hLabel.resolve_left hRepeats
    refine (nextChar_yields h (hMark.afterGap_eq hSign)).bind fun ⟨d, state₁, _⟩ ⟨hd, h₁⟩ => ?_
    obtain rfl : d = some c := hd
    simp only [hSuffix]
    obtain ⟨hOutline, hState⟩ := repeatExpr_yields span hRepeats h₁.drop hExpr
    exact Attempt.yields_ok ⟨hOutline, hState.reaches⟩

/-- An element that begins with a name is a reference. -/
theorem primary_yields_reference {span : Span} {label : Option Ident} {c : Char} {more : List Char}
    {part : Outline.Element} (h : state.Reaches contents text)
    (hGap : afterGap text = some (c :: more)) (hc : isIdentStart c)
    (hReference : ∀ next : ReadState source bound, next.Reaches contents text →
      (reference span label next).Yields fun result =>
        result.value.outline = part ∧ result.state.Reaches contents rest) :
    (primary span label state).Yields fun result =>
      result.value.outline = part ∧ result.state.Reaches contents rest := by
  rw [primary]
  refine (skipTrivia_yields h hGap).bind ?_
  rintro ⟨_, state₁, h₁⟩ hState₁
  have hPeek : state₁.peek? = some c := congrArg List.head? hState₁.rest
  -- no name begins with one of the three marks
  have hOther : ∀ d, isIdentStart d = false → state₁.peek? ≠ some d := by
    intro d hd hEq
    obtain rfl := Option.some.inj (hPeek.symm.trans hEq)
    exact absurd (hc.symm.trans hd) (by decide)
  dsimp only
  split
  · next hHash => exact absurd hHash (hOther '#' (by decide))
  · next hDot => exact absurd hDot (hOther '.' (by decide))
  · next hOpening => exact absurd hOpening (hOther '(' (by decide))
  · have hStart : state₁.peek?.any isIdentStart = true := by
      rw [hPeek]
      exact hc
    rw [if_pos hStart]
    refine (hReference state₁ (hState₁.reaches_of_gap hGap)).bind fun result hResult => ?_
    exact Attempt.yields_ok hResult

-- The induction is on the recursion of the parser, with the measure by which the parser ends.
mutual

/-- Alternatives that are written are read, up to the mark that closes them. -/
theorem alternatives_yields {close : Char} (hClose : close = ')' ∨ close = ';')
    {choices : List Outline.Alternative} {text rest : List Char}
    (hWritten : Outline.AreChoices choices text rest) (hRest : NextIs (· = close) rest)
    (state : ReadState source bound) (h : state.Reaches contents text) :
    (alternatives close state).Yields fun result =>
      Alternative.outlines result.value = Outline.groupedAlternatives choices ∧
        result.state.Reaches contents rest := by
  rw [alternatives]
  cases hWritten with
  | last hAlternative =>
    refine (alternative_yields hClose hAlternative (hRest.mono fun _ hc => .inr hc) state h).bind
      fun ⟨first, state₁, h₁⟩ ⟨hFirst, hState₁⟩ => ?_
    have hNoBar : NextIs (· ≠ '|') rest := hRest.mono fun c hc => by
      rcases hClose with rfl | rfl
      · exact hc ▸ by decide
      · exact hc ▸ by decide
    refine (eat_yields_no hState₁ hNoBar).bind fun found hFound => ?_
    obtain ⟨next, le, rfl, hNext⟩ := hFound
    exact Attempt.yields_ok ⟨congrArg (fun choice => [choice]) hFirst, hNext⟩
  | cons hAlternative hBar hAlternatives =>
    have hNext : NextIs (fun c => c = '|' ∨ c = close) _ := hBar.nextIs (by decide) (.inl rfl)
    refine (alternative_yields hClose hAlternative hNext state h).bind
      fun ⟨first, state₁, h₁⟩ ⟨hFirst, hState₁⟩ => ?_
    refine (eat_yields_yes hState₁ hBar (by decide)).bind fun found hFound => ?_
    obtain ⟨next, lt, rfl, hNext, -⟩ := hFound
    have h₂ : next.remaining < state₁.remaining := lt
    refine (alternatives_yields hClose hAlternatives hRest next hNext.reaches).bind
      fun ⟨others, state₃, h₃⟩ ⟨hOthers, hState₃⟩ => ?_
    exact Attempt.yields_ok ⟨congrArg₂ List.cons hFirst hOthers, hState₃⟩
termination_by 8 * state.remaining + 7

/-- An alternative that is written is read. -/
theorem alternative_yields {close : Char} (hClose : close = ')' ∨ close = ';')
    {choice : Outline.Alternative} {text rest : List Char} (hWritten : choice.IsWritten text rest)
    (hRest : NextIs (fun c => c = '|' ∨ c = close) rest) (state : ReadState source bound)
    (h : state.Reaches contents text) :
    (alternative close state).Yields fun result =>
      result.value.outline = choice.grouped ∧ result.state.Reaches contents rest := by
  rw [alternative]
  cases hWritten with
  | plain hElements hFirst =>
    obtain ⟨c, more, hGap, -⟩ := hElements.nextIs (hRest.mono fun d => mayFollow_of_close hClose)
    refine (skipTrivia_yields h hGap).bind fun ⟨_, state₁, h₁⟩ hState₁ => ?_
    have hReaches : state₁.Reaches contents text := hState₁.reaches_of_gap hGap
    have hPeek : state₁.peek? = some c := congrArg List.head? hState₁.rest
    simp only [hPeek, Option.some.injEq]
    by_cases hBrace : c = '{'
    · subst hBrace
      rw [if_pos rfl]
      -- an action is read in the same way as a guard, but it is an element
      cases hElements with
      | nil =>
        rcases hRest.head hGap with hEq | rfl
        · exact absurd hEq (by decide)
        · exact absurd hClose (by decide)
      | cons hPart hParts =>
        have hFollow := hParts.nextIs (hRest.mono fun d => mayFollow_of_close hClose)
        cases hPart with
        | plain hPrimary => exact absurd (hPrimary.nextIs.head hGap) (by decide)
        | labelled hLabel => exact absurd (hLabel.nextIs.head hGap) (by decide)
        | predicate => exact absurd rfl (hFirst _)
        | action hCode hBlank =>
          have hNoMark := hFollow.mono fun d hd => ne_of_mayFollow hd (d := '?') (by decide)
          refine (codeBlock_yields false hReaches hCode hBlank ⟨rfl, hNoMark⟩).bind
            fun ⟨⟨code, isPredicate⟩, state₂, h₂⟩ ⟨hText, hKind, hState₂⟩ => ?_
          obtain rfl : isPredicate = false := hKind
          have hRemaining : (state₂.finish none (.action · code)).state.remaining =
              state₂.remaining := rfl
          refine (elements_yields hClose hParts hRest (state₂.finish none (.action · code)).state
            (hState₂.finish none _)).bind fun ⟨others, state₄, h₄⟩ ⟨hOthers, hState₄⟩ => ?_
          exact Attempt.yields_ok ⟨congrArg (Outline.Alternative.mk none)
            (congrArg₂ List.cons (congrArg Outline.Element.action hText) hOthers), hState₄⟩
    · rw [if_neg hBrace]
      refine (elements_yields hClose hElements hRest state₁ hReaches).bind
        fun ⟨parts, state₂, h₂⟩ ⟨hParts, hState₂⟩ => ?_
      exact Attempt.yields_ok ⟨congrArg (Outline.Alternative.mk none) hParts, hState₂⟩
  | guarded hCode hBlank hMark hElements =>
    obtain ⟨c, more, hGap, rfl⟩ := hCode.nextIs (p := (· = '{')) (by decide) rfl
    refine (skipTrivia_yields h hGap).bind fun ⟨_, state₁, h₁⟩ hState₁ => ?_
    have hPeek : state₁.peek? = some '{' := congrArg List.head? hState₁.rest
    simp only [hPeek, if_true]
    have hReaches : state₁.Reaches contents text := hState₁.reaches_of_gap hGap
    refine (codeBlock_yields true hReaches hCode hBlank hMark).bind
      fun ⟨⟨code, isPredicate⟩, state₂, h₂⟩ ⟨hText, hKind, hState₂⟩ => ?_
    obtain rfl : isPredicate = true := hKind
    refine (elements_yields hClose hElements hRest state₂ hState₂).bind
      fun ⟨parts, state₃, h₃⟩ ⟨hParts, hState₃⟩ => ?_
    exact Attempt.yields_ok ⟨congrArg₂ Outline.Alternative.mk (congrArg some hText) hParts, hState₃⟩
termination_by 8 * state.remaining + 6

/-- Elements that are written are read, up to the end of their alternative. -/
theorem elements_yields {close : Char} (hClose : close = ')' ∨ close = ';')
    {parts : List Outline.Element} {text rest : List Char}
    (hWritten : Outline.AreWritten parts text rest)
    (hRest : NextIs (fun c => c = '|' ∨ c = close) rest) (state : ReadState source bound)
    (h : state.Reaches contents text) :
    (elements close state).Yields fun result =>
      Expr.outlines result.value = Outline.groupedElements parts ∧
        result.state.Reaches contents rest := by
  rw [elements]
  cases hWritten with
  | nil =>
    obtain ⟨c, more, hGap, hc⟩ := hRest
    refine (nextChar_yields h hGap).bind fun ⟨d, state₁, h₁⟩ ⟨hd, hState₁⟩ => ?_
    obtain rfl : d = some c := hd
    have hEnd : (c = '|' || c = close) = true := by simpa using hc
    simp only [hEnd, if_true]
    exact Attempt.yields_ok ⟨rfl, hState₁.reaches_of_gap hGap⟩
  | cons hPart hParts =>
    obtain ⟨c, more, hGap, hc⟩ := hPart.nextIs
    refine (nextChar_yields h hGap).bind fun ⟨d, state₁, h₁⟩ ⟨hd, hState₁⟩ => ?_
    obtain rfl : d = some c := hd
    -- an element begins neither with a bar nor with what closes the alternatives
    have hNoBar : c ≠ '|' := Outline.ne_of_startsPrimary hc (by decide) (by decide)
    have hNoClose : c ≠ close := by
      rcases hClose with rfl | rfl
      · exact Outline.ne_of_startsPrimary hc (by decide) (by decide)
      · exact Outline.ne_of_startsPrimary hc (by decide) (by decide)
    have hGoesOn : (c = '|' || c = close) = false := by simp [hNoBar, hNoClose]
    have hFollow := hParts.nextIs (hRest.mono fun d hd => mayFollow_of_close hClose hd)
    simp only [hGoesOn]
    refine (part_yields hPart hFollow hGap state₁ (hState₁.reaches_of_gap hGap)).bind_ite
      fun ⟨expr, state₂, h₂⟩ ⟨hExpr, hState₂⟩ => ?_
    refine (elements_yields hClose hParts hRest state₂ hState₂).bind
      fun ⟨others, state₃, h₃⟩ ⟨hOthers, hState₃⟩ => ?_
    exact Attempt.yields_ok ⟨congrArg₂ List.cons hExpr hOthers, hState₃⟩
termination_by 8 * state.remaining + 5

/-- An element or a piece of code that is written is read. -/
theorem part_yields {part : Outline.Element} {c : Char} {text more rest : List Char}
    (hWritten : part.IsWritten text rest) (hRest : NextIs (fun c => mayFollow c) rest)
    (hGap : afterGap text = some (c :: more)) (state : ReadState source bound)
    (h : state.Reaches contents text) :
    (if c = '{' then state.codeElement else element state).Yields fun result =>
      result.value.outline = part.grouped ∧ result.state.Reaches contents rest := by
  cases hWritten with
  | action hCode hBlank =>
    obtain rfl : c = '{' := (hCode.nextIs (p := (· = '{')) (by decide) rfl).head hGap
    have hNoMark : NextIs (· ≠ '?') rest := hRest.mono fun d hd => ne_of_mayFollow hd (by decide)
    rw [if_pos rfl]
    refine (codeBlock_yields false h hCode hBlank ⟨rfl, hNoMark⟩).bind
      fun ⟨⟨code, isPredicate⟩, state₁, h₁⟩ ⟨hText, hKind, hState₁⟩ => ?_
    obtain rfl : isPredicate = false := hKind
    exact Attempt.yields_ok
      ⟨congrArg Outline.Element.action hText, hState₁.finish none (.action · code)⟩
  | predicate hCode hBlank hMark =>
    obtain rfl : c = '{' := (hCode.nextIs (p := (· = '{')) (by decide) rfl).head hGap
    rw [if_pos rfl]
    refine (codeBlock_yields true h hCode hBlank hMark).bind
      fun ⟨⟨code, isPredicate⟩, state₁, h₁⟩ ⟨hText, hKind, hState₁⟩ => ?_
    obtain rfl : isPredicate = true := hKind
    exact Attempt.yields_ok
      ⟨congrArg Outline.Element.predicate hText, hState₁.finish none (.predicate · code)⟩
  | plain hPrimary hSuffix =>
    have hNoCode : c ≠ '{' := by
      rintro rfl
      exact absurd (hPrimary.nextIs.head hGap) (by decide)
    rw [if_neg hNoCode]
    exact element_yields (.plain hPrimary hSuffix) hRest state h
  | labelled hLabel hLower hEquals hPrimary hGroup =>
    have hNoCode : c ≠ '{' := by
      rintro rfl
      exact absurd (hLabel.nextIs.head hGap) (by decide)
    rw [if_neg hNoCode]
    exact element_yields (.labelled hLabel hLower hEquals hPrimary hGroup) hRest state h
termination_by 8 * state.remaining + 4

/-- An element that is written is read. -/
theorem element_yields {label : Option String} {matched : Outline.Primary} {repetition : Repetition}
    {text rest : List Char}
    (hWritten : (Outline.Element.primary label matched repetition).IsWritten text rest)
    (hRest : NextIs (fun c => mayFollow c) rest) (state : ReadState source bound)
    (h : state.Reaches contents text) :
    (element state).Yields fun result =>
      result.value.outline = matched.grouped.repeated label repetition ∧
        result.state.Reaches contents rest := by
  rw [element]
  cases hWritten with
  | plain hPrimary hSuffix =>
    have hNext := hSuffix.nextIs hRest
    obtain ⟨c, more, hGap, -⟩ := hPrimary.nextIs
    refine (skipTrivia_yields h hGap).bind fun ⟨_, state₁, h₁⟩ hState₁ => ?_
    have hReaches : state₁.Reaches contents text := hState₁.reaches_of_gap hGap
    refine (label_yields_none hReaches (hPrimary.isUnlabelled (hNext.mono fun _ hc => hc.2))).bind
      fun ⟨_, state₂, h₂⟩ ⟨hLabel, hState₂⟩ => ?_
    obtain rfl := hLabel
    obtain rfl : state₂ = state₁ := hState₂
    refine (primary_yields none hPrimary (.inl rfl) (hNext.mono fun _ hc => hc.1) _ hReaches).bind
      fun ⟨expr, state₃, h₃⟩ ⟨hExpr, hState₃⟩ => ?_
    refine (suffixed_yields _ hState₃ hSuffix (.inr rfl) hExpr hRest).bind
      fun ⟨expr, state₄, h₄⟩ hResult => ?_
    exact Attempt.yields_ok hResult
  | labelled hLabel hLower hEquals hPrimary hGroup =>
    have hNext := (Outline.IsSuffix.once rest).nextIs hRest
    refine (skipTrivia_yields h hLabel.afterGap_eq).bind fun ⟨_, state₁, h₁⟩ hState₁ => ?_
    have hReaches : state₁.Reaches contents text := hState₁.reaches_of_gap hLabel.afterGap_eq
    refine (label_yields_some hReaches hLabel hLower hEquals).bind
      fun ⟨ident, state₂, h₂⟩ ⟨hIdent, hState₂⟩ => ?_
    refine (primary_yields ident hPrimary (.inr hGroup) (hNext.mono fun _ hc => hc.1) _
      hState₂.reaches).bind fun ⟨expr, state₃, h₃⟩ ⟨hExpr, hState₃⟩ => ?_
    refine (suffixed_yields _ hState₃ (.once rest) (.inl rfl) hExpr hRest).bind
      fun ⟨expr, state₄, h₄⟩ ⟨hResult, hState₄⟩ => ?_
    exact Attempt.yields_ok ⟨by rw [← hIdent]; exact hResult, hState₄⟩
termination_by 8 * state.remaining + 3

/-- An element without its label and its suffix is read. -/
theorem primary_yields (label : Option Ident) {matched : Outline.Primary} {text rest : List Char}
    (hWritten : matched.IsWritten text rest) (hLabel : label = none ∨ matched.isGroup = false)
    (hRest : NextIs (· ≠ '[') rest) (state : ReadState source bound)
    (h : state.Reaches contents text) {span : Span} :
    (primary span label state).Yields fun result =>
      result.value.outline = .primary (label.map Ident.name) matched.grouped .once ∧
        result.state.Reaches contents rest := by
  -- what is written begins with the mark of one branch, which rules out the others
  cases hWritten with
  | token hName hToken =>
    obtain ⟨c, more, hGap, hc⟩ := hName.nextIs
    exact primary_yields_reference h hGap hc fun next hNext =>
      reference_yields_token span label hNext hName hToken
  | call hName hRule =>
    obtain ⟨c, more, hGap, hc⟩ := hName.nextIs
    exact primary_yields_reference h hGap hc fun next hNext =>
      reference_yields_call span label hNext hName hRule (hRest.head?_ne (by decide))
  | callWith hName hRule hArgs =>
    obtain ⟨c, more, hGap, hc⟩ := hName.nextIs
    exact primary_yields_reference h hGap hc fun next hNext =>
      reference_yields_callWith span label hNext hName hRule hArgs
  | wildcard hMark =>
    have hGap := hMark.afterGap_eq (by decide)
    rw [primary]
    refine (skipTrivia_yields h hGap).bind fun ⟨_, state₁, h₁⟩ hState₁ => ?_
    have hPeek : state₁.peek? = some '.' := congrArg List.head? hState₁.rest
    dsimp only
    split
    · next hHash => exact absurd (hPeek.symm.trans hHash) (by decide)
    · exact Attempt.yields_ok ⟨rfl, (hState₁.drop.finish label (.wildcard · span label)).reaches⟩
    · next hOpening => exact absurd (hPeek.symm.trans hOpening) (by decide)
    · next hNoDot _ => exact absurd hPeek hNoDot
  | node hOpening hName hToken hChildren hClosing =>
    have hGap := IsMark.afterGap_eq hOpening (by decide)
    rw [primary]
    refine (skipTrivia_yields h hGap).bind fun ⟨_, state₁, h₁⟩ hState₁ => ?_
    have hPeek : state₁.peek? = some '#' := congrArg List.head? hState₁.rest
    dsimp only
    split
    · have hParenthesis : (state₁.drop 1).peek? = some '(' := congrArg List.head? hState₁.drop.rest
      rw [if_pos hParenthesis]
      refine (expectIdent_yields hState₁.drop.drop.reaches hName _).bind
        fun ⟨ident, state₃, h₃⟩ ⟨hIdent, hState₃⟩ => ?_
      have hIsToken : ident.isToken := (Ident.isToken_iff hIdent).2 hToken
      have hLess : state₃.remaining < state₁.remaining := by
        simp only [remaining_drop] at h₃
        omega
      dsimp only at hIdent ⊢
      rw [if_pos hIsToken]
      refine (children_yields hChildren hClosing state₃ hState₃.reaches).bind
        fun ⟨children, state₄, h₄⟩ ⟨hParts, hState₄⟩ => ?_
      refine Attempt.yields_ok
        ⟨?_, (hState₄.finish label (.node · span label ident children)).reaches⟩
      show Outline.Element.primary _ (.node ident.name (Expr.outlines children)) _ = _
      rw [hIdent, show Expr.outlines children = _ from hParts]
      rfl
    · next hDot => exact absurd (hPeek.symm.trans hDot) (by decide)
    · next hOpening => exact absurd (hPeek.symm.trans hOpening) (by decide)
    · next hNoHash _ _ => exact absurd hPeek hNoHash
  | group hOpening hAlternatives hClosing =>
    have hGap := hOpening.afterGap_eq (by decide)
    obtain rfl : label = none := hLabel.resolve_right (by simp [Outline.Primary.isGroup])
    rw [primary]
    refine (skipTrivia_yields h hGap).bind fun ⟨_, state₁, h₁⟩ hState₁ => ?_
    have hPeek : state₁.peek? = some '(' := congrArg List.head? hState₁.rest
    dsimp only
    split
    · next hHash => exact absurd (hPeek.symm.trans hHash) (by decide)
    · next hDot => exact absurd (hPeek.symm.trans hDot) (by decide)
    · have hLess : (state₁.drop 1).remaining < state₁.remaining := by
        have hPos := remaining_pos_of_peek hPeek
        rw [remaining_drop]
        omega
      refine (alternatives_yields (.inl rfl) hAlternatives (hClosing.nextIs (by decide) rfl) _
        hState₁.drop.reaches).bind fun ⟨alternatives, state₃, h₃⟩ ⟨hChoices, hState₃⟩ => ?_
      refine (expect_yields hState₃ hClosing (by decide)).bind fun ⟨_, state₄, _⟩ ⟨hState₄, _⟩ => ?_
      refine Attempt.yields_ok
        ⟨?_, (hState₄.finish none (.subrule · span .once alternatives)).reaches⟩
      show Outline.Element.primary none (.group (Alternative.outlines alternatives)) _ = _
      rw [show Alternative.outlines alternatives = _ from hChoices]
      rfl
    · next hNoOpening => exact absurd hPeek hNoOpening
termination_by 8 * state.remaining + 1

/-- Elements that are written as the children of a node are read, with the mark that closes them. -/
theorem children_yields {parts : List Outline.Element} {text text₁ rest : List Char}
    (hWritten : Outline.AreWritten parts text text₁) (hClosing : IsMark ')' text₁ rest)
    (state : ReadState source bound) (h : state.Reaches contents text) :
    (children state).Yields fun result =>
      Expr.outlines result.value = Outline.groupedElements parts ∧
        result.state.IsAt contents rest := by
  rw [children]
  cases hWritten with
  | nil =>
    refine (nextChar_yields h (hClosing.afterGap_eq (by decide))).bind
      fun ⟨d, state₁, h₁⟩ ⟨hd, hState₁⟩ => ?_
    obtain rfl := hd
    exact Attempt.yields_ok ⟨rfl, hState₁.drop⟩
  | cons hPart hParts =>
    obtain ⟨c, more, hGap, hc⟩ := hPart.nextIs
    refine (nextChar_yields h hGap).bind fun ⟨d, state₁, h₁⟩ ⟨hd, hState₁⟩ => ?_
    obtain rfl : d = some c := hd
    have hFollow := hParts.nextIs (hClosing.nextIs (by decide) (by decide))
    have hNotClosing : c ≠ ')' := Outline.ne_of_startsPrimary hc (by decide) (by decide)
    have hNoBar : c ≠ '|' := Outline.ne_of_startsPrimary hc (by decide) (by decide)
    simp only [hNotClosing, hNoBar, if_false]
    refine (part_yields hPart hFollow hGap state₁ (hState₁.reaches_of_gap hGap)).bind_ite
      fun ⟨expr, state₂, h₂⟩ ⟨hExpr, hState₂⟩ => ?_
    refine (children_yields hParts hClosing state₂ hState₂).bind
      fun ⟨others, state₃, h₃⟩ ⟨hOthers, hState₃⟩ => ?_
    exact Attempt.yields_ok ⟨congrArg₂ List.cons hExpr hOthers, hState₃⟩
termination_by 8 * state.remaining + 5

end

end ReadState

end TreeGrammar
