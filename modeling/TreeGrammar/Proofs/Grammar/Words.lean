import Mathlib.Data.List.TakeWhile
import TreeGrammar.Proofs.Grammar.Delimiters
import TreeGrammar.Proofs.Grammar.Writing

/-!
# Reading gaps, words and code

White space and comments are skipped up to the same place, from wherever in them one starts. So two
places with nothing but a gap between them are the same for everything that skips gaps first. Names
end where they cannot be prolonged. Where code ends depends on the code alone, and not on the text
in front of it, unless this ends in a word.

## Main definitions

* `afterGap`: the text after all white space and comments

## Main results

* `Gap.afterGap_eq`, `gap_of_afterGap`: what a gap is
* `IsWord.identLength_eq`: the length of a name
-/

namespace TreeGrammar

open Text
open ReadState (identLength)

/-! ### Characters -/

section Longest

variable {p : Char → Bool}

/-- A text begins with as many characters of a kind as possible. -/
theorem exists_longest (p : Char → Bool) (text : List Char) :
    ∃ before after, text = before ++ after ∧ (∀ c ∈ before, p c) ∧ ∀ c ∈ after.head?, ¬ p c := by
  refine ⟨text.takeWhile p, text.dropWhile p, List.takeWhile_append_dropWhile.symm,
    fun c hc => List.mem_takeWhile_imp hc, fun c hc => ?_⟩
  have hHead := List.head?_dropWhile_not p text
  rw [Option.mem_def.1 hc] at hHead
  simpa using hHead

theorem length_takeWhile_append {before after : List Char} (hBefore : ∀ c ∈ before, p c)
    (hAfter : ∀ c ∈ after.head?, ¬ p c) :
    ((before ++ after).takeWhile p).length = before.length := by
  rw [List.takeWhile_append_of_pos hBefore]
  cases after with
  | nil => simp
  | cons c after => simp [hAfter c rfl]

end Longest

/-- No character lies in ranges of two unions that have nothing in common. -/
theorem Text.Ranges.contains_eq_false {a b : Ranges} {c : Char}
    (h : a.all fun r => b.all fun s => r.2 < s.1 || s.2 < r.1) (hc : a.contains c) :
    b.contains c = false := by
  obtain ⟨r, hr, hLow⟩ := List.any_eq_true.1 hc
  refine List.any_eq_false.2 fun s hs hHigh => ?_
  have hApart := List.all_eq_true.1 (List.all_eq_true.1 h r hr) s hs
  simp only [Bool.and_eq_true, Bool.or_eq_true, decide_eq_true_eq] at hLow hHigh hApart
  omega

/-- No letter is white space. -/
theorem isAlphabetic_of_isBlank {c : Char} (h : isBlank c) : isAlphabetic c = false := by
  rw [isBlank] at h
  rw [isAlphabetic]
  by_cases hAscii : c.toNat < 0x80
  · rw [if_pos hAscii] at h ⊢
    simp only [Bool.or_eq_true, Bool.and_eq_true, decide_eq_true_eq] at h
    -- all white space of ASCII comes before the letters
    have hBelow : c.toNat < 33 := by
      rcases h with rfl | hControl
      · decide
      · omega
    have hNone : ∀ n < 33, (Char.ofNat n).isAlpha = false := by decide
    simpa using hNone c.toNat hBelow
  · rw [if_neg hAscii] at h ⊢
    exact Ranges.contains_eq_false (by decide +kernel) h

theorem not_isBlank_of_isIdentStart {c : Char} (h : isIdentStart c) : ¬ isBlank c := by
  intro hBlank
  simp only [isIdentStart, isAlphabetic_of_isBlank hBlank, Bool.false_or,
    decide_eq_true_eq] at h
  subst h
  exact absurd hBlank (by decide)

theorem isIdentChar_of_isIdentStart {c : Char} (h : isIdentStart c) : isIdentChar c := by
  rw [isIdentStart] at h
  rw [isIdentChar, Bool.or_right_comm, h, Bool.true_or]

theorem ne_slash_of_isIdentStart {c : Char} (h : isIdentStart c) : c ≠ '/' := by
  rintro rfl
  revert h
  decide

theorem ne_slash_of_isBlank {c : Char} (h : isBlank c) : c ≠ '/' := by
  rintro rfl
  revert h
  decide

/-! ### White space and comments -/

/-- The text behind the two characters that open a comment. -/
theorem drop_two_add (count : Nat) (c d : Char) (rest : List Char) :
    (c :: d :: rest).drop (2 + count) = rest.drop count := by
  rw [Nat.add_comm]
  rfl

/-- A character that starts no comment is passed if it is white space. -/
theorem triviaLength_cons {c : Char} (hSlash : c ≠ '/') (rest : List Char) :
    triviaLength (c :: rest) =
      if isBlank c then (1 + (triviaLength rest).1, (triviaLength rest).2) else (0, false) := by
  rw [triviaLength]
  · exact fun _ hEq => absurd hEq hSlash
  · exact fun _ hEq => absurd hEq hSlash

/-- The text after all white space and comments; none if a comment is left open. -/
def afterGap (text : List Char) : Option (List Char) :=
  if (triviaLength text).2 then none else some (text.drop (triviaLength text).1)

@[simp] theorem afterGap_nil : afterGap [] = some [] := by
  simp [afterGap]

theorem afterGap_blank {c : Char} {text : List Char} (h : isBlank c) :
    afterGap (c :: text) = afterGap text := by
  simp [afterGap, triviaLength_cons (ne_slash_of_isBlank h), h, Nat.add_comm 1]

theorem afterGap_line (text : List Char) :
    afterGap ('/' :: '/' :: text) = afterGap (text.drop (Literal.lineLength text)) := by
  rw [afterGap, triviaLength]
  simp only [Nat.add_assoc, drop_two_add, List.drop_drop, afterGap]

theorem afterGap_block (text : List Char) :
    afterGap ('/' :: '*' :: text) =
      (Literal.blockCommentLength 1 text).bind fun length => afterGap (text.drop length) := by
  rw [afterGap, triviaLength]
  cases Literal.blockCommentLength 1 text with
  | none => rfl
  | some length => simp only [Nat.add_assoc, drop_two_add, List.drop_drop, afterGap,
      Option.bind_some]

/-- Anything but white space and slashes ends a gap. -/
theorem afterGap_cons {c : Char} {text : List Char} (hBlank : ¬ isBlank c) (hSlash : c ≠ '/') :
    afterGap (c :: text) = some (c :: text) := by
  simp [afterGap, triviaLength_cons hSlash, hBlank]

/-! ### Comments -/

/-- Where block comments end, the search for their end stops. -/
theorem CommentRest.blockCommentLength {depth : Nat} {text rest : List Char}
    (h : CommentRest depth text rest) :
    ∃ length, Literal.blockCommentLength depth text = some length ∧ text.drop length = rest := by
  induction h with
  | last rest => exact ⟨2, by simp [Literal.blockCommentLength], rfl⟩
  | closing _ ih =>
    obtain ⟨length, hLength, hRest⟩ := ih
    exact ⟨length + 2, by simp [Literal.blockCommentLength, hLength], hRest⟩
  | opening _ ih =>
    obtain ⟨length, hLength, hRest⟩ := ih
    exact ⟨length + 2, by simp [Literal.blockCommentLength, hLength], hRest⟩
  | @char depth c text rest hOpening hClosing _ ih =>
    obtain ⟨length, hLength, hRest⟩ := ih
    refine ⟨length + 1, ?_, hRest⟩
    rw [Literal.blockCommentLength]
    · rw [hLength]
      rfl
    · rintro more rfl rfl
      exact hOpening rfl rfl
    · rintro more rfl rfl
      exact hClosing rfl rfl

/-- Where the search for their end stops, block comments end. -/
theorem commentRest_of_blockCommentLength {depth length : Nat} {text : List Char}
    (hDepth : 0 < depth) (h : Literal.blockCommentLength depth text = some length) :
    CommentRest depth text (text.drop length) := by
  fun_induction Literal.blockCommentLength depth text generalizing length with
  | case1 => cases h
  | case2 depth rest ih =>
    obtain ⟨more, hMore, rfl⟩ := Option.map_eq_some_iff.1 h
    exact .opening (ih (Nat.succ_pos _) hMore)
  | case3 depth rest hLast =>
    obtain rfl : depth = 1 := by omega
    obtain rfl := Option.some.inj h
    exact .last rest
  | case4 depth rest hInner ih =>
    obtain ⟨more, hMore, rfl⟩ := Option.map_eq_some_iff.1 h
    obtain ⟨depth, rfl⟩ : ∃ outer, depth = outer + 2 := ⟨depth - 2, by omega⟩
    exact .closing (ih (Nat.succ_pos _) hMore)
  | case5 depth c rest hOpening hClosing ih =>
    obtain ⟨more, hMore, rfl⟩ := Option.map_eq_some_iff.1 h
    refine .char ?_ ?_ (ih hDepth hMore)
    · rintro rfl hStar
      obtain ⟨_, rfl⟩ := List.head?_eq_some_iff.1 hStar
      exact hOpening _ rfl rfl
    · rintro rfl hSlash
      obtain ⟨_, rfl⟩ := List.head?_eq_some_iff.1 hSlash
      exact hClosing _ rfl rfl

/-! ### Gaps -/

/-- Skipping gaps ends at the same place, from wherever in a gap one starts. -/
theorem Gap.afterGap_eq {text rest : List Char} (h : Gap text rest) :
    afterGap text = afterGap rest := by
  induction h with
  | none => rfl
  | blank hBlank _ ih => rw [afterGap_blank hBlank, ih]
  | line hComment hEnd _ ih =>
    have hLength : Literal.lineLength (_ ++ _) = _ :=
      length_takeWhile_append (fun c hc => decide_eq_true fun hEq => hComment (hEq ▸ hc))
        fun c hc => by simpa using hEnd c hc
    rw [afterGap_line, hLength, List.drop_left, ih]
  | block hComment _ ih =>
    obtain ⟨length, hLength, rfl⟩ := hComment.blockCommentLength
    rw [afterGap_block, hLength, Option.bind_some, ih]

/-- What is skipped is a gap. -/
theorem gap_of_afterGap {text rest : List Char} (h : afterGap text = some rest) :
    Gap text rest := by
  fun_induction triviaLength text with
  | case1 =>
    rw [afterGap_nil] at h
    exact Option.some.inj h ▸ .none []
  | case2 text line more ih =>
    -- a comment up to the end of its line
    rw [afterGap_line] at h
    have hRest := ih h
    obtain ⟨comment, after, hText, hComment, hEnd⟩ := exists_longest (· ≠ '\n') text
    have hLength : line = comment.length := by
      simp only [line, Literal.lineLength, hText, length_takeWhile_append hComment hEnd]
    rw [hLength, hText, List.drop_left] at hRest
    rw [hText]
    refine .line (fun hMem => ?_) (fun c hc => ?_) hRest
    · exact of_decide_eq_true (hComment _ hMem) rfl
    · simpa using hEnd c hc
  | case3 text length hLength more ih =>
    -- a block comment
    rw [afterGap_block, hLength] at h
    exact .block (commentRest_of_blockCommentLength Nat.one_pos hLength) (ih h)
  | case4 text hLength =>
    -- a block comment that is left open
    rw [afterGap_block, hLength] at h
    cases h
  | case5 c text _ _ hBlank more ih =>
    rw [afterGap_blank hBlank] at h
    exact .blank hBlank (ih h)
  | case6 c text hLine hBlock hBlank =>
    rw [afterGap, triviaLength] at h
    · simp only [hBlank] at h
      exact Option.some.inj h ▸ .none _
    · exact hLine
    · exact hBlock

theorem Gap.trans {text middle rest : List Char} (h : Gap text middle) (h' : Gap middle rest) :
    Gap text rest := by
  induction h with
  | none => exact h'
  | blank hBlank _ ih => exact .blank hBlank (ih h')
  | line hComment hEnd _ ih => exact .line hComment hEnd (ih h')
  | block hComment _ ih => exact .block hComment (ih h')

/-- Nothing is left to skip after a gap has been skipped. -/
theorem afterGap_afterGap {text rest : List Char} (h : afterGap text = some rest) :
    afterGap rest = some rest :=
  (gap_of_afterGap h).afterGap_eq.symm.trans h

/-! ### Names -/

theorem IsWord.exists_cons {name : String} {text rest : List Char} (h : IsWord name text rest) :
    ∃ c more, name.toList = c :: more ∧ isIdentStart c := by
  obtain ⟨c, hHead, hStart⟩ := h.start
  obtain ⟨more, hName⟩ := List.head?_eq_some_iff.1 hHead
  exact ⟨c, more, hName, hStart⟩

/-- A name ends the gap in front of it. -/
theorem IsWord.afterGap_eq {name : String} {text rest : List Char} (h : IsWord name text rest) :
    afterGap text = some (name.toList ++ rest) := by
  obtain ⟨c, more, hName, hStart⟩ := h.exists_cons
  rw [h.gap.afterGap_eq, hName]
  exact afterGap_cons (not_isBlank_of_isIdentStart hStart) (ne_slash_of_isIdentStart hStart)

/-- A name is read up to its end. -/
theorem IsWord.identLength_eq {name : String} {text rest : List Char} (h : IsWord name text rest) :
    identLength (name.toList ++ rest) = name.toList.length := by
  obtain ⟨c, more, hName, hStart⟩ := h.exists_cons
  have hMore : ∀ d ∈ more, isIdentChar d := fun d hd =>
    h.chars d (hName ▸ List.mem_cons_of_mem c hd)
  rw [hName, List.cons_append, identLength, if_pos hStart, length_takeWhile_append hMore h.stop,
    List.length_cons, Nat.add_comm]

/-- What is read as a name is a name. -/
theorem isWord_of_identLength_pos {text : List Char} (h : 0 < identLength text) :
    IsWord (String.ofList (text.take (identLength text))) text (text.drop (identLength text)) := by
  cases text with
  | nil => exact absurd h (Nat.lt_irrefl 0)
  | cons c text =>
    by_cases hStart : isIdentStart c
    · obtain ⟨more, rest, rfl, hMore, hStop⟩ := exists_longest isIdentChar text
      have hLength : identLength (c :: (more ++ rest)) = (c :: more).length := by
        rw [identLength, if_pos hStart, length_takeWhile_append hMore hStop, List.length_cons,
          Nat.add_comm]
      have hFirst : isIdentChar c := isIdentChar_of_isIdentStart hStart
      rw [hLength, ← List.cons_append, List.take_left, List.drop_left]
      refine ⟨?_, ?_, ?_, hStop⟩
      · rw [String.toList_ofList]
        exact .none _
      · exact ⟨c, by simp, hStart⟩
      · rw [String.toList_ofList]
        exact List.forall_mem_cons.2 ⟨hFirst, hMore⟩
    · rw [identLength, if_neg hStart] at h
      exact absurd h (Nat.lt_irrefl 0)

/-! ### Code -/

/-- No word ends here. -/
def EndsNoWord (before : List Char) : Prop := ∀ c ∈ before.head?, ¬ isIdentChar c

theorem EndsNoWord.any_eq_false {before : List Char} (h : EndsNoWord before) :
    before.head?.any isIdentChar = false := by
  cases before with
  | nil => rfl
  | cons c before => simpa using h c rfl

/-- Two texts in front of a place end in the same way, or at least not in a word. -/
def EndAlike (before before' : List Char) : Prop :=
  ∃ text a b, before = text ++ a ∧ before' = text ++ b ∧ EndsNoWord a ∧ EndsNoWord b

theorem EndAlike.append {before before' : List Char} (h : EndAlike before before')
    (more : List Char) : EndAlike (more ++ before) (more ++ before') := by
  obtain ⟨text, a, b, rfl, rfl, ha, hb⟩ := h
  exact ⟨more ++ text, a, b, (List.append_assoc ..).symm, (List.append_assoc ..).symm, ha, hb⟩

theorem EndAlike.startsRawString_eq {before before' : List Char} (h : EndAlike before before')
    (after : List Char) :
    Literal.startsRawString before after = Literal.startsRawString before' after := by
  obtain ⟨text, a, b, rfl, rfl, ha, hb⟩ := h
  -- at most the last two characters are looked at
  have hLast : ∀ d : List Char, EndsNoWord d → d.head? ≠ some 'b' := fun d hd hEq =>
    hd 'b' hEq (by decide)
  match text with
  | [] =>
    simp [Literal.startsRawString, hLast a ha, hLast b hb, ha.any_eq_false, hb.any_eq_false]
  | [c] =>
    by_cases hc : c = 'b'
    · simp [Literal.startsRawString, hc, ha.any_eq_false, hb.any_eq_false]
    · simp [Literal.startsRawString, hc]
  | c :: d :: text =>
    by_cases hc : c = 'b'
    · simp [Literal.startsRawString, hc]
    · simp [Literal.startsRawString, hc]

theorem EndAlike.literalLength_eq {before before' : List Char} (h : EndAlike before before')
    (text : List Char) : literalLength before text = literalLength before' text := by
  unfold literalLength
  simp only [h.startsRawString_eq]

theorem Reader.before_drop {source : List Char} (count : Nat) (reader : Reader source) :
    (reader.drop count).before = (reader.rest.take count).reverse ++ reader.before := by
  fun_induction drop count reader with
  | case1 => simp
  | case2 reader _ h => simp [h]
  | case3 reader count c rest h ih =>
    rw [ih, h]
    simp [next]

/-- A step and another one after it have a result if both of them do. -/
theorem Attempt.bind_eq_ok {source : List Char} {bound : Nat} {α β : Type}
    {attempt : Attempt source bound α} {next : α → Attempt source bound β} {result : β} :
    (attempt >>= next) = .ok result ↔ ∃ value, attempt = .ok value ∧ next value = .ok result := by
  cases attempt with
  | ok value => simp [bind, Except.bind]
  | error failure => simp [bind, Except.bind]

/-- The same delimiters are open, wherever they have been opened. -/
structure Nesting.Alike (a b : Nesting) : Prop where
  opened : b.opened.map Prod.fst = a.opened.map Prod.fst
  angles : b.angles = a.angles

theorem Nesting.Alike.isEmpty_opened_eq {a b : Nesting} (h : a.Alike b) :
    b.opened.isEmpty = a.opened.isEmpty := by
  rw [← List.isEmpty_map, h.opened, List.isEmpty_map]

theorem Nesting.Alike.isEmpty_eq {a b : Nesting} (h : a.Alike b) : b.isEmpty = a.isEmpty := by
  rw [isEmpty, isEmpty, h.isEmpty_opened_eq, h.angles]

/-- The same delimiters are open after the same character. -/
theorem Nesting.Alike.after {a b next : Nesting} (h : a.Alike b) {angle : Bool} {c : Char}
    {span span' : Span} (hNext : a.after angle c span = .ok next) :
    ∃ next', b.after angle c span' = .ok next' ∧ next.Alike next' := by
  cases takes_of_after hNext with
  | opening hOpening => exact ⟨_, after_opening hOpening, by simp [h.opened], h.angles⟩
  | closing hClosing hOpened hMatch =>
    -- the delimiter that is closed is the innermost one of both
    have hSame := h.opened
    rw [hOpened, List.map_cons] at hSame
    obtain ⟨⟨opening', opened'⟩, outer', hOpened', rfl, hOuter⟩ := List.map_eq_cons_iff.1 hSame
    exact ⟨_, (after_closing_cons hClosing hOpened').trans (if_pos hMatch), hOuter, h.angles⟩
  | other hOpening hClosing =>
    exact ⟨_, after_other hOpening hClosing, h.opened,
      anglesAfter_congr h.isEmpty_opened_eq h.angles⟩

namespace ReadState

variable {source source' : List Char} {bound bound' : Nat} {state : ReadState source bound}
  {other : ReadState source' bound'}

/-- The same comes next, and what comes before ends in the same way. -/
structure Alike (state : ReadState source bound) (other : ReadState source' bound') : Prop where
  rest : other.rest = state.rest
  before : EndAlike state.reader.before other.reader.before

theorem Alike.drop (h : state.Alike other) (count : Nat) :
    (state.drop count).Alike (other.drop count) := by
  constructor
  · rw [rest_drop, rest_drop, h.rest]
  · show EndAlike (state.reader.drop count).before (other.reader.drop count).before
    rw [Reader.before_drop, Reader.before_drop]
    have hRest : other.reader.rest = state.reader.rest := h.rest
    rw [hRest]
    exact h.before.append _

section Steps

variable {stops : List Char} {angle : Bool} {start : Span} {nesting : Nesting}

/-- Code goes on after a literal. -/
theorem skipCode_eq_of_literal {length : Nat}
    (hLiteral : literalLength state.reader.before state.rest = .ok (some length)) :
    ∃ le, skipCode stops angle start nesting state =
      (skipCode stops angle start nesting (state.drop length)).bind fun result =>
        .ok (result.weaken le) := by
  have hLe : (state.drop length).remaining ≤ state.remaining := by
    rw [remaining_drop]
    exact Nat.sub_le ..
  refine ⟨hLe, ?_⟩
  rw [skipCode]
  split
  · next hRest =>
    rw [hRest] at hLiteral
    cases hLiteral
  · split
    · next hEq => simp [hLiteral] at hEq
    · next other hEq =>
      obtain rfl : other = length := by simpa [hLiteral] using hEq.symm
      rfl
    · next hEq => simp [hLiteral] at hEq

/-- Code ends in front of one of the characters that end it, goes on after any other character or
after an arrow, or fails at a delimiter. -/
theorem skipCode_eq_of_none {c : Char} {step : Nat} (hPeek : state.peek? = some c)
    (hLiteral : literalLength state.reader.before state.rest = .ok none)
    (hStep : codeStep state.rest = step) :
    ∃ le, skipCode stops angle start nesting state =
      if nesting.isEmpty && stops.contains c then .ok ⟨(), state, state.remaining_le_self⟩
      else
        match if step = 1 then nesting.after angle c state.span else .ok nesting with
        | .error cause => state.failHere cause
        | .ok next =>
          (skipCode stops angle start next (state.drop step)).bind fun result =>
            .ok (result.weaken le) := by
  subst hStep
  have hLe : (state.drop (codeStep state.rest)).remaining ≤ state.remaining := by
    rw [remaining_drop]
    exact Nat.sub_le ..
  refine ⟨hLe, ?_⟩
  obtain ⟨rest, hRest⟩ := List.head?_eq_some_iff.1 hPeek
  rw [skipCode]
  split
  · next hNil => simp [hRest] at hNil
  · next d tail hCons =>
    obtain ⟨rfl, rfl⟩ : d = c ∧ tail = rest := by simpa [hRest, eq_comm] using hCons
    split
    · next hEq => simp [hLiteral] at hEq
    · next hEq => simp [hLiteral] at hEq
    · split
      · rfl
      · dsimp only
        cases (if codeStep state.rest = 1 then nesting.after angle d state.span
          else .ok nesting) with
        | error cause => rfl
        | ok next => rfl

end Steps

/-- Where code ends does not depend on what comes before it. -/
theorem Alike.exists_skipCode {stops : List Char} {angle : Bool} {start : Span}
    {nesting nesting' : Nesting} (h : state.Alike other) (start' : Span)
    (hNesting : nesting.Alike nesting') {result : Onward state Unit}
    (hResult : skipCode stops angle start nesting state = .ok result) :
    ∃ result', skipCode stops angle start' nesting' other = .ok result' ∧
      result'.state.rest = result.state.rest := by
  -- after every literal and every character, the same is left of both texts
  fun_induction skipCode stops angle start nesting state generalizing other nesting' with
  | case1 | case2 | case5 => cases hResult
  | case3 nesting state c tail hRest hPos length hLiteral hLength ih =>
    obtain ⟨inner, hInner, hPure⟩ := Attempt.bind_eq_ok.1 hResult
    obtain rfl := Except.ok.inj hPure
    obtain ⟨inner', hInner', hEnd⟩ := ih (h.drop length) hNesting hInner
    rw [h.before.literalLength_eq, ← h.rest] at hLiteral
    obtain ⟨le, hEq⟩ := skipCode_eq_of_literal hLiteral
    rw [hInner'] at hEq
    exact ⟨_, hEq, hEnd⟩
  | case4 nesting state c tail hRest hPos hLiteral hStop =>
    obtain rfl := Except.ok.inj hResult
    rw [h.before.literalLength_eq, ← h.rest] at hLiteral
    rw [← hNesting.isEmpty_eq] at hStop
    rw [← h.rest] at hRest
    obtain ⟨le, hEq⟩ := skipCode_eq_of_none (congrArg List.head? hRest) hLiteral rfl
    rw [if_pos hStop] at hEq
    exact ⟨_, hEq, h.rest⟩
  | case6 nesting state c tail hRest hPos hLiteral hStop step hPos' next hNext =>
    rename_i ih
    obtain ⟨inner, hInner, hPure⟩ := Attempt.bind_eq_ok.1 hResult
    obtain rfl := Except.ok.inj hPure
    obtain ⟨next', hNext', hAlike⟩ : ∃ next', (if step = 1 then nesting'.after angle c other.span
        else .ok nesting') = .ok next' ∧ next.Alike next' := by
      by_cases hOne : step = 1
      · rw [dif_pos hOne] at hNext
        rw [if_pos hOne]
        exact hNesting.after hNext
      · rw [dif_neg hOne] at hNext
        rw [if_neg hOne]
        exact ⟨nesting', rfl, Except.ok.inj hNext ▸ hNesting⟩
    obtain ⟨inner', hInner', hEnd⟩ := ih (h.drop step) hAlike hInner
    rw [h.before.literalLength_eq, ← h.rest] at hLiteral
    rw [← hNesting.isEmpty_eq] at hStop
    have hStep : codeStep other.rest = step := congrArg codeStep h.rest
    rw [← h.rest] at hRest
    obtain ⟨le, hEq⟩ := skipCode_eq_of_none (congrArg List.head? hRest) hLiteral hStep
    rw [if_neg hStop, hNext'] at hEq
    dsimp only at hEq
    rw [hInner'] at hEq
    exact ⟨_, hEq, hEnd⟩

/-- Code is the same, whatever comes before it. -/
theorem Alike.exists_fragment {stops : List Char} {angle : Bool} (h : state.Alike other)
    {result : Onward state Fragment} (hResult : state.fragment stops angle = .ok result) :
    ∃ result', other.fragment stops angle = .ok result' ∧
      result'.value.text = result.value.text ∧ result'.state.rest = result.state.rest := by
  obtain ⟨⟨_, next, _⟩, hSkip, hPure⟩ := Attempt.bind_eq_ok.1 hResult
  obtain rfl := Except.ok.inj hPure
  have hNesting : Nesting.Alike {} {} := ⟨rfl, rfl⟩
  obtain ⟨⟨_, next', _⟩, hSkip', hNext⟩ := h.exists_skipCode other.span hNesting hSkip
  refine ⟨_, Attempt.bind_eq_ok.2 ⟨_, hSkip', rfl⟩, ?_, hNext⟩
  dsimp only at hNext ⊢
  rw [h.rest, remaining, remaining, remaining, remaining, h.rest, hNext]

/-- Code ends in front of one of the characters that end it, and nothing has been added to what
has been read. -/
theorem end_of_skipCode {stops : List Char} {angle : Bool} {start : Span} {nesting : Nesting}
    {result : Onward state Unit} (h : skipCode stops angle start nesting state = .ok result) :
    (∃ c more, result.state.rest = c :: more ∧ c ∈ stops) ∧
      result.state.grammar = state.grammar := by
  -- only the place where code ends matters: after literals and other characters it goes on
  fun_induction skipCode stops angle start nesting state with
  | case1 | case2 | case5 => cases h
  | case3 _ _ _ _ _ _ _ _ _ ih =>
    obtain ⟨inner, hInner, hPure⟩ := Attempt.bind_eq_ok.1 h
    obtain rfl := Except.ok.inj hPure
    exact ih hInner
  | case4 _ state c more hRest _ _ hStop =>
    obtain rfl := Except.ok.inj h
    rw [Bool.and_eq_true] at hStop
    exact ⟨⟨c, more, hRest, List.contains_iff_mem.1 hStop.2⟩, rfl⟩
  | case6 _ _ _ _ _ _ _ _ _ _ _ _ =>
    rename_i ih
    obtain ⟨inner, hInner, hPure⟩ := Attempt.bind_eq_ok.1 h
    obtain rfl := Except.ok.inj hPure
    exact ih hInner

theorem end_of_fragment {stops : List Char} {angle : Bool} {result : Onward state Fragment}
    (h : state.fragment stops angle = .ok result) :
    (∃ c more, result.state.rest = c :: more ∧ c ∈ stops) ∧
      result.state.grammar = state.grammar := by
  obtain ⟨next, hSkip, hPure⟩ := Attempt.bind_eq_ok.1 h
  obtain rfl := Except.ok.inj hPure
  exact end_of_skipCode hSkip

/-- A text is read like the same text further on, unless a word ends there. -/
theorem alike_ofText (h : EndsNoWord state.reader.before) : (ofText state.rest).Alike state :=
  ⟨rfl, [], [], state.reader.before, rfl, rfl, nofun, h⟩

theorem Alike.symm (h : state.Alike other) : other.Alike state := by
  obtain ⟨hRest, text, a, b, hText, hText', ha, hb⟩ := h
  exact ⟨hRest.symm, text, b, a, hText', hText, hb, ha⟩

/-- What is read as code is code. -/
theorem isCode_of_fragment {stops : List Char} {angle : Bool} (h : EndsNoWord state.reader.before)
    {result : Onward state Fragment} (hResult : state.fragment stops angle = .ok result) :
    IsCode stops angle result.value.text state.rest result.state.rest := by
  obtain ⟨result', hResult', hText, hRest⟩ := (alike_ofText h).symm.exists_fragment hResult
  exact ⟨result', hResult', hText, hRest⟩

end ReadState

/-- Code is read up to its end. -/
theorem IsCode.exists_fragment {source : List Char} {bound : Nat} {state : ReadState source bound}
    {stops : List Char} {angle : Bool} {code : String} {rest : List Char}
    (h : IsCode stops angle code state.rest rest) (hBefore : EndsNoWord state.reader.before) :
    ∃ result, state.fragment stops angle = .ok result ∧ result.value.text = code ∧
      result.state.rest = rest := by
  obtain ⟨result, hResult, rfl, rfl⟩ := h
  exact (ReadState.alike_ofText hBefore).exists_fragment hResult

end TreeGrammar
