import TreeGrammar.Grammar.Reference
import TreeGrammar.Proofs.Grammar.Words

/-!
# Where literals begin

A literal or comment begins with a mark of one or two characters, except for raw strings, which begin
with a letter that must not stand inside of a word, and characters, which take three. So the places
where none begins stay the same where something else is written in front of them or behind them, as
long as no word is prolonged and no mark is completed.

## Main definitions

* `InWord`: a place inside of a word
* `OpensQuote`: hash signs and a quote, as they begin a raw string
* `Begins`: a text that begins like a literal or comment

## Main results

* `startsRawString_iff`: where raw strings begin
* `literalLength_eq_none_iff`: where no literal begins
* `literalLength_of_append_none`, `literalLength_append_star`, `literalLength_append_of_mark`: where
  none begins in a shorter or in a longer text
-/

namespace TreeGrammar

open Literal

variable {before text post : List Char} {n : Nat}

/-! ### Raw strings -/

/-- A place inside of a word: an identifier character stands in front of it, or in front of the `b`
in front of it. -/
def InWord (before : List Char) : Prop :=
  (if before.head? = some 'b' then before.tail else before).head?.any isIdentChar = true

/-- Any number of hash signs and a quote. -/
def OpensQuote (text : List Char) : Prop :=
  ∃ hashes body, text = List.replicate hashes '#' ++ '"' :: body

theorem InWord.cons {c : Char} (h : InWord before) (hc : isIdentChar c) : InWord (c :: before) := by
  by_cases hb : c = 'b'
  · subst hb
    -- the word goes on in front of the `b`
    have hWord : before.head?.any isIdentChar = true := by
      rw [InWord] at h
      by_cases hHead : before.head? = some 'b'
      · rw [hHead]
        decide
      · rwa [if_neg hHead] at h
    simpa [InWord] using hWord
  · simpa [InWord, hb] using hc

/-- After a character of a word that may not stand in front of a string, a word goes on. -/
theorem inWord_cons {c : Char} (hc : isIdentChar c) (hb : c ≠ 'b') (before : List Char) :
    InWord (c :: before) := by
  simpa [InWord, hb] using hc

theorem not_inWord_nil : ¬ InWord [] := by simp [InWord]

theorem EndsNoWord.not_inWord (h : EndsNoWord before) : ¬ InWord before := by
  have hHead : before.head? ≠ some 'b' := fun hb => h 'b' hb (by decide)
  rw [InWord, if_neg hHead, h.any_eq_false]
  exact Bool.false_ne_true

theorem inWord_cons_b : InWord ('b' :: before) ↔ before.head?.any isIdentChar = true := by
  simp [InWord]

theorem hashCount_replicate (hashes : Nat) (body : List Char) :
    hashCount (List.replicate hashes '#' ++ '"' :: body) = hashes := by
  have hHash : ∀ c ∈ List.replicate hashes '#', decide (c = '#') := fun c hc =>
    decide_eq_true (List.eq_of_mem_replicate hc)
  have hQuote : ∀ c ∈ ('"' :: body).head?, ¬ decide (c = '#') := by simp
  have hCount := length_takeWhile_append hHash hQuote
  rwa [List.length_replicate] at hCount

/-- A text begins with its hash signs. -/
theorem replicate_append_drop (text : List Char) :
    List.replicate (hashCount text) '#' ++ text.drop (hashCount text) = text := by
  have hHashes : text.takeWhile (· = '#') = List.replicate (hashCount text) '#' := by
    refine List.eq_replicate_iff.2 ⟨rfl, fun c hc => ?_⟩
    simpa using List.mem_takeWhile_imp hc
  have hTake : text.takeWhile (· = '#') = text.take (hashCount text) :=
    List.prefix_iff_eq_take.1 (List.takeWhile_prefix _)
  rw [← hHashes, hTake, List.take_append_drop]

theorem opensQuote_iff : OpensQuote text ↔ (text.drop (hashCount text)).head? = some '"' := by
  constructor
  · rintro ⟨hashes, body, rfl⟩
    rw [hashCount_replicate, List.drop_left' (List.length_replicate ..)]
    rfl
  · intro hQuote
    obtain ⟨body, hBody⟩ := List.head?_eq_some_iff.1 hQuote
    exact ⟨hashCount text, body, by rw [← hBody, replicate_append_drop]⟩

/-- A raw string begins with an `r` outside of words in front of hash signs and a quote. -/
theorem startsRawString_iff {after : List Char} :
    startsRawString before after = true ↔ ¬ InWord before ∧ OpensQuote after := by
  rw [opensQuote_iff, startsRawString, InWord]
  simp

theorem EndAlike.refl (before : List Char) : EndAlike before before := by
  have hEnd : EndsNoWord [] := by simp [EndsNoWord]
  exact ⟨before, [], [], by rw [List.append_nil], by rw [List.append_nil], hEnd, hEnd⟩

/-! ### Closed literals -/

namespace Literal

theorem blockCommentLength_append {depth : Nat} (h : blockCommentLength depth text = some n)
    (post : List Char) : blockCommentLength depth (text ++ post) = some n := by
  fun_induction blockCommentLength depth text generalizing n with
  | case1 => cases h
  | case2 depth rest ih =>
    -- an inner comment opens
    obtain ⟨m, hm, rfl⟩ := Option.map_eq_some_iff.1 h
    simp [blockCommentLength, ih hm]
  | case3 depth rest hLast => simpa [blockCommentLength, hLast] using h
  | case4 depth rest hInner ih =>
    -- an inner comment closes
    obtain ⟨m, hm, rfl⟩ := Option.map_eq_some_iff.1 h
    simp [blockCommentLength, hInner, ih hm]
  | case5 depth c rest hOpening hClosing ih =>
    obtain ⟨m, hm, rfl⟩ := Option.map_eq_some_iff.1 h
    -- the comment goes on, so that the two next characters are not those of what comes after it
    cases rest with
    | nil => cases hm
    | cons d rest =>
      rw [List.cons_append, blockCommentLength]
      · rw [ih hm]
        rfl
      · rintro more rfl hMore
        exact hOpening rest rfl (by rw [(List.cons.inj hMore).1])
      · rintro more rfl hMore
        exact hClosing rest rfl (by rw [(List.cons.inj hMore).1])

theorem blockCommentLength_take {depth : Nat} (h : blockCommentLength depth text = some n) :
    n ≤ text.length ∧ blockCommentLength depth (text.take n) = some n := by
  fun_induction blockCommentLength depth text generalizing n with
  | case1 => cases h
  | case2 depth rest ih =>
    obtain ⟨m, hm, rfl⟩ := Option.map_eq_some_iff.1 h
    obtain ⟨hLength, hTake⟩ := ih hm
    exact ⟨Nat.add_le_add_right hLength 2, by simp [blockCommentLength, hTake]⟩
  | case3 depth rest hLast =>
    obtain rfl := Option.some.inj h
    exact ⟨Nat.le_add_left 2 _, by simp [blockCommentLength, hLast]⟩
  | case4 depth rest hInner ih =>
    obtain ⟨m, hm, rfl⟩ := Option.map_eq_some_iff.1 h
    obtain ⟨hLength, hTake⟩ := ih hm
    exact ⟨Nat.add_le_add_right hLength 2, by simp [blockCommentLength, hInner, hTake]⟩
  | case5 depth c rest hOpening hClosing ih =>
    obtain ⟨m, hm, rfl⟩ := Option.map_eq_some_iff.1 h
    obtain ⟨hLength, hTake⟩ := ih hm
    refine ⟨Nat.succ_le_succ hLength, ?_⟩
    have hSame : ∀ {d : Char} {more : List Char}, rest.take m = d :: more →
        ∃ others, rest = d :: others := fun hMore => by
      cases rest with
      | nil => simp at hMore
      | cons e others =>
        cases m with
        | zero => cases hMore
        | succ m => exact ⟨others, by rw [(List.cons.inj hMore).1]⟩
    rw [List.take_succ_cons, blockCommentLength, hTake, Option.map_some]
    · rintro more rfl hMore
      obtain ⟨others, rfl⟩ := hSame hMore
      exact hOpening others rfl rfl
    · rintro more rfl hMore
      obtain ⟨others, rfl⟩ := hSame hMore
      exact hClosing others rfl rfl

theorem stringLength_append (h : stringLength text = some n) (post : List Char) :
    stringLength (text ++ post) = some n := by
  fun_induction stringLength text generalizing n with
  | case1 => cases h
  | case2 => simpa [stringLength] using h
  | case3 c rest ih =>
    obtain ⟨m, hm, rfl⟩ := Option.map_eq_some_iff.1 h
    simp [stringLength, ih hm]
  | case4 c rest hQuote hBackslash ih =>
    obtain ⟨m, hm, rfl⟩ := Option.map_eq_some_iff.1 h
    cases rest with
    | nil => cases hm
    | cons d rest =>
      rw [List.cons_append, stringLength]
      · rw [ih hm]
        rfl
      · exact hQuote
      · rintro e more rfl hMore
        exact hBackslash d rest rfl rfl

end Literal

/-- Behind a comment up to the end of its line, another line begins, or the text ends. -/
theorem head?_drop_lineLength (rest : List Char) :
    ∀ c ∈ (rest.drop (lineLength rest)).head?, c = '\n' := by
  obtain ⟨line, after, rfl, hLine, hAfter⟩ := exists_longest (fun c => decide (c ≠ '\n')) rest
  have hLength : lineLength (line ++ after) = line.length := length_takeWhile_append hLine hAfter
  rw [hLength, List.drop_left]
  intro c hc
  simpa using hAfter c hc

/-- A raw string is measured from its quote on. -/
theorem literalLength_raw (hWord : ¬ InWord before) (hashes : Nat) (body : List Char) :
    literalLength before ('r' :: (List.replicate hashes '#' ++ '"' :: body)) =
      match rawStringLength hashes body with
      | some length => .ok (some (2 + hashes + length))
      | none => .error .rawString := by
  have hStart : startsRawString before (List.replicate hashes '#' ++ '"' :: body) :=
    startsRawString_iff.2 ⟨hWord, hashes, body, rfl⟩
  have hBody : (List.replicate hashes '#' ++ '"' :: body).drop (hashes + 1) = body := by
    rw [← List.drop_drop, List.drop_left' (List.length_replicate ..)]
    rfl
  cases hLength : rawStringLength hashes body with
  | none => simp [literalLength, hStart, hashCount_replicate, hBody, hLength]
  | some length => simp [literalLength, hStart, hashCount_replicate, hBody, hLength]

/-! ### Places without a literal -/

theorem OpensQuote.append (h : OpensQuote text) (post : List Char) : OpensQuote (text ++ post) := by
  obtain ⟨hashes, body, rfl⟩ := h
  exact ⟨hashes, body ++ post, by simp⟩

/-- Hash signs and a quote stand in the first part of a text, unless this part is all hash signs. -/
theorem OpensQuote.of_append (h : OpensQuote (text ++ post)) :
    OpensQuote text ∨ (∀ c ∈ text, c = '#') ∧ OpensQuote post := by
  obtain ⟨hashes, body, hText⟩ := h
  rcases List.append_eq_append_iff.1 hText with ⟨more, hHashes, hMore⟩ | ⟨more, rfl, hMore⟩
  · obtain ⟨-, hFront, hBack⟩ := List.replicate_eq_append_iff.1 hHashes
    refine .inr ⟨fun c hc => ?_, more.length, body, by rw [hMore, ← hBack]⟩
    rw [hFront] at hc
    exact List.eq_of_mem_replicate hc
  · cases more with
    | nil =>
      refine .inr ⟨fun c hc => ?_, 0, body, hMore.symm⟩
      rw [List.append_nil] at hc
      exact List.eq_of_mem_replicate hc
    | cons c more =>
      obtain ⟨rfl, -⟩ := List.cons.inj hMore
      exact .inl ⟨hashes, more, rfl⟩

/-- A text begins like a literal or comment, whether or not this has an end. -/
inductive Begins (before : List Char) : List Char → Prop where
  | line (rest : List Char) : Begins before ('/' :: '/' :: rest)
  | blockComment (rest : List Char) : Begins before ('/' :: '*' :: rest)
  | string (rest : List Char) : Begins before ('"' :: rest)
  | rawString {rest : List Char} (hWord : ¬ InWord before) (hQuote : OpensQuote rest) :
      Begins before ('r' :: rest)
  | escaped (rest : List Char) : Begins before ('\'' :: '\\' :: rest)
  | character {c : Char} (hChar : c ≠ '\\') (rest : List Char) :
      Begins before ('\'' :: c :: '\'' :: rest)

/-- There is no literal where a text does not begin like one. -/
theorem literalLength_eq_none_iff :
    literalLength before text = .ok none ↔ ¬ Begins before text := by
  constructor
  · rintro h (_ | rest | rest | ⟨hWord, hashes, body, rfl⟩ | rest | _)
    · cases h
    · cases hLength : blockCommentLength 1 rest <;> simp [literalLength, hLength] at h
    · cases hLength : stringLength rest <;> simp [literalLength, hLength] at h
    · rw [literalLength_raw hWord] at h
      cases hLength : rawStringLength hashes body <;> simp [hLength] at h
    · cases hLength : quoteLength rest.tail <;> simp [literalLength, hLength] at h
    · simp [literalLength] at h
  · intro h
    unfold literalLength
    split
    · exact (h (.line _)).elim
    · exact (h (.blockComment _)).elim
    · exact (h (.string _)).elim
    · split
      · next hStart =>
        obtain ⟨hWord, hQuote⟩ := startsRawString_iff.1 hStart
        exact (h (.rawString hWord hQuote)).elim
      · rfl
    · exact (h (.escaped _)).elim
    · next hChar => exact (h (.character hChar _)).elim
    · rfl

/-- Where there is a literal, the text begins like one. -/
theorem begins_of_literalLength (h : literalLength before text = .ok (some n)) :
    Begins before text := by
  by_contra hNot
  rw [literalLength_eq_none_iff.2 hNot] at h
  cases h

/-- Where no literal begins, none begins if the text ends earlier. -/
theorem literalLength_of_append_none (h : literalLength before (text ++ post) = .ok none) :
    literalLength before text = .ok none := by
  rw [literalLength_eq_none_iff] at h ⊢
  refine mt (fun hBegins => ?_) h
  cases hBegins with
  | line | blockComment | string | escaped => constructor
  | rawString hWord hQuote => exact .rawString hWord (hQuote.append post)
  | character hChar => exact .character hChar _

/-- Where no literal begins, none begins if a parenthesis and a star come next. -/
theorem literalLength_append_star {c : Char} (h : literalLength before (c :: text) = .ok none)
    (more : List Char) : literalLength before (c :: (text ++ '(' :: '*' :: more)) = .ok none := by
  rw [literalLength_eq_none_iff] at h ⊢
  refine mt (fun hBegins => ?_) h
  generalize hRest : text ++ '(' :: '*' :: more = rest at hBegins
  cases hBegins with
  | line | blockComment | escaped =>
    cases text with
    | nil => simp at hRest
    | cons d text =>
      obtain ⟨rfl, -⟩ := List.cons.inj hRest
      constructor
  | string => exact .string text
  | rawString hWord hQuote =>
    subst hRest
    rcases hQuote.of_append with hText | ⟨-, hashes, body, hMore⟩
    · exact .rawString hWord hText
    · cases hashes <;> simp [List.replicate_succ] at hMore
  | character hChar =>
    rcases text with _ | ⟨e, _ | ⟨e', text⟩⟩
    · simp at hRest
    · simp at hRest
    · obtain ⟨rfl, hMore⟩ := List.cons.inj hRest
      obtain ⟨rfl, -⟩ := List.cons.inj hMore
      exact .character hChar text

/-- Where no literal begins, none begins if the text goes on behind a semicolon, provided that the
text is long enough to tell. -/
theorem literalLength_append_of_mark {c : Char} (h : literalLength before (c :: text) = .ok none)
    (hMark : ';' ∈ text) (hQuote : c = '\'' → 2 ≤ text.length) (post : List Char) :
    literalLength before (c :: (text ++ post)) = .ok none := by
  rw [literalLength_eq_none_iff] at h ⊢
  refine mt (fun hBegins => ?_) h
  obtain ⟨d, text, rfl⟩ := List.exists_cons_of_ne_nil (List.ne_nil_of_mem hMark)
  generalize hRest : d :: text ++ post = rest at hBegins
  cases hBegins with
  | line | blockComment | escaped =>
    obtain ⟨rfl, -⟩ := List.cons.inj hRest
    constructor
  | string => exact .string _
  | rawString hWord hOpens =>
    subst hRest
    rcases hOpens.of_append with hText | ⟨hHashes, -⟩
    · exact .rawString hWord hText
    · exact absurd (hHashes ';' hMark) (by decide)
  | character hChar =>
    cases text with
    | nil => exact absurd (hQuote rfl) (by simp)
    | cons e text =>
      obtain ⟨rfl, hMore⟩ := List.cons.inj hRest
      obtain ⟨rfl, -⟩ := List.cons.inj hMore
      exact .character hChar text

/-- No literal begins with any other character. -/
theorem literalLength_of_ne {c : Char} (hSlash : c ≠ '/') (hQuote : c ≠ '"') (hRaw : c ≠ 'r')
    (hChar : c ≠ '\'') (before text : List Char) : literalLength before (c :: text) = .ok none := by
  rw [literalLength_eq_none_iff]
  intro hBegins
  cases hBegins <;> contradiction

/-- What comes before matters for raw strings only. -/
theorem literalLength_eq_of_ne {c : Char} (hRaw : c ≠ 'r') (before before' text : List Char) :
    literalLength before' (c :: text) = literalLength before (c :: text) := by
  unfold literalLength
  split <;> first | rfl | simp_all

/-- No literal begins within a word. -/
theorem literalLength_of_inWord {c : Char} (hWord : InWord before) (hc : isIdentChar c)
    (text : List Char) : literalLength before (c :: text) = .ok none := by
  rw [literalLength_eq_none_iff]
  intro hBegins
  cases hBegins with
  | rawString hNot => exact hNot hWord
  | line | blockComment | string | escaped | character => exact absurd hc (by decide)

/-! ### Parts of code -/

theorem pieces_of_error {c : Char} {kind : Literal}
    (h : literalLength before (c :: text) = .error kind) :
    pieces before (c :: text) = [.plain (c :: text)] := by
  rw [pieces]
  split
  · rfl
  · next hEq => simp [h] at hEq
  · next hEq => simp [h] at hEq

theorem pieces_of_literal (h : literalLength before text = .ok (some n)) :
    pieces before text =
      .plain (text.take n) :: pieces ((text.take n).reverse ++ before) (text.drop n) := by
  cases text with
  | nil => cases h
  | cons c text =>
    rw [pieces]
    split
    · next hEq => simp [h] at hEq
    · next length hEq =>
      obtain rfl : n = length := by simpa [h] using hEq
      rfl
    · next hEq => simp [h] at hEq

theorem pieces_of_plain {c : Char} (h : literalLength before (c :: text) = .ok none)
    (hMark : c ≠ '@') : pieces before (c :: text) = .plain [c] :: pieces (c :: before) text := by
  rw [pieces]
  split
  · next hEq => simp [h] at hEq
  · next hEq => simp [h] at hEq
  · rw [if_neg hMark]

theorem literalLength_mark (before text : List Char) :
    literalLength before ('@' :: text) = .ok none :=
  literalLength_of_ne (by decide) (by decide) (by decide) (by decide) before text

theorem pieces_of_reference (h : text.head?.any isIdentStart) :
    pieces before ('@' :: text) =
      .reference (text.takeWhile isIdentChar) ::
        pieces ((text.takeWhile isIdentChar).reverse ++ '@' :: before)
          (text.dropWhile isIdentChar) := by
  rw [pieces]
  split
  · next hEq => simp [literalLength_mark] at hEq
  · next hEq => simp [literalLength_mark] at hEq
  · rw [if_pos rfl, if_pos h]

/-- What a mark without a name behind it is. -/
def Piece.mark (before : List Char) : Piece :=
  if (before.dropWhile Text.isBlank).head?.any isIdentChar then .plain ['@'] else .stray

theorem pieces_of_mark (h : ¬ text.head?.any isIdentStart) :
    pieces before ('@' :: text) = .mark before :: pieces ('@' :: before) text := by
  rw [pieces]
  split
  · next hEq => simp [literalLength_mark] at hEq
  · next hEq => simp [literalLength_mark] at hEq
  · rw [if_pos rfl, if_neg h, Piece.mark]
    split <;> rfl

/-- The characters of a word are parts of their own, wherever in the word one starts. -/
theorem pieces_word {word : List Char} (hWord : ∀ c ∈ word, isIdentChar c) (h : InWord before)
    (rest : List Char) :
    pieces before (word ++ rest) =
      word.map (fun c => .plain [c]) ++ pieces (word.reverse ++ before) rest := by
  induction word generalizing before with
  | nil => rfl
  | cons c word ih =>
    have hChar : isIdentChar c := hWord c List.mem_cons_self
    have hMark : c ≠ '@' := by
      rintro rfl
      revert hChar
      decide
    rw [List.cons_append, pieces_of_plain (literalLength_of_inWord h hChar _) hMark,
      ih (fun d hd => hWord d (List.mem_cons_of_mem c hd)) (h.cons hChar)]
    simp

end TreeGrammar
