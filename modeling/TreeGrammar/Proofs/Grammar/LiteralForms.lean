import TreeGrammar.Proofs.Grammar.Literals

/-!
# The forms of literals and comments

A comment goes up to the end of its line, or has balanced comments inside. A string goes up to the
first quote that no backslash takes with it, and a raw string up to the first quote with as many
hash signs behind it as there are in front of it. A character stands between two quotes; if it is a
backslash, then it takes the next character with it, and the literal goes up to the quote after
that one. Any other quote belongs to a lifetime. What is measured at a place in a text are exactly
these forms, and it is an error if one of them begins there and has no end. What comes behind a form
matters only for a comment that ends with its line, so that a closed literal stays the same in front
of another text that does not prolong this line.

## Main definitions

* `IsLiteral`: a complete literal or comment
* `Opens`: what a literal or comment begins with that has to be closed
* `MayFollow`: what may stand behind a literal in the place of something else

## Main results

* `literalLength_eq_some_iff`, `literalLength_eq_error_iff`: what is measured
* `literalLength_take_append`: a closed literal in front of another text
-/

namespace TreeGrammar

open Literal

/-! ### The parts of literals -/

/-- A string from behind its first quote on, up to and including its last one. -/
inductive StringRest : List Char → Prop where
  | quote : StringRest ['"']
  | escape {c : Char} {rest : List Char} (h : StringRest rest) : StringRest ('\\' :: c :: rest)
  | char {c : Char} {rest : List Char} (hQuote : c ≠ '"') (hBackslash : c ≠ '\\')
      (h : StringRest rest) : StringRest (c :: rest)

/-- What closes a raw string. -/
def rawClosing (hashes : Nat) : List Char := '"' :: List.replicate hashes '#'

/-- A pattern occurs behind a text, and nowhere earlier. -/
def IsFirstBehind (pattern text : List Char) : Prop :=
  ∀ front, front ++ pattern <+: text ++ pattern → front = text

/-- A literal or comment that is complete. Some text stands in front of it, its last character
first, and some text behind it. -/
inductive IsLiteral (before : List Char) : List Char → List Char → Prop where
  | line {line after : List Char} (hLine : '\n' ∉ line) (hEnd : ∀ c ∈ after.head?, c = '\n') :
      IsLiteral before ('/' :: '/' :: line) after
  | blockComment {comment after : List Char} (h : CommentRest 1 comment []) :
      IsLiteral before ('/' :: '*' :: comment) after
  | string {rest after : List Char} (h : StringRest rest) : IsLiteral before ('"' :: rest) after
  | rawString {hashes : Nat} {body after : List Char} (hWord : ¬ InWord before)
      (hFirst : IsFirstBehind (rawClosing hashes) body) :
      IsLiteral before ('r' :: (List.replicate hashes '#' ++ '"' :: (body ++ rawClosing hashes)))
        after
  | character {c : Char} {after : List Char} (hChar : c ≠ '\\') :
      IsLiteral before ['\'', c, '\''] after
  | escaped {c : Char} {body after : List Char} (hBody : '\'' ∉ body) :
      IsLiteral before ('\'' :: '\\' :: c :: (body ++ ['\''])) after

/-- A text begins like a literal or comment that has to be closed. -/
inductive Opens (before : List Char) : Literal → List Char → Prop where
  | blockComment (rest : List Char) : Opens before .blockComment ('/' :: '*' :: rest)
  | string (rest : List Char) : Opens before .string ('"' :: rest)
  | rawString {rest : List Char} (hWord : ¬ InWord before) (hQuote : OpensQuote rest) :
      Opens before .rawString ('r' :: rest)
  | character (rest : List Char) : Opens before .character ('\'' :: '\\' :: rest)

variable {before text literal after body : List Char} {kind : Literal} {n hashes : Nat}

/-! ### Measuring the parts -/

namespace Literal

theorem lineLength_append (hLine : '\n' ∉ literal) (hEnd : ∀ c ∈ after.head?, c = '\n') :
    lineLength (literal ++ after) = literal.length :=
  length_takeWhile_append (fun _ hc => decide_eq_true fun hEq => hLine (hEq ▸ hc))
    fun c hc => by simpa using hEnd c hc

theorem blockCommentLength_eq_length (h : CommentRest 1 text []) :
    blockCommentLength 1 text = some text.length := by
  obtain ⟨length, hLength, hDrop⟩ := h.blockCommentLength
  have hAll := List.drop_eq_nil_iff.1 hDrop
  have hLe := (blockCommentLength_take hLength).1
  rwa [Nat.le_antisymm hLe hAll] at hLength

theorem commentRest_take (h : blockCommentLength 1 text = some n) :
    CommentRest 1 (text.take n) [] := by
  have hRest := commentRest_of_blockCommentLength Nat.one_pos (blockCommentLength_take h).2
  rwa [List.drop_of_length_le (List.length_take_le ..)] at hRest

theorem stringLength_eq_length (h : StringRest text) : stringLength text = some text.length := by
  induction h with
  | quote => rfl
  | escape _ ih =>
    rw [stringLength, ih]
    rfl
  | char hQuote hBackslash _ ih =>
    rw [stringLength, ih]
    · rfl
    · exact hQuote
    · exact fun _ _ hc _ => hBackslash hc

theorem stringRest_take (h : stringLength text = some n) : StringRest (text.take n) := by
  fun_induction stringLength text generalizing n with
  | case1 => cases h
  | case2 rest =>
    obtain rfl := Option.some.inj h
    exact .quote
  | case3 c rest ih =>
    obtain ⟨m, hm, rfl⟩ := Option.map_eq_some_iff.1 h
    exact .escape (ih hm)
  | case4 c rest hQuote hBackslash ih =>
    obtain ⟨m, hm, rfl⟩ := Option.map_eq_some_iff.1 h
    refine .char hQuote ?_ (ih hm)
    -- a backslash at the end of the text leaves the string open
    rintro rfl
    cases rest with
    | nil => cases hm
    | cons c rest => exact hBackslash c rest rfl rfl

theorem quoteLength_eq (hBody : '\'' ∉ body) (after : List Char) :
    quoteLength (body ++ '\'' :: after) = some (body.length + 1) := by
  induction body with
  | nil => rfl
  | cons c body ih =>
    obtain ⟨hFirst, hOthers⟩ := List.ne_and_not_mem_of_not_mem_cons hBody
    rw [List.cons_append, quoteLength, ih hOthers]
    · rfl
    · exact hFirst.symm

theorem exists_of_quoteLength (h : quoteLength text = some n) :
    ∃ body after, text = body ++ '\'' :: after ∧ '\'' ∉ body ∧ n = body.length + 1 := by
  fun_induction quoteLength text generalizing n with
  | case1 => cases h
  | case2 rest =>
    obtain rfl := Option.some.inj h
    exact ⟨[], rest, rfl, List.not_mem_nil, rfl⟩
  | case3 c rest hQuote ih =>
    obtain ⟨m, hm, rfl⟩ := Option.map_eq_some_iff.1 h
    obtain ⟨body, after, rfl, hBody, rfl⟩ := ih hm
    have hc : '\'' ≠ c := fun hc => hQuote hc.symm
    exact ⟨c :: body, after, rfl, List.not_mem_cons_of_ne_of_not_mem hc hBody, rfl⟩

/-- The condition under which a raw string is taken to end. -/
theorem rawClosing_prefix_iff {c : Char} :
    rawClosing hashes <+: c :: text ↔ c = '"' ∧ (List.replicate hashes '#').isPrefixOf text := by
  rw [rawClosing, List.cons_prefix_cons, List.isPrefixOf_iff_prefix, eq_comm]

theorem rawStringLength_eq (hFirst : IsFirstBehind (rawClosing hashes) body) (after : List Char) :
    rawStringLength hashes (body ++ (rawClosing hashes ++ after)) =
      some (body.length + (rawClosing hashes).length) := by
  induction body with
  | nil =>
    have hHere := rawClosing_prefix_iff.1 (List.prefix_append (rawClosing hashes) after)
    rw [List.nil_append, rawClosing, List.cons_append, rawStringLength]
    exact (if_pos hHere).trans (by simp)
  | cons c body ih =>
    have hNotHere : ¬ rawClosing hashes <+: c :: (body ++ (rawClosing hashes ++ after)) := by
      intro hHere
      -- the closing would occur in front of the body as well
      have hInside : rawClosing hashes <+: c :: body ++ rawClosing hashes :=
        List.prefix_of_prefix_length_le hHere ⟨after, by simp⟩ (by simp; omega)
      cases hFirst [] hInside
    have hRest : IsFirstBehind (rawClosing hashes) body := fun front hFront =>
      (List.cons.inj (hFirst (c :: front) (List.cons_prefix_cons.2 ⟨rfl, hFront⟩))).2
    rw [List.cons_append, rawStringLength, if_neg (mt rawClosing_prefix_iff.2 hNotHere), ih hRest,
      Option.map_some, List.length_cons, Nat.add_right_comm]

theorem exists_of_rawStringLength (h : rawStringLength hashes text = some n) :
    ∃ body after, text = body ++ (rawClosing hashes ++ after) ∧
      IsFirstBehind (rawClosing hashes) body ∧ n = body.length + (rawClosing hashes).length := by
  fun_induction rawStringLength hashes text generalizing n with
  | case1 => cases h
  | case2 c rest hEnd =>
    obtain rfl := Option.some.inj h
    obtain ⟨after, hAfter⟩ := rawClosing_prefix_iff.2 hEnd
    refine ⟨[], after, hAfter.symm, fun front hFront => ?_, by simp [rawClosing]⟩
    have hLength := hFront.length_le
    rw [List.length_append, List.nil_append] at hLength
    exact List.eq_nil_of_length_eq_zero (by omega)
  | case3 c rest hEnd ih =>
    obtain ⟨m, hm, rfl⟩ := Option.map_eq_some_iff.1 h
    obtain ⟨body, after, rfl, hFirst, rfl⟩ := ih hm
    refine ⟨c :: body, after, rfl, fun front hFront => ?_, by
      rw [List.length_cons, Nat.add_right_comm]⟩
    cases front with
    | nil =>
      have hHere : rawClosing hashes <+: c :: (body ++ (rawClosing hashes ++ after)) :=
        List.IsPrefix.trans hFront ⟨after, by simp⟩
      exact absurd (rawClosing_prefix_iff.1 hHere) hEnd
    | cons d front =>
      obtain ⟨rfl, hMore⟩ := List.cons_prefix_cons.1 hFront
      rw [hFirst front hMore]

end Literal

/-! ### What is measured -/

/-- A complete literal is measured, whatever stands behind it. -/
theorem IsLiteral.literalLength_eq (h : IsLiteral before literal after) :
    literalLength before (literal ++ after) = .ok (some literal.length) := by
  cases h with
  | line hLine hEnd =>
    rw [List.cons_append, List.cons_append, literalLength, lineLength_append hLine hEnd,
      Nat.add_comm]
    rfl
  | blockComment h =>
    have hLength := blockCommentLength_append (blockCommentLength_eq_length h) after
    simp only [List.cons_append, literalLength, hLength, List.length_cons, Nat.add_comm 2]
  | string h =>
    have hLength := stringLength_append (stringLength_eq_length h) after
    simp only [List.cons_append, literalLength, hLength, List.length_cons, Nat.add_comm 1]
  | @rawString hashes body _ hWord hFirst =>
    have hLength := rawStringLength_eq hFirst after
    rw [List.cons_append, List.append_assoc, List.cons_append, List.append_assoc,
      literalLength_raw hWord, hLength]
    simp only [List.length_cons, List.length_append, List.length_replicate]
    congr 2
    omega
  | @character c _ hChar =>
    rw [List.cons_append, List.cons_append, List.cons_append, literalLength]
    · rfl
    · exact hChar
  | @escaped c body _ hBody =>
    have hLength := quoteLength_eq hBody after
    simp [literalLength, hLength]
    omega

/-- A line comment that is measured ends with its line. -/
theorem isLiteral_line (rest : List Char) :
    IsLiteral before (('/' :: '/' :: rest).take (2 + lineLength rest))
      (('/' :: '/' :: rest).drop (2 + lineLength rest)) := by
  have hTake : rest.take (lineLength rest) = rest.takeWhile (· ≠ '\n') :=
    (List.prefix_iff_eq_take.1 (List.takeWhile_prefix _)).symm
  rw [Nat.add_comm, List.take_succ_cons, List.take_succ_cons, List.drop_succ_cons,
    List.drop_succ_cons, hTake]
  refine .line (fun hMem => ?_) (head?_drop_lineLength rest)
  simpa using List.mem_takeWhile_imp hMem

/-- A raw string that is measured ends at its first closing. -/
theorem isLiteral_rawString {inner : List Char} (hWord : ¬ InWord before)
    (h : rawStringLength hashes inner = some n) :
    IsLiteral before
      (('r' :: (List.replicate hashes '#' ++ '"' :: inner)).take (2 + hashes + n))
      (('r' :: (List.replicate hashes '#' ++ '"' :: inner)).drop (2 + hashes + n)) := by
  obtain ⟨body, after, rfl, hFirst, rfl⟩ := exists_of_rawStringLength h
  have hText : 'r' :: (List.replicate hashes '#' ++ '"' :: (body ++ (rawClosing hashes ++ after))) =
      'r' :: (List.replicate hashes '#' ++ '"' :: (body ++ rawClosing hashes)) ++ after := by
    simp
  have hCount : 2 + hashes + (body.length + (rawClosing hashes).length) =
      ('r' :: (List.replicate hashes '#' ++ '"' :: (body ++ rawClosing hashes))).length := by
    simp only [List.length_cons, List.length_append, List.length_replicate]
    omega
  rw [hText, hCount, List.take_left, List.drop_left]
  exact .rawString hWord hFirst

/-- A character that is escaped and measured ends at the next quote. -/
theorem isLiteral_escaped {c : Char} {rest : List Char} (h : quoteLength rest = some n) :
    IsLiteral before (('\'' :: '\\' :: c :: rest).take (3 + n))
      (('\'' :: '\\' :: c :: rest).drop (3 + n)) := by
  obtain ⟨body, after, rfl, hBody, rfl⟩ := exists_of_quoteLength h
  have hText : '\'' :: '\\' :: c :: (body ++ '\'' :: after) =
      '\'' :: '\\' :: c :: (body ++ ['\'']) ++ after := by
    simp
  have hCount : 3 + (body.length + 1) = ('\'' :: '\\' :: c :: (body ++ ['\''])).length := by
    simp only [List.length_cons, List.length_append, List.length_nil]
    omega
  rw [hText, hCount, List.take_left, List.drop_left]
  exact .escaped hBody

/-- A literal that is measured is complete. -/
theorem isLiteral_of_literalLength (h : literalLength before text = .ok (some n)) :
    IsLiteral before (text.take n) (text.drop n) := by
  cases begins_of_literalLength h with
  | line rest =>
    obtain rfl := Option.some.inj (Except.ok.inj h)
    exact isLiteral_line rest
  | blockComment rest =>
    cases hLength : blockCommentLength 1 rest with
    | none => simp [literalLength, hLength] at h
    | some m =>
      obtain rfl : 2 + m = n := by simpa [literalLength, hLength] using h
      rw [Nat.add_comm]
      exact .blockComment (commentRest_take hLength)
  | string rest =>
    cases hLength : stringLength rest with
    | none => simp [literalLength, hLength] at h
    | some m =>
      obtain rfl : 1 + m = n := by simpa [literalLength, hLength] using h
      rw [Nat.add_comm]
      exact .string (stringRest_take hLength)
  | rawString hWord hQuote =>
    obtain ⟨hashes, inner, rfl⟩ := hQuote
    rw [literalLength_raw hWord] at h
    cases hLength : rawStringLength hashes inner with
    | none => simp [hLength] at h
    | some m =>
      obtain rfl : 2 + hashes + m = n := by simpa [hLength] using h
      exact isLiteral_rawString hWord hLength
  | escaped rest =>
    cases rest with
    | nil => simp [literalLength, quoteLength] at h
    | cons c rest =>
      cases hLength : quoteLength rest with
      | none => simp [literalLength, hLength] at h
      | some m =>
        obtain rfl : 3 + m = n := by simpa [literalLength, hLength] using h
        exact isLiteral_escaped hLength
  | character hChar rest =>
    obtain rfl : 3 = n := by simpa [literalLength, hChar] using h
    exact .character hChar

/-- No more characters are measured than there are. -/
theorem length_le_of_literalLength (h : literalLength before text = .ok (some n)) :
    n ≤ text.length := by
  have hTaken := (isLiteral_of_literalLength h).literalLength_eq
  rw [List.take_append_drop, h] at hTaken
  have hLength : n = (text.take n).length := Option.some.inj (Except.ok.inj hTaken)
  exact hLength ▸ List.length_take_le' n text

/-- What is measured is a complete literal or comment at the start of the text. -/
theorem literalLength_eq_some_iff : literalLength before text = .ok (some n) ↔
    ∃ literal after, text = literal ++ after ∧ n = literal.length ∧
      IsLiteral before literal after := by
  constructor
  · intro h
    refine ⟨text.take n, text.drop n, (List.take_append_drop n text).symm, ?_,
      isLiteral_of_literalLength h⟩
    rw [List.length_take_of_le (length_le_of_literalLength h)]
  · rintro ⟨literal, after, rfl, rfl, h⟩
    exact h.literalLength_eq

/-- What is left open begins like a literal or comment that has to be closed. -/
theorem opens_of_literalLength (h : literalLength before text = .error kind) :
    Opens before kind text := by
  unfold literalLength at h
  split at h
  · cases h
  · next rest =>
    cases hLength : blockCommentLength 1 rest with
    | none =>
      obtain rfl : .blockComment = kind := by simpa [hLength] using h
      exact .blockComment rest
    | some m => simp [hLength] at h
  · next rest =>
    cases hLength : stringLength rest with
    | none =>
      obtain rfl : .string = kind := by simpa [hLength] using h
      exact .string rest
    | some m => simp [hLength] at h
  · next rest =>
    split at h
    · next hStart =>
      obtain ⟨hWord, hQuote⟩ := startsRawString_iff.1 hStart
      cases hLength : rawStringLength (hashCount rest) (rest.drop (hashCount rest + 1)) with
      | none =>
        obtain rfl : .rawString = kind := by simpa [hLength] using h
        exact .rawString hWord hQuote
      | some m => simp [hLength] at h
    · cases h
  · next rest =>
    cases hLength : quoteLength rest.tail with
    | none =>
      obtain rfl : .character = kind := by simpa [hLength] using h
      exact .character rest
    | some m => simp [hLength] at h
  · cases h
  · cases h

theorem Opens.begins (h : Opens before kind text) : Begins before text := by
  cases h with
  | blockComment rest => exact .blockComment rest
  | string rest => exact .string rest
  | rawString hWord hQuote => exact .rawString hWord hQuote
  | character rest => exact .escaped rest

theorem Opens.kind_eq {other : Literal} (h : Opens before kind text)
    (hOther : Opens before other text) : kind = other := by
  cases h <;> cases hOther <;> rfl

/-- It is an error if and only if a literal or comment begins and has no end. -/
theorem literalLength_eq_error_iff : literalLength before text = .error kind ↔
    Opens before kind text ∧
      ∀ literal after, text = literal ++ after → ¬ IsLiteral before literal after := by
  constructor
  · intro h
    refine ⟨opens_of_literalLength h, ?_⟩
    rintro literal after rfl hLiteral
    rw [hLiteral.literalLength_eq] at h
    cases h
  · rintro ⟨hOpens, hNone⟩
    cases hLength : literalLength before text with
    | error other => rw [hOpens.kind_eq (opens_of_literalLength hLength)]
    | ok length? =>
      cases length? with
      | none => exact absurd hOpens.begins (literalLength_eq_none_iff.1 hLength)
      | some n =>
        exact absurd (isLiteral_of_literalLength hLength)
          (hNone _ _ (List.take_append_drop n text).symm)

/-! ### In front of another text -/

/-- A text may stand behind a literal in the place of another one if it does not go on in a line
that ended there. -/
def MayFollow (post rest : List Char) : Prop :=
  ∀ c ∈ post.head?, c ≠ '\n' → ∃ d ∈ rest.head?, d ≠ '\n'

/-- A complete literal is complete in front of another text as well. -/
theorem IsLiteral.of_mayFollow {post : List Char} (h : IsLiteral before literal after)
    (hPost : MayFollow post after) : IsLiteral before literal post := by
  cases h with
  | line hLine hEnd =>
    refine .line hLine fun c hc => ?_
    by_contra hOther
    obtain ⟨d, hd, hNot⟩ := hPost c hc hOther
    exact hNot (hEnd d hd)
  | blockComment h => exact .blockComment h
  | string h => exact .string h
  | rawString hWord hFirst => exact .rawString hWord hFirst
  | character hChar => exact .character hChar
  | escaped hBody => exact .escaped hBody

/-- A closed literal is the same in front of another text. -/
theorem literalLength_take_append {post : List Char} (h : literalLength before text = .ok (some n))
    (hPost : MayFollow post (text.drop n)) :
    literalLength before (text.take n ++ post) = .ok (some n) := by
  have hTaken := ((isLiteral_of_literalLength h).of_mayFollow hPost).literalLength_eq
  rwa [List.length_take_of_le (length_le_of_literalLength h)] at hTaken

/-- A literal that ends before the text does is the same whatever comes after the text. -/
theorem literalLength_append_of_lt (h : literalLength before text = .ok (some n))
    (hEnd : n < text.length) (post : List Char) :
    literalLength before (text ++ post) = .ok (some n) := by
  have hNext : text.drop n ≠ [] := fun hNil =>
    absurd (List.drop_eq_nil_iff.1 hNil) (Nat.not_le_of_lt hEnd)
  obtain ⟨c, more, hMore⟩ := List.exists_cons_of_ne_nil hNext
  have hPost : MayFollow (text.drop n ++ post) (text.drop n) := by
    rw [hMore]
    exact fun d hd hOther => ⟨d, hd, hOther⟩
  have hSame := literalLength_take_append h hPost
  rwa [← List.append_assoc, List.take_append_drop] at hSame

end TreeGrammar
