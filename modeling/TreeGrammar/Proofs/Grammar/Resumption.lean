import TreeGrammar.Proofs.Grammar.CodeEnds
import TreeGrammar.Proofs.Grammar.LiteralForms
import TreeGrammar.Proofs.Grammar.Recovery

/-!
# Where reading goes on after an error

A text falls into the literals and comments that are closed, and the characters outside of them, to
which the beginnings of literals that are left open belong. After an error, reading goes on behind
the first semicolon among these characters in front of which every block is closed that has been
opened since the error. A brace that closes no such block has no meaning.

## Main definitions

* `Division`: the closed literals of a text and the characters outside of them
* `Outside`: no block is open behind some parts
* `ReadState.GoesOnAt`: the place behind a faulty item

## Main results

* `outside_iff`: the braces that are counted are those that are open
* `ReadState.resumes`: where reading goes on
-/

namespace TreeGrammar

open CodePart (texts)

/-! ### Blocks -/

/-- Every brace in some parts belongs to a block, opened and closed there. -/
inductive Balanced : List CodePart → Prop where
  | nil : Balanced []
  | part {part : CodePart} {parts : List CodePart} (hOpening : part ≠ .char '{')
      (hClosing : part ≠ .char '}') (h : Balanced parts) : Balanced (part :: parts)
  | block {inner parts : List CodePart} (hInner : Balanced inner) (h : Balanced parts) :
      Balanced (.char '{' :: (inner ++ .char '}' :: parts))

/-- Every block that is opened in some parts is closed there. Outside of the blocks, closing braces
are parts like any other. -/
inductive Outside : List CodePart → Prop where
  | nil : Outside []
  | part {part : CodePart} {parts : List CodePart} (hOpening : part ≠ .char '{')
      (h : Outside parts) : Outside (part :: parts)
  | block {inner parts : List CodePart} (hInner : Balanced inner) (h : Outside parts) :
      Outside (.char '{' :: (inner ++ .char '}' :: parts))

/-- How many blocks are open after a part. -/
def CodePart.blocksAfter (depth : Nat) : CodePart → Nat
  | .char c => bracesAfter c depth
  | _ => depth

/-- How many blocks are open after some parts. -/
def openBlocks (depth : Nat) (parts : List CodePart) : Nat := parts.foldl CodePart.blocksAfter depth

variable {parts inner more : List CodePart} {part : CodePart} {depth : Nat}

theorem openBlocks_cons (part : CodePart) (parts : List CodePart) :
    openBlocks depth (part :: parts) = openBlocks (part.blocksAfter depth) parts := rfl

theorem openBlocks_append : openBlocks depth (parts ++ more) =
    openBlocks (openBlocks depth parts) more :=
  List.foldl_append

theorem blocksAfter_of_ne (hOpening : part ≠ .char '{') (hClosing : part ≠ .char '}') :
    part.blocksAfter depth = depth := by
  cases part with
  | literal | arrow => rfl
  | char c =>
    have hOpening : c ≠ '{' := fun hc => hOpening (hc ▸ rfl)
    have hClosing : c ≠ '}' := fun hc => hClosing (hc ▸ rfl)
    simp [CodePart.blocksAfter, bracesAfter, hOpening, hClosing]

theorem Balanced.openBlocks_eq (h : Balanced parts) : openBlocks depth parts = depth := by
  induction h generalizing depth with
  | nil => rfl
  | part hOpening hClosing _ ih => rw [openBlocks_cons, blocksAfter_of_ne hOpening hClosing, ih]
  | block _ _ ihInner ih =>
    rw [openBlocks_cons, openBlocks_append, ihInner, openBlocks_cons, ih]
    exact Nat.add_sub_cancel ..

/-- A block that is open is closed by the first brace that has no block of its own. -/
theorem exists_balanced (h : openBlocks (depth + 1) parts ≤ depth) :
    ∃ inner more, parts = inner ++ .char '}' :: more ∧ Balanced inner ∧
      openBlocks depth more = openBlocks (depth + 1) parts := by
  -- by induction on the number of parts, since a block inside takes several of them
  induction hLength : parts.length using Nat.strongRecOn generalizing parts depth with
  | _ length ih =>
    subst hLength
    cases parts with
    | nil => exact absurd h (Nat.not_succ_le_self depth)
    | cons part parts =>
      by_cases hOpening : part = .char '{'
      · subst hOpening
        have hAll : openBlocks (depth + 1 + 1) parts ≤ depth := h
        obtain ⟨block, others, rfl, hBlock, hOthers⟩ :=
          ih parts.length (Nat.lt_succ_self _) (Nat.le_succ_of_le hAll) rfl
        rw [← hOthers] at hAll
        obtain ⟨inner, more, rfl, hInner, hMore⟩ := ih others.length (by simp; omega) hAll rfl
        refine ⟨.char '{' :: (block ++ .char '}' :: inner), more, by simp, .block hBlock hInner, ?_⟩
        exact hMore.trans hOthers
      · by_cases hClosing : part = .char '}'
        · subst hClosing
          exact ⟨[], parts, rfl, .nil, rfl⟩
        · rw [openBlocks_cons, blocksAfter_of_ne hOpening hClosing] at h ⊢
          obtain ⟨inner, more, rfl, hInner, hMore⟩ := ih parts.length (Nat.lt_succ_self _) h rfl
          exact ⟨part :: inner, more, rfl, .part hOpening hClosing hInner, hMore⟩

/-- No block is open if and only if none is counted. -/
theorem outside_iff : Outside parts ↔ openBlocks 0 parts = 0 := by
  constructor
  · intro h
    induction h with
    | nil => rfl
    | @part part parts hOpening _ ih =>
      by_cases hClosing : part = .char '}'
      · rw [hClosing]
        exact ih
      · rw [openBlocks_cons, blocksAfter_of_ne hOpening hClosing, ih]
    | block hInner _ ih =>
      rw [openBlocks_cons, openBlocks_append, hInner.openBlocks_eq]
      exact ih
  · intro h
    induction hLength : parts.length using Nat.strongRecOn generalizing parts with
    | _ length ih =>
      subst hLength
      cases parts with
      | nil => exact .nil
      | cons part parts =>
        by_cases hOpening : part = .char '{'
        · subst hOpening
          have hAll : openBlocks (0 + 1) parts = 0 := h
          obtain ⟨inner, more, rfl, hInner, hMore⟩ := exists_balanced hAll.le
          exact .block hInner (ih more.length (by simp; omega) (hMore.trans hAll) rfl)
        · have hNone : part.blocksAfter 0 = 0 := by
            by_cases hClosing : part = .char '}'
            · rw [hClosing]
              rfl
            · exact blocksAfter_of_ne hOpening hClosing
          rw [openBlocks_cons, hNone] at h
          exact .part hOpening (ih parts.length (Nat.lt_succ_self _) h rfl)

/-! ### Closed literals -/

/-- The closed literals and comments of a text, and the characters outside of them. Other text
stands in front of it, its last character first. -/
inductive Division : List Char → List Char → List CodePart → Prop where
  | nil (before : List Char) : Division before [] []
  | literal {before literal after : List Char} {parts : List CodePart}
      (hLiteral : IsLiteral before literal after)
      (h : Division (literal.reverse ++ before) after parts) :
      Division before (literal ++ after) (.literal literal :: parts)
  | char {before rest : List Char} {c : Char} {parts : List CodePart}
      (hNone : ∀ literal after, c :: rest = literal ++ after → ¬ IsLiteral before literal after)
      (h : Division (c :: before) rest parts) : Division before (c :: rest) (.char c :: parts)

variable {before text rest : List Char} {c : Char}

theorem IsLiteral.length_pos {literal after : List Char} (h : IsLiteral before literal after) :
    0 < literal.length :=
  literalLength_pos h.literalLength_eq

theorem exists_division (before text : List Char) : ∃ parts, Division before text parts := by
  induction hLength : text.length using Nat.strongRecOn generalizing before text with
  | _ length ih =>
    subst hLength
    cases text with
    | nil => exact ⟨[], .nil before⟩
    | cons c rest =>
      by_cases hClosed : ∃ literal after, c :: rest = literal ++ after ∧
          IsLiteral before literal after
      · obtain ⟨literal, after, hText, hLiteral⟩ := hClosed
        have hLonger := hLiteral.length_pos
        obtain ⟨parts, h⟩ := ih after.length (by rw [hText, List.length_append]; omega)
          (literal.reverse ++ before) after rfl
        exact ⟨.literal literal :: parts, hText ▸ .literal hLiteral h⟩
      · obtain ⟨parts, h⟩ := ih rest.length (Nat.lt_succ_self _) (c :: before) rest rfl
        have hNone : ∀ literal after, c :: rest = literal ++ after →
            ¬ IsLiteral before literal after :=
          fun _ _ hText hLiteral => hClosed ⟨_, _, hText, hLiteral⟩
        exact ⟨.char c :: parts, .char hNone h⟩

theorem Division.of_nil (h : Division before [] parts) : parts = [] := by
  generalize hText : ([] : List Char) = text at h
  cases h with
  | nil => rfl
  | literal hLiteral h =>
    obtain ⟨rfl, -⟩ := List.append_eq_nil_iff.1 hText.symm
    exact absurd hLiteral.length_pos (Nat.lt_irrefl 0)
  | char hNone h => cases hText

theorem Division.of_literal {length : Nat} (h : Division before text parts)
    (hLength : literalLength before text = .ok (some length)) :
    ∃ others, parts = .literal (text.take length) :: others ∧
      Division ((text.take length).reverse ++ before) (text.drop length) others := by
  cases h with
  | nil => cases hLength
  | @literal _ literal after others hLiteral h =>
    obtain rfl : literal.length = length := by
      simpa using hLiteral.literalLength_eq.symm.trans hLength
    rw [List.take_left, List.drop_left]
    exact ⟨others, rfl, h⟩
  | @char _ rest c others hNone h =>
    exact absurd (isLiteral_of_literalLength hLength)
      (hNone _ _ (List.take_append_drop length (c :: rest)).symm)

theorem Division.of_char (h : Division before (c :: rest) parts)
    (hLength : ∀ length, literalLength before (c :: rest) ≠ .ok (some length)) :
    ∃ others, parts = .char c :: others ∧ Division (c :: before) rest others := by
  generalize hText : c :: rest = text at h hLength
  cases h with
  | nil => cases hText
  | literal hLiteral h => exact absurd hLiteral.literalLength_eq (hLength _)
  | char hNone h =>
    obtain ⟨rfl, rfl⟩ := List.cons.inj hText
    exact ⟨_, rfl, h⟩

/-! ### The end of the item -/

/-- A semicolon stands behind some parts, and no block is open there if some are open in front. -/
def EndsBehind (depth : Nat) (parts front : List CodePart) : Prop :=
  (∃ more, parts = front ++ .char ';' :: more) ∧ openBlocks depth front = 0

theorem endsBehind_cons_iff {front : List CodePart} : EndsBehind depth (part :: parts) front ↔
    front = [] ∧ part = .char ';' ∧ depth = 0 ∨
      ∃ front', front = part :: front' ∧ EndsBehind (part.blocksAfter depth) parts front' := by
  constructor
  · rintro ⟨⟨more, hParts⟩, hOpen⟩
    cases front with
    | nil => exact .inl ⟨rfl, (List.cons.inj hParts).1, hOpen⟩
    | cons first front =>
      obtain ⟨rfl, hOthers⟩ := List.cons.inj hParts
      exact .inr ⟨front, rfl, ⟨more, hOthers⟩, hOpen⟩
  · rintro (⟨rfl, rfl, hOpen⟩ | ⟨front, rfl, ⟨more, rfl⟩, hOpen⟩)
    · exact ⟨⟨parts, rfl⟩, hOpen⟩
    · exact ⟨⟨more, rfl⟩, hOpen⟩

namespace ReadState

variable {source : List Char} {bound : Nat}

/-- Reading goes on behind the first semicolon that is outside of all blocks, or at the end. -/
def ResumesAt (state : ReadState source bound) (depth : Nat) (parts : List CodePart)
    (next : ReadState source bound) : Prop :=
  (∃ front, EndsBehind depth parts front ∧
      (∀ other, EndsBehind depth parts other → front.length ≤ other.length) ∧
      next = state.drop ((texts front).length + 1)) ∨
    (∀ front, ¬ EndsBehind depth parts front) ∧ next = state.drop state.remaining

variable {state next : ReadState source bound}

/-- A part is passed before the others. -/
theorem ResumesAt.cons {count : Nat} (hCount : part.text.length = count)
    (hLe : count ≤ state.remaining) (hEnd : ¬ (part = .char ';' ∧ depth = 0))
    (h : (state.drop count).ResumesAt (part.blocksAfter depth) parts next) :
    state.ResumesAt depth (part :: parts) next := by
  rcases h with ⟨front, hFront, hFirst, rfl⟩ | ⟨hNone, rfl⟩
  · refine .inl ⟨part :: front, endsBehind_cons_iff.2 (.inr ⟨front, rfl, hFront⟩), ?_, ?_⟩
    · intro other hOther
      rcases endsBehind_cons_iff.1 hOther with ⟨-, hHere⟩ | ⟨tail, rfl, hTail⟩
      · exact absurd hHere hEnd
      · exact Nat.succ_le_succ (hFirst tail hTail)
    · rw [drop_drop, CodePart.texts_cons, List.length_append, hCount, Nat.add_assoc]
  · refine .inr ⟨?_, ?_⟩
    · intro other hOther
      rcases endsBehind_cons_iff.1 hOther with ⟨-, hHere⟩ | ⟨tail, rfl, hTail⟩
      · exact hEnd hHere
      · exact hNone tail hTail
    · rw [drop_drop, remaining_drop, Nat.add_sub_of_le hLe]

/-- The recovery goes on behind the first semicolon outside of all blocks. -/
theorem recover_resumesAt (depth : Nat) (state : ReadState source bound) {parts : List CodePart}
    (h : Division state.reader.before state.rest parts) :
    state.ResumesAt depth parts (state.recover depth).1 := by
  fun_induction recover depth state generalizing parts
  case case1 depth state hRest =>
    rw [hRest] at h
    obtain rfl := h.of_nil
    refine .inr ⟨fun front hFront => ?_, ?_⟩
    · obtain ⟨more, hMore⟩ := hFront.1
      simp at hMore
    · show state.drop 0 = state.drop state.remaining
      rw [remaining_eq_zero hRest]
  case case2 depth state c rest hRest pos length hLiteral hLonger next le hNext ih =>
    obtain ⟨others, rfl, hOthers⟩ := h.of_literal hLiteral
    have hLe := length_le_of_literalLength hLiteral
    have hBefore : (state.drop length).reader.before =
        (state.rest.take length).reverse ++ state.reader.before := Reader.before_drop ..
    rw [hNext] at ih
    rw [← rest_drop, ← hBefore] at hOthers
    exact (ih hOthers).cons (List.length_take_of_le hLe) hLe (by simp)
  case case3 depth state c rest hRest pos hEnd hNone =>
    rw [hRest] at h hNone
    obtain ⟨others, rfl, hOthers⟩ := h.of_char hNone
    obtain ⟨rfl, rfl⟩ := hEnd
    exact .inl ⟨[], ⟨⟨others, rfl⟩, rfl⟩, fun _ _ => Nat.zero_le _, rfl⟩
  case case4 depth state c rest hRest pos hEnd depth' next le hNext hNone ih =>
    rw [hRest] at h hNone
    obtain ⟨others, rfl, hOthers⟩ := h.of_char hNone
    have hBefore : (state.drop 1).reader.before = c :: state.reader.before := by
      have hDrop : (state.drop 1).reader.before =
          (state.rest.take 1).reverse ++ state.reader.before := Reader.before_drop ..
      rw [hDrop, hRest]
      rfl
    have hDepth : depth' = CodePart.blocksAfter depth (.char c) := by
      simp only [depth', CodePart.blocksAfter, bracesAfter, dite_eq_ite]
    have hRest' : (state.drop 1).rest = rest := by
      rw [rest_drop, hRest]
      rfl
    rw [hNext, hDepth, hBefore, hRest'] at ih
    refine (ih hOthers).cons rfl pos ?_
    rintro ⟨⟨⟩, rfl⟩
    exact hEnd ⟨rfl, rfl⟩

/-- A place is behind the first semicolon, among some parts, in front of which no block is open, or
at the end if there is no such semicolon. -/
def GoesOnAt (state : ReadState source bound) (parts : List CodePart)
    (next : ReadState source bound) : Prop :=
  (∃ front, (∃ more, parts = front ++ .char ';' :: more) ∧ Outside front ∧
      (∀ front' more', parts = front' ++ .char ';' :: more' → Outside front' →
        front.length ≤ front'.length) ∧
      next = state.drop (texts front ++ [';']).length) ∨
    (∀ front more, parts = front ++ .char ';' :: more → ¬ Outside front) ∧
      next = state.drop state.rest.length

/-- After an error, reading goes on exactly behind the first semicolon outside of closed literals,
comments and the blocks that are opened behind the error, or at the end if there is none. -/
theorem resumes (state : ReadState source bound) {parts : List CodePart}
    (h : Division state.reader.before state.rest parts) :
    state.GoesOnAt parts (state.recover 0).1 := by
  rcases state.recover_resumesAt 0 h with ⟨front, ⟨hMore, hOpen⟩, hFirst, hNext⟩ | ⟨hNone, hNext⟩
  · refine .inl ⟨front, hMore, outside_iff.2 hOpen, fun front' more' hMore' hOpen' => ?_, ?_⟩
    · exact hFirst front' ⟨⟨more', hMore'⟩, outside_iff.1 hOpen'⟩
    · rw [hNext, List.length_append]
      rfl
  · refine .inr ⟨fun front more hMore hOpen => ?_, hNext⟩
    exact hNone front ⟨⟨more, hMore⟩, outside_iff.1 hOpen⟩

end ReadState

end TreeGrammar
