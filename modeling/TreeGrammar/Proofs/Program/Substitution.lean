import TreeGrammar.Program.Binding
import TreeGrammar.Proofs.Grammar.LiteralForms
import TreeGrammar.Proofs.Text.Position
import TreeGrammar.Text.Slice

/-!
# References replaced in code

Every reference takes some bytes of its piece of code: the mark and the name behind it. Replacing
the references copies the bytes between them. When variables have taken the place of references, no
reference is left: the parentheses around a variable begin no literal, end no line and prolong no
word, so that the literals of the code stay where they are.

## Main definitions

* `Mention`, `Fragment.mentions`: references with the bytes that they take
* `Fragment.rewrite`: the replacement of references, byte range by byte range

## Main results

* `Fragment.rewrite_eq`: the bytes between the references are copied
* `references_boundText`: no reference is left
* `Fragment.mentions_rewrite`: the byte ranges of references, and what replacing them does
-/

namespace TreeGrammar

open Text

/-! ### Byte ranges -/

/-- A reference with the bytes that its mark and its name take. -/
structure Mention where
  reference : Ident
  start : Nat
  stop : Nat
  deriving DecidableEq, Repr

namespace Fragment

/-- The references in a piece of code with their bytes, counted from the start of the piece. -/
def mentions (fragment : Fragment) : List Mention :=
  let rec locate (offset : Nat) : List (Piece × Span) → List Mention
    | [] => []
    | (piece, span) :: rest =>
      let stop := offset + byteSize piece.source
      match piece with
      | .reference name => ⟨⟨String.ofList name, span⟩, offset, stop⟩ :: locate stop rest
      | _ => locate stop rest
  locate 0 fragment.locatedPieces

/-- The text of a piece of code with another text in the place of every reference. All other bytes
are copied. -/
def rewrite (fragment : Fragment) (replacement : List Char → List Char) : Option (List Char) :=
  let rec copy (last : Nat) : List Mention → Option (List Char)
    | [] => slice? fragment.text.toList last (byteSize fragment.text.toList)
    | mention :: rest => do
      let between ← slice? fragment.text.toList last mention.start
      let more ← copy mention.stop rest
      return between ++ replacement mention.reference.name.toList ++ more
  copy 0 fragment.mentions

/-- A text with another text in the place of every reference among its parts. -/
def substitute (replacement : List Char → List Char) (parts : List Piece) : List Char :=
  parts.flatMap fun
    | .reference name => replacement name
    | piece => piece.source

/-! ### Byte ranges of references -/

section Ranges

variable {fragment : Fragment} {parts : List (Piece × Span)}

theorem map_fst_locatedPieces (fragment : Fragment) :
    fragment.locatedPieces.map Prod.fst = fragment.pieces := by
  have hMap (span : Span) (pieces : List Piece) :
      (locatedPieces.locate span pieces).map Prod.fst = pieces := by
    induction pieces generalizing span with
    | nil => rfl
    | cons piece pieces ih => rw [locatedPieces.locate, List.map_cons, ih]
  exact hMap _ _

theorem flatMap_source_locatedPieces (fragment : Fragment) :
    fragment.locatedPieces.flatMap (fun entry => entry.1.source) = fragment.text.toList := by
  have hSource := flatMap_source_pieces [] fragment.text.toList
  rw [← pieces, ← map_fst_locatedPieces, List.flatMap_map] at hSource
  exact hSource

/-- The name of a reference, with its position. -/
def reference? (entry : Piece × Span) : Option Ident :=
  match entry.1 with
  | .reference name => some ⟨String.ofList name, entry.2⟩
  | _ => none

theorem references_eq (fragment : Fragment) :
    fragment.references = fragment.locatedPieces.filterMap reference? := by
  rw [references]
  congr 1
  funext entry
  obtain ⟨piece, span⟩ := entry
  cases piece <;> rfl

/-- The references are those that are found in the piece of code. -/
theorem map_reference_mentions (fragment : Fragment) :
    fragment.mentions.map Mention.reference = fragment.references := by
  have hLocate (offset : Nat) (parts : List (Piece × Span)) :
      (mentions.locate offset parts).map Mention.reference = parts.filterMap reference? := by
    induction parts generalizing offset with
    | nil => rfl
    | cons entry parts ih =>
      obtain ⟨piece, span⟩ := entry
      cases piece with
      | reference name =>
        simp only [mentions.locate, List.map_cons, ih]
        rfl
      | plain | stray =>
        simp only [mentions.locate, ih]
        rfl
  rw [references_eq]
  exact hLocate 0 _

/-- References come after the bytes that have been passed. -/
theorem le_start_of_mem_locate (offset : Nat) :
    ∀ mention ∈ mentions.locate offset parts, offset ≤ mention.start := by
  induction parts generalizing offset with
  | nil => exact List.forall_mem_nil _
  | cons entry parts ih =>
    obtain ⟨piece, span⟩ := entry
    have hLater : ∀ mention ∈ mentions.locate (offset + byteSize piece.source) parts,
        offset ≤ mention.start := fun mention hMention =>
      Nat.le_trans (Nat.le_add_right ..) (ih _ mention hMention)
    cases piece with
    | reference name => exact List.forall_mem_cons.2 ⟨Nat.le_refl _, hLater⟩
    | plain | stray => exact hLater

/-- References have no bytes in common. -/
theorem pairwise_locate (offset : Nat) :
    (mentions.locate offset parts).Pairwise fun a b => a.stop ≤ b.start := by
  induction parts generalizing offset with
  | nil => exact .nil
  | cons entry parts ih =>
    obtain ⟨piece, span⟩ := entry
    cases piece with
    | reference name => exact .cons (le_start_of_mem_locate _) (ih _)
    | plain | stray => exact ih _

/-- The bytes of a reference are the mark and the name. -/
theorem slice?_of_mem_locate (front : List Char) :
    ∀ mention ∈ mentions.locate (byteSize front) parts, mention.start < mention.stop ∧
      slice? (front ++ parts.flatMap fun entry => entry.1.source) mention.start mention.stop =
        some ('@' :: mention.reference.name.toList) := by
  induction parts generalizing front with
  | nil => exact List.forall_mem_nil _
  | cons entry parts ih =>
    obtain ⟨piece, span⟩ := entry
    have hLater := ih (front ++ piece.source)
    rw [byteSize_append, List.append_assoc] at hLater
    cases piece with
    | reference name =>
      refine List.forall_mem_cons.2 ⟨⟨?_, ?_⟩, hLater⟩
      · have hMark := ('@').utf8Size_pos
        simp only [Piece.source, byteSize_cons]
        omega
      · rw [List.flatMap_cons, slice?_append, String.toList_ofList]
        rfl
    | plain | stray => exact hLater

/-- What has not been copied yet in front of a place is copied up to the next reference. -/
theorem copy_locate (replacement : List Char → List Char) (front between : List Char)
    (hText : fragment.text.toList =
      front ++ (between ++ parts.flatMap fun entry => entry.1.source)) :
    rewrite.copy fragment replacement (byteSize front)
        (mentions.locate (byteSize front + byteSize between) parts) =
      some (between ++ substitute replacement (parts.map Prod.fst)) := by
  induction parts generalizing front between with
  | nil =>
    rw [List.flatMap_nil, List.append_nil] at hText
    have hSlice := slice?_append front between []
    rw [List.append_nil] at hSlice
    rw [mentions.locate, rewrite.copy, hText, byteSize_append, hSlice]
    simp [substitute]
  | cons entry parts ih =>
    obtain ⟨piece, span⟩ := entry
    rw [List.flatMap_cons] at hText
    -- what is no reference is copied together with the text in front of it
    have hPlain (hSource : ∀ name, piece ≠ .reference name) :
        rewrite.copy fragment replacement (byteSize front)
            (mentions.locate (byteSize front + byteSize between + byteSize piece.source) parts) =
          some (between ++ substitute replacement (((piece, span) :: parts).map Prod.fst)) := by
      have hMore := ih front (between ++ piece.source) (by rw [hText, List.append_assoc])
      rw [byteSize_append, ← Nat.add_assoc] at hMore
      rw [hMore, List.append_assoc]
      cases piece with
      | reference name => exact absurd rfl (hSource name)
      | plain | stray => rfl
    cases piece with
    | reference name =>
      have hMore := ih (front ++ between ++ (Piece.reference name).source) [] (by simpa using hText)
      rw [byteSize_append, byteSize_append, byteSize_nil, Nat.add_zero] at hMore
      have hSlice := slice?_append front between
        ((Piece.reference name).source ++ parts.flatMap fun entry => entry.1.source)
      simp only [mentions.locate, rewrite.copy, hText, hSlice, hMore]
      simp [substitute]
    | plain | stray => exact hPlain (by simp)

/-- Nothing but references is replaced. -/
theorem rewrite_eq (fragment : Fragment) (replacement : List Char → List Char) :
    fragment.rewrite replacement = some (fragment.substituted replacement) := by
  have hText := flatMap_source_locatedPieces fragment
  have hCopy := copy_locate replacement [] [] hText.symm
  rw [map_fst_locatedPieces] at hCopy
  exact hCopy

end Ranges

end Fragment

/-! ### Code in which variables have taken the place of references -/

section Variables

open Fragment

variable {before before' text : List Char}

/-- A part of code that is no reference. -/
def Piece.IsText (piece : Piece) : Prop := ∀ name, piece ≠ .reference name

/-- With variables in the place of references, a text is the same up to the first reference, where a
parenthesis and a star take the place of the mark. -/
theorem exists_common (parts : List Piece) :
    ∃ common, (parts.flatMap Piece.source = common ∧ substitute attributeText parts = common) ∨
      ∃ more more', parts.flatMap Piece.source = common ++ '@' :: more ∧
        substitute attributeText parts = common ++ '(' :: '*' :: more' := by
  induction parts with
  | nil => exact ⟨[], .inl ⟨rfl, rfl⟩⟩
  | cons piece parts ih =>
    have hText (hPiece : substitute attributeText [piece] = piece.source) :
        ∃ common, ((piece :: parts).flatMap Piece.source = common ∧
            substitute attributeText (piece :: parts) = common) ∨
          ∃ more more', (piece :: parts).flatMap Piece.source = common ++ '@' :: more ∧
            substitute attributeText (piece :: parts) = common ++ '(' :: '*' :: more' := by
      have hSplit : substitute attributeText (piece :: parts) =
          piece.source ++ substitute attributeText parts := by
        rw [← hPiece]
        simp [substitute]
      rw [List.flatMap_cons, hSplit]
      obtain ⟨common, ⟨hSource, hVariables⟩ | ⟨more, more', hSource, hVariables⟩⟩ := ih
      · exact ⟨piece.source ++ common, .inl ⟨by rw [hSource], by rw [hVariables]⟩⟩
      · refine ⟨piece.source ++ common, .inr ⟨more, more', ?_, ?_⟩⟩
        · rw [hSource, List.append_assoc]
        · rw [hVariables, List.append_assoc]
    cases piece with
    | plain | stray => exact hText (by simp [substitute, Piece.source])
    | reference name => exact ⟨[], .inr ⟨_, _, rfl, rfl⟩⟩

/-- The two texts in front of a place end alike, as far as the character at this place can tell. -/
def Joined (before before' text : List Char) : Prop :=
  EndAlike before before' ∨ ∀ c ∈ text.head?, ¬ isIdentChar c

theorem Joined.append {c : Char} (h : Joined before before' (c :: text)) (more : List Char) :
    EndAlike (more ++ c :: before) (more ++ c :: before') := by
  rcases h with h | h
  · have hMore := h.append (more ++ [c])
    rwa [List.append_assoc, List.append_assoc] at hMore
  · have hEnd (before : List Char) : EndsNoWord (c :: before) := fun d hd => h d hd
    exact ⟨more, c :: before, c :: before', rfl, rfl, hEnd before, hEnd before'⟩

/-- Whether a literal begins at this place does not depend on which of the two comes before. -/
theorem Joined.literalLength_eq {c : Char} (h : Joined before before' (c :: text))
    (rest : List Char) : literalLength before' (c :: rest) = literalLength before (c :: rest) := by
  rcases h with h | h
  · exact (h.literalLength_eq _).symm
  · have hRaw : c ≠ 'r' := by
      rintro rfl
      exact h 'r' rfl (by decide)
    exact literalLength_eq_of_ne hRaw before before' rest

/-- The first character stays, or a parenthesis takes the place of a mark. -/
theorem head?_substitute {parts : List Piece} :
    ∀ c ∈ (substitute attributeText parts).head?,
      (parts.flatMap Piece.source).head? = some c ∨
        c = '(' ∧ (parts.flatMap Piece.source).head? = some '@' := by
  intro c hc
  obtain ⟨common, ⟨hSource, hVariables⟩ | ⟨more, more', hSource, hVariables⟩⟩ :=
    exists_common parts
  · rw [hVariables] at hc
    exact .inl (hSource ▸ hc)
  · rw [hVariables] at hc
    rw [hSource]
    cases common with
    | nil => exact .inr ⟨(Option.some.inj hc).symm, rfl⟩
    | cons d common => exact .inl hc

/-- Where no literal begins, none begins after the references that follow have been replaced. -/
theorem literalLength_substitute {c : Char} {parts : List Piece}
    (h : literalLength before (c :: parts.flatMap Piece.source) = .ok none) :
    literalLength before (c :: substitute attributeText parts) = .ok none := by
  obtain ⟨common, ⟨hSource, hVariables⟩ | ⟨more, more', hSource, hVariables⟩⟩ :=
    exists_common parts
  · rw [hVariables, ← hSource]
    exact h
  · rw [hSource, ← List.cons_append] at h
    rw [hVariables]
    exact literalLength_append_star (literalLength_of_append_none h) more'

theorem isText_pieces_cons {c : Char} (hLiteral : literalLength before (c :: text) = .ok none)
    (hMark : c ≠ '@') (h : ∀ piece ∈ pieces (c :: before) text, piece.IsText) :
    ∀ piece ∈ pieces before (c :: text), piece.IsText := by
  rw [pieces_of_plain hLiteral hMark]
  exact List.forall_mem_cons.2 ⟨by simp [Piece.IsText], h⟩

/-- A variable in parentheses contains no reference. -/
theorem isText_pieces_attributeText {name rest : List Char} (hName : ∀ c ∈ name, isIdentChar c)
    (hRest : ∀ before, ∀ piece ∈ pieces (')' :: before) rest, piece.IsText) (before : List Char) :
    ∀ piece ∈ pieces before (attributeText name ++ rest), piece.IsText := by
  have hText : attributeText name ++ rest =
      '(' :: '*' :: '_' :: (("_attr_".toList ++ name) ++ ')' :: rest) := by
    simp [attributeText, attributeVariable]
  have hStep {c : Char} (hc : c ∈ ['(', '*', '_', ')']) {before text : List Char}
      (h : ∀ piece ∈ pieces (c :: before) text, piece.IsText) :
      ∀ piece ∈ pieces before (c :: text), piece.IsText := by
    refine isText_pieces_cons (literalLength_of_ne ?_ ?_ ?_ ?_ _ _) ?_ h <;>
      · rintro rfl
        revert hc
        decide
  have hPrefix : "_attr_".toList.all isIdentChar := by decide
  have hWord : ∀ c ∈ "_attr_".toList ++ name, isIdentChar c :=
    List.forall_mem_append.2 ⟨List.all_eq_true.1 hPrefix, hName⟩
  rw [hText]
  refine hStep (by simp) (hStep (by simp) (hStep (by simp) ?_))
  rw [pieces_word hWord (inWord_cons (by decide) (by decide) _)]
  refine List.forall_mem_append.2 ⟨?_, hStep (by simp) (hRest _)⟩
  exact List.forall_mem_map.2 fun c _ => by simp [Piece.IsText]

theorem isText_pieces_mark (hStart : ¬ text.head?.any isIdentStart)
    (h : ∀ piece ∈ pieces ('@' :: before) text, piece.IsText) :
    ∀ piece ∈ pieces before ('@' :: text), piece.IsText := by
  rw [pieces_of_mark hStart]
  refine List.forall_mem_cons.2 ⟨?_, h⟩
  rw [Piece.mark]
  split <;> simp [Piece.IsText]

/-- No name begins behind a mark after the references that follow have been replaced. -/
theorem not_isIdentStart_substitute {parts : List Piece}
    (h : ¬ (parts.flatMap Piece.source).head?.any isIdentStart) :
    ¬ (substitute attributeText parts).head?.any isIdentStart := by
  intro hStart
  obtain ⟨c, hc, hStart⟩ := (Option.any_eq_true ..).1 hStart
  rcases head?_substitute c hc with hHead | ⟨rfl, -⟩
  · exact h ((Option.any_eq_true ..).2 ⟨c, hHead, hStart⟩)
  · exact absurd hStart (by decide)

/-- After variables have taken the place of all references, none is left, provided that what comes
before ends alike. -/
theorem isText_pieces_substitute (h : Joined before before' text) :
    ∀ piece ∈ pieces before' (substitute attributeText (pieces before text)), piece.IsText := by
  -- after every part of the code, what comes before ends alike again
  fun_induction pieces before text generalizing before' with
  | case1 => simp [substitute, pieces]
  | case2 before c rest kind hLiteral =>
    rw [← h.literalLength_eq] at hLiteral
    rw [show substitute attributeText [.plain (c :: rest)] = c :: rest by
      simp [substitute, Piece.source], pieces_of_error hLiteral]
    simp [Piece.IsText]
  | case3 before c rest length hLiteral ih =>
    have hFollow : MayFollow (substitute attributeText
        (pieces (((c :: rest).take length).reverse ++ before) ((c :: rest).drop length)))
        ((c :: rest).drop length) := by
      intro d hd hLine
      rcases head?_substitute d hd with hHead | ⟨-, hHead⟩
      · rw [flatMap_source_pieces] at hHead
        exact ⟨d, hHead, hLine⟩
      · rw [flatMap_source_pieces] at hHead
        exact ⟨'@', hHead, by decide⟩
    have hAlike : EndAlike (((c :: rest).take length).reverse ++ before)
        (((c :: rest).take length).reverse ++ before') := by
      obtain ⟨more, rfl⟩ := Nat.exists_eq_succ_of_ne_zero
        (Nat.ne_of_gt (literalLength_pos hLiteral))
      simpa using h.append (rest.take more).reverse
    rw [← h.literalLength_eq] at hLiteral
    have hSame := literalLength_take_append hLiteral hFollow
    have hTake : ((c :: rest).take length).length = length :=
      List.length_take_of_le (length_le_of_literalLength hLiteral)
    rw [show substitute attributeText (.plain ((c :: rest).take length) :: _) =
      (c :: rest).take length ++ substitute attributeText _ from rfl, pieces_of_literal hSame,
      List.take_left' hTake, List.drop_left' hTake]
    exact List.forall_mem_cons.2 ⟨by simp [Piece.IsText], ih (.inl hAlike)⟩
  | case4 before rest hStart hLiteral ih =>
    have hName : ∀ c ∈ rest.takeWhile isIdentChar, isIdentChar c := fun c hc =>
      List.mem_takeWhile_imp hc
    refine isText_pieces_attributeText hName (fun before => ih (.inr fun c hc => ?_)) before'
    -- the name goes on as far as possible
    have hHead := List.head?_dropWhile_not isIdentChar rest
    rw [Option.mem_def.1 hc] at hHead
    simpa using hHead
  | case5 before rest hStart hPattern hLiteral ih | case6 before rest hStart hPattern hLiteral ih =>
    refine isText_pieces_mark ?_ (ih (.inl ?_))
    · refine not_isIdentStart_substitute ?_
      rwa [flatMap_source_pieces]
    · exact h.append []
  | case7 before c rest hLiteral hMark ih =>
    rw [← h.literalLength_eq] at hLiteral
    refine isText_pieces_cons (literalLength_substitute ?_) hMark (ih (.inl ?_))
    · rwa [flatMap_source_pieces]
    · exact h.append []

/-- No reference is left in code in which variables have taken the place of references. -/
theorem references_boundText (fragment : Fragment) (span : Span) :
    references ⟨String.ofList fragment.boundText, span⟩ = [] := by
  have hText : ∀ piece ∈ pieces [] fragment.boundText, piece.IsText :=
    isText_pieces_substitute (.inl (.refl []))
  rw [references_eq]
  refine List.filterMap_eq_nil_iff.2 fun entry hEntry => ?_
  have hPiece : entry.1 ∈ pieces [] fragment.boundText := by
    have hMem := List.mem_map_of_mem (f := Prod.fst) hEntry
    rwa [map_fst_locatedPieces, Fragment.pieces, String.toList_ofList] at hMem
  obtain ⟨piece, place⟩ := entry
  cases piece with
  | reference name => exact absurd rfl (hText _ hPiece name)
  | plain | stray => rfl

end Variables

/-- References take bytes one after another, without common ones, which are their marks and names.
Replacing references changes no other bytes, and nothing at all if every reference is replaced by
itself. With variables in the place of references, none is left. -/
theorem Fragment.mentions_rewrite (fragment : Fragment) :
    fragment.mentions.map Mention.reference = fragment.references ∧
      (∀ mention ∈ fragment.mentions, mention.start < mention.stop ∧
        slice? fragment.text.toList mention.start mention.stop =
          some ('@' :: mention.reference.name.toList)) ∧
      (fragment.mentions.Pairwise fun a b => a.stop ≤ b.start) ∧
      (∀ replacement, fragment.rewrite replacement = some (fragment.substituted replacement)) ∧
      fragment.rewrite ('@' :: ·) = some fragment.text.toList ∧
      ∃ text, fragment.rewrite attributeText = some text ∧
        ∀ span, references ⟨String.ofList text, span⟩ = [] := by
  refine ⟨map_reference_mentions fragment, ?_, pairwise_locate 0, rewrite_eq fragment, ?_, ?_⟩
  · intro mention hMention
    have hSlice := slice?_of_mem_locate [] mention hMention
    rwa [List.nil_append, flatMap_source_locatedPieces] at hSlice
  · have hSource : fragment.substituted ('@' :: ·) = fragment.text.toList := by
      rw [← flatMap_source_pieces [] fragment.text.toList, substituted, pieces]
      congr 1
      funext piece
      cases piece <;> rfl
    rw [rewrite_eq, hSource]
  · exact ⟨fragment.boundText, rewrite_eq fragment attributeText, references_boundText fragment⟩

end TreeGrammar
