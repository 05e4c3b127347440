import TreeGrammar.Grammar.ByteScan
import TreeGrammar.Proofs.Grammar.LiteralForms
import TreeGrammar.Proofs.Text.Slice

/-!
# Literals by bytes

The end of a literal that is computed from the bytes of a text lies behind the characters that are
measured from its place on. So no cut fails, whatever stands there, and no search for the end of a
block comment goes on for longer than there are characters.

## Main definitions

* `ByteScan.endBehind`: the offset behind some characters

## Main results

* `ByteScan.literalEnd_append`: what is found at an offset is what is measured there
-/

namespace TreeGrammar

namespace ByteScan

open Literal Text

variable {front rest : List Char} {limit : Nat}

/-! ### The ends of literals -/

/-- The offset behind some characters of a text, if their number is known. Other characters stand in
front of the text. -/
def endBehind (kind : Literal) (front rest : List Char) : Option Nat → Except Literal Nat
  | some length => .ok (byteSize front + byteSize (rest.take length))
  | none => .error kind

theorem endBehind_map {kind : Literal} (front passed rest : List Char) (length? : Option Nat) :
    endBehind kind front (passed ++ rest) (length?.map (· + passed.length)) =
      endBehind kind (front ++ passed) rest length? := by
  cases length? with
  | none => rfl
  | some length =>
    rw [Option.map_some, Nat.add_comm, endBehind, endBehind, List.take_length_add_append,
      byteSize_append, byteSize_append, Nat.add_assoc]

theorem dropBytes?_behind (front rest : List Char) (c : Char) :
    dropBytes? (front ++ c :: rest) (byteSize front + c.utf8Size) = some rest := by
  have hDrop := dropBytes?_append (front ++ [c]) rest
  rwa [List.append_assoc, byteSize_append] at hDrop

theorem stringEndFrom_eq (front rest : List Char) :
    stringEndFrom (byteSize front) rest = endBehind .string front rest (stringLength rest) := by
  fun_induction stringLength rest generalizing front with
  | case1 => rfl
  | case2 => rfl
  | case3 c rest ih =>
    have hPassed : byteSize front + 1 + c.utf8Size = byteSize (front ++ ['\\', c]) := by
      rw [byteSize_append, Nat.add_assoc]
      rfl
    rw [stringEndFrom, hPassed, ih]
    exact (endBehind_map front ['\\', c] rest _).symm
  | case4 c rest hQuote hBackslash ih =>
    have hPassed : byteSize front + c.utf8Size = byteSize (front ++ [c]) := by
      rw [byteSize_append]
      rfl
    rw [stringEndFrom, hPassed, ih]
    · exact (endBehind_map front [c] rest _).symm
    · exact hQuote
    · exact hBackslash

theorem stringEnd_append (front rest : List Char) :
    stringEnd (front ++ '"' :: rest) (byteSize front + 1) =
      some (endBehind .string (front ++ ['"']) rest (stringLength rest)) := by
  have hDrop : dropBytes? (front ++ '"' :: rest) (byteSize front + 1) = some rest :=
    dropBytes?_behind front rest '"'
  have hSize : byteSize front + 1 = byteSize (front ++ ['"']) := by
    rw [byteSize_append]
    rfl
  rw [stringEnd, hDrop, hSize, Option.map_some, stringEndFrom_eq]

theorem findBytes?_lineFeed (text : List Char) :
    (findBytes? ['\n'] text).getD (byteSize text) = byteSize (text.take (lineLength text)) := by
  induction text with
  | nil => rfl
  | cons c text ih =>
    by_cases hc : c = '\n'
    · subst hc
      simp [findBytes?, lineLength]
    · have hLine : lineLength (c :: text) = lineLength text + 1 := by simp [lineLength, hc]
      have hFind : findBytes? ['\n'] (c :: text) =
          (findBytes? ['\n'] text).map (c.utf8Size + ·) := by
        simp [findBytes?, Ne.symm hc]
      rw [hLine, hFind, List.take_succ_cons, byteSize_cons, byteSize_cons, ← ih]
      cases findBytes? ['\n'] text with
      | none => rfl
      | some offset => rfl

/-- A search that goes on behind a character finds the same place, one character further on. -/
theorem map_findBytes?_cons {pattern : List Char} {c : Char} {closing : Nat} {length? : Option Nat}
    (hNotHere : ¬ pattern.isPrefixOf (c :: rest))
    (h : (findBytes? pattern rest).map (· + closing) =
      length?.map fun length => byteSize (rest.take length)) :
    (findBytes? pattern (c :: rest)).map (· + closing) =
      (length?.map (· + 1)).map fun length => byteSize ((c :: rest).take length) := by
  rw [findBytes?, if_neg hNotHere]
  calc ((findBytes? pattern rest).map (c.utf8Size + ·)).map (· + closing)
      = ((findBytes? pattern rest).map (· + closing)).map (c.utf8Size + ·) := by
        simp [Function.comp_def, Nat.add_assoc]
    _ = (length?.map (· + 1)).map fun length => byteSize ((c :: rest).take length) := by
        rw [h]
        simp [Function.comp_def]

theorem findBytes?_quote (text : List Char) :
    (findBytes? ['\''] text).map (· + 1) =
      (quoteLength text).map fun length => byteSize (text.take length) := by
  fun_induction quoteLength text with
  | case1 => rfl
  | case2 => rfl
  | case3 c rest hQuote ih => exact map_findBytes?_cons (by simpa using Ne.symm hQuote) ih

theorem findBytes?_rawClosing (hashes : Nat) (text : List Char) :
    (findBytes? (rawClosing hashes) text).map (· + byteSize (rawClosing hashes)) =
      (rawStringLength hashes text).map fun length => byteSize (text.take length) := by
  fun_induction rawStringLength hashes text with
  | case1 => rfl
  | case2 c rest hEnd =>
    obtain ⟨after, hAfter⟩ := rawClosing_prefix_iff.2 hEnd
    have hLength : hashes + 1 = (rawClosing hashes).length := by simp [rawClosing]
    have hHere : (rawClosing hashes).isPrefixOf (c :: rest) :=
      List.isPrefixOf_iff_prefix.2 ⟨after, hAfter⟩
    rw [findBytes?, if_pos hHere, ← hAfter, hLength]
    simp
  | case3 c rest hEnd ih =>
    refine map_findBytes?_cons (fun hHere => ?_) ih
    exact hEnd (rawClosing_prefix_iff.1 (List.isPrefixOf_iff_prefix.1 hHere))

/-- What is measured up to the end of a closing is what has been searched for. -/
theorem endBehind_of_findBytes? (kind : Literal) (front : List Char)
    {found? length? : Option Nat} {closing : Nat}
    (h : found?.map (· + closing) = length?.map fun length => byteSize (rest.take length)) :
    endBehind kind front rest length? =
      found?.elim (.error kind) fun stop => .ok (byteSize front + stop + closing) := by
  cases length? with
  | none =>
    obtain rfl : found? = none := by simpa using h
    rfl
  | some length =>
    obtain ⟨stop, rfl, hStop⟩ : ∃ stop, found? = some stop ∧ stop + closing = _ := by simpa using h
    rw [Option.elim_some, endBehind, ← hStop, Nat.add_assoc]

/-! ### Block comments -/

section Comments

variable {depth : Int}

theorem blockCommentRound_append (hRest : rest ≠ []) :
    blockCommentRound (front ++ rest) (byteSize front, depth) =
      some (blockCommentStep (byteSize front) depth rest) := by
  have hInside : byteSize front < byteSize (front ++ rest) := by
    rw [byteSize_append]
    exact Nat.lt_add_of_pos_right (byteSize_pos hRest)
  rw [blockCommentRound, if_pos hInside, dropBytes?_append, Option.map_some]

theorem blockCommentRound_end (text : List Char) :
    blockCommentRound text (byteSize text, depth) = some (.inr (.error .blockComment)) := by
  rw [blockCommentRound, if_neg (Nat.lt_irrefl _)]

/-- A step past some characters of the text. -/
theorem rounds_of_step {passed : List Char} {next : Int} (hPassed : passed ≠ [])
    (h : blockCommentStep (byteSize front) depth (passed ++ rest) =
      .inl (byteSize front + byteSize passed, next)) (hLimit : 0 < limit) :
    rounds none (blockCommentRound (front ++ (passed ++ rest))) limit (byteSize front, depth) =
      rounds none (blockCommentRound (front ++ passed ++ rest)) (limit - 1)
        (byteSize (front ++ passed), next) := by
  have hRound : blockCommentRound (front ++ (passed ++ rest)) (byteSize front, depth) = _ :=
    blockCommentRound_append (by simp [hPassed])
  rw [rounds_of_next (hRound.trans (congrArg some h)) hLimit, byteSize_append, List.append_assoc]

end Comments

/-- The search for the end of a block comment while `depth` comments are open. -/
theorem rounds_blockComment {depth : Nat} (hDepth : 0 < depth) (h : rest.length < limit) :
    rounds none (blockCommentRound (front ++ rest)) limit (byteSize front, (depth : Int)) =
      some (endBehind .blockComment front rest (blockCommentLength depth rest)) := by
  have hLimit : 0 < limit := Nat.zero_lt_of_lt h
  fun_induction blockCommentLength depth rest generalizing front limit with
  | case1 =>
    rw [List.append_nil]
    exact rounds_of_result (blockCommentRound_end front) hLimit
  | case2 depth rest ih =>
    simp only [List.length_cons] at h
    have hStep : blockCommentStep (byteSize front) depth (['/', '*'] ++ rest) =
      .inl (byteSize front + byteSize ['/', '*'], ((depth + 1 : Nat) : Int)) := rfl
    have hRounds := rounds_of_step (List.cons_ne_nil _ _) hStep hLimit
    exact hRounds.trans ((ih (Nat.succ_pos _) (by omega) (by omega)).trans
      (congrArg some (endBehind_map front ['/', '*'] rest _).symm))
  | case3 depth rest hLast =>
    have hStep : blockCommentStep (byteSize front) depth ('*' :: '/' :: rest) =
        .inr (.ok (byteSize front + 2)) := if_pos (by omega)
    have hRound := (blockCommentRound_append (List.cons_ne_nil _ _)).trans (congrArg some hStep)
    exact rounds_of_result hRound hLimit
  | case4 depth rest hInner ih =>
    simp only [List.length_cons] at h
    -- a comment is open around this one, so the depth stays above zero
    have hOuter : ((depth - 1 : Nat) : Int) = depth - 1 := by omega
    have hStep : blockCommentStep (byteSize front) depth (['*', '/'] ++ rest) =
        .inl (byteSize front + byteSize ['*', '/'], ((depth - 1 : Nat) : Int)) := by
      rw [hOuter]
      exact if_neg (by omega)
    have hRounds := rounds_of_step (List.cons_ne_nil _ _) hStep hLimit
    exact hRounds.trans ((ih (by omega) (by omega) (by omega)).trans
      (congrArg some (endBehind_map front ['*', '/'] rest _).symm))
  | case5 depth c rest hOpening hClosing ih =>
    simp only [List.length_cons] at h
    have hStep : blockCommentStep (byteSize front) depth ([c] ++ rest) =
        .inl (byteSize front + byteSize [c], depth) := by
      rw [List.singleton_append, blockCommentStep]
      · rfl
      · simpa using hOpening
      · simpa using hClosing
    have hRounds := rounds_of_step (List.cons_ne_nil _ _) hStep hLimit
    exact hRounds.trans ((ih hDepth (by omega) (by omega)).trans
      (congrArg some (endBehind_map front [c] rest _).symm))

theorem blockCommentEnd_append (front : List Char) (h : rest.length + 1 < limit) :
    blockCommentEnd limit (front ++ (['/', '*'] ++ rest)) (byteSize front) =
      some (endBehind .blockComment (front ++ ['/', '*']) rest (blockCommentLength 1 rest)) := by
  have hStep : blockCommentStep (byteSize front) 0 (['/', '*'] ++ rest) =
    .inl (byteSize front + byteSize ['/', '*'], ((1 : Nat) : Int)) := rfl
  rw [blockCommentEnd, rounds_of_step (List.cons_ne_nil _ _) hStep (by omega)]
  exact rounds_blockComment Nat.one_pos (by omega)

/-! ### Raw strings -/

theorem dropWhile_hashes (text : List Char) :
    text.dropWhile (· = '#') = text.drop (hashCount text) := by
  calc text.dropWhile (· = '#')
      = (text.takeWhile (· = '#') ++ text.dropWhile (· = '#')).drop (hashCount text) :=
        List.drop_left.symm
    _ = text.drop (hashCount text) := by rw [List.takeWhile_append_dropWhile]

theorem startsRawString_append (front rest : List Char) :
    startsRawString (front ++ 'r' :: rest) (byteSize front) =
      some (Literal.startsRawString front.reverse rest) := by
  have hAfter : dropBytes? (front ++ 'r' :: rest) (byteSize front + 1) = some rest :=
    dropBytes?_behind front rest 'r'
  simp only [startsRawString, takeBytes?_append, hAfter, Option.bind_eq_bind, Option.bind_some,
    Literal.startsRawString, dropWhile_hashes]
  generalize (if front.reverse.head? = some 'b' then front.reverse.tail else front.reverse) = word
  cases word.head?.any isIdentChar <;> rfl

theorem byteSize_replicate_hash (hashes : Nat) : byteSize (List.replicate hashes '#') = hashes := by
  induction hashes with
  | zero => rfl
  | succ hashes ih =>
    rw [List.replicate_succ, byteSize_cons, ih, Nat.add_comm]
    rfl

theorem rawStringEnd_append (front body : List Char) (hashes : Nat) :
    rawStringEnd (front ++ ('r' :: (List.replicate hashes '#' ++ ['"']) ++ body)) (byteSize front) =
      some (endBehind .rawString (front ++ 'r' :: (List.replicate hashes '#' ++ ['"'])) body
        (rawStringLength hashes body)) := by
  have hText : front ++ ('r' :: (List.replicate hashes '#' ++ ['"']) ++ body) =
      front ++ 'r' :: (List.replicate hashes '#' ++ '"' :: body) := by
    simp
  have hAfter : dropBytes? (front ++ 'r' :: (List.replicate hashes '#' ++ '"' :: body))
      (byteSize front + 1) = some (List.replicate hashes '#' ++ '"' :: body) :=
    dropBytes?_behind front _ 'r'
  have hSize : byteSize (front ++ 'r' :: (List.replicate hashes '#' ++ ['"'])) =
      byteSize front + 1 + hashes + 1 := by
    rw [byteSize_append, byteSize_cons, byteSize_append, byteSize_replicate_hash]
    exact (Nat.add_assoc _ _ _).symm.trans (Nat.add_assoc _ _ _).symm
  have hBody : dropBytes? (front ++ 'r' :: (List.replicate hashes '#' ++ '"' :: body))
      (byteSize front + 1 + hashes + 1) = some body := by
    have hDrop := dropBytes?_append (front ++ 'r' :: (List.replicate hashes '#' ++ ['"'])) body
    rwa [hSize, List.append_assoc, hText] at hDrop
  rw [endBehind_of_findBytes? _ _ (findBytes?_rawClosing hashes body), hSize, hText, rawStringEnd,
    hAfter]
  simp only [Option.bind_eq_bind, Option.bind_some, hashCount_replicate, hBody]
  show _ = some ((findBytes? ('"' :: List.replicate hashes '#') body).elim _ _)
  cases findBytes? ('"' :: List.replicate hashes '#') body with
  | none => rfl
  | some stop => rfl

/-! ### Lines and characters -/

theorem lineEnd_append (front rest : List Char) :
    (findBytes? ['\n'] ('/' :: '/' :: rest)).elim (byteSize (front ++ '/' :: '/' :: rest))
        (byteSize front + ·) =
      byteSize front + byteSize (('/' :: '/' :: rest).take (2 + lineLength rest)) := by
  have hFind := findBytes?_lineFeed ('/' :: '/' :: rest)
  have hLine : lineLength ('/' :: '/' :: rest) = 2 + lineLength rest := by
    simp [lineLength, Nat.add_comm 2]
  rw [← hLine, ← hFind, byteSize_append]
  cases findBytes? ['\n'] ('/' :: '/' :: rest) with
  | none => rfl
  | some stop => rfl

theorem characterEnd_append (front rest : List Char) (c : Char) :
    (findBytes? ['\''] rest).elim (.error .character) (fun stop =>
        .ok (byteSize (front ++ ['\'', '\\']) + c.utf8Size + stop + 1)) =
      endBehind .character (front ++ ['\'', '\\', c]) rest (quoteLength rest) := by
  have hBody : byteSize (front ++ ['\'', '\\', c]) =
      byteSize (front ++ ['\'', '\\']) + c.utf8Size := by
    simp [Nat.add_assoc]
  rw [endBehind_of_findBytes? .character _ (findBytes?_quote rest), hBody]

/-! ### All literals -/

/-- A literal that is measured from behind its opening on. -/
theorem map_some_endBehind (kind : Literal) (front opening rest : List Char)
    (length? : Option Nat) :
    (endBehind kind (front ++ opening) rest length?).map some =
      (match length? with
        | some length => Except.ok (some (opening.length + length))
        | none => .error kind).map
        (Option.map fun length => byteSize front + byteSize ((opening ++ rest).take length)) := by
  cases length? with
  | none => rfl
  | some length =>
    simp [endBehind, List.take_length_add_append, Nat.add_assoc, Except.map]

/-- What is found at an offset is what is measured in the text from there on. -/
theorem literalEnd_append (h : (front ++ rest).length < limit) :
    literalEnd limit (front ++ rest) (byteSize front) =
      some ((literalLength front.reverse rest).map
        (Option.map fun length => byteSize front + byteSize (rest.take length))) := by
  rw [literalEnd, dropBytes?_append]
  simp only [Option.bind_eq_bind, Option.bind_some]
  -- one case for each way in which a literal begins
  split
  · next rest =>
    rw [lineEnd_append]
    rfl
  · next rest =>
    rw [List.length_append, List.length_cons, List.length_cons] at h
    have hShorter : rest.length + 1 < limit := by omega
    have hEnd := blockCommentEnd_append front hShorter
    have hMap := map_some_endBehind .blockComment front ['/', '*'] rest
      (blockCommentLength 1 rest)
    rw [List.cons_append, List.singleton_append] at hEnd
    rw [hEnd]
    exact congrArg some hMap
  · next rest =>
    have hMap := map_some_endBehind .string front ['"'] rest (stringLength rest)
    rw [stringEnd_append]
    exact congrArg some hMap
  · next rest =>
    rw [startsRawString_append]
    cases hStart : Literal.startsRawString front.reverse rest with
    | false => simp [literalLength, hStart, Except.map]
    | true =>
      obtain ⟨hWord, hashes, body, rfl⟩ := startsRawString_iff.1 hStart
      have hText : 'r' :: (List.replicate hashes '#' ++ '"' :: body) =
          'r' :: (List.replicate hashes '#' ++ ['"']) ++ body := by
        simp
      have hLength : ('r' :: (List.replicate hashes '#' ++ ['"'])).length = 2 + hashes := by
        simp [Nat.add_comm 2]
      have hMap := map_some_endBehind .rawString front
        ('r' :: (List.replicate hashes '#' ++ ['"'])) body (rawStringLength hashes body)
      rw [hLength] at hMap
      rw [Option.bind_some, if_pos rfl, literalLength_raw hWord, hText, rawStringEnd_append]
      exact congrArg some hMap
  · next rest =>
    have hSize : byteSize front + 2 = byteSize (front ++ ['\'', '\\']) := by
      rw [byteSize_append]
      rfl
    have hText : front ++ '\'' :: '\\' :: rest = front ++ ['\'', '\\'] ++ rest := by simp
    rw [hText, hSize, dropBytes?_append]
    cases rest with
    | nil =>
      simp only [Option.bind_some]
      rw [List.head?_nil, Option.elim_none, Nat.add_zero, dropBytes?_append]
      rfl
    | cons c rest =>
      have hDrop := dropBytes?_behind (front ++ ['\'', '\\']) rest c
      have hMap := map_some_endBehind .character front ['\'', '\\', c] rest (quoteLength rest)
      rw [← characterEnd_append] at hMap
      rw [Option.bind_some, List.head?_cons, Option.elim_some, hDrop, Option.bind_some]
      refine Eq.trans ?_ (congrArg some hMap)
      cases findBytes? ['\''] rest with
      | none => rfl
      | some stop => rfl
  · next c rest hChar =>
    rw [literalLength]
    · have hSize : byteSize front + 1 + c.utf8Size + 1 =
          byteSize front + byteSize ['\'', c, '\''] := by
        rw [Nat.add_assoc, Nat.add_assoc]
        rfl
      rw [hSize]
      rfl
    · exact hChar
  · next hLine hComment hString hRaw hEscaped hChar =>
    rw [literalLength]
    · rfl
    all_goals assumption

end ByteScan
end TreeGrammar
