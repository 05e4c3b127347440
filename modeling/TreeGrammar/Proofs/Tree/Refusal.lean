import TreeGrammar.Proofs.Tree.Written

/-!
# Texts that are no trees

A text that the grammar does not derive is refused at the first character that cannot go on, or at
its end. What has been read until then is a beginning of a tree: white space, some lists that are
still open, or a whole tree. The errors are told apart by this beginning and by the character after
it.

## Main definitions

* `Tree.Opens`: texts of lists that are still open
* `Tree.Refuses`: the texts for which there is an error, with the error
* `Tree.IsViable`: the beginnings of texts of trees
* `Tree.SyntaxError.IsLeftmost`: an error stands at the first character that cannot go on

## Main results

* `Tree.readChars_outcome`: every text is the text of a tree or refused
* `Tree.read_eq_iff`: the reader accepts what the grammar derives, and refuses all else at the
  leftmost failure
-/

namespace TreeGrammar.Tree

open Text
open ReaderState (Expects Consumes)

/-! ### Beginnings of texts -/

/-- A text of lists that are still open, the innermost first, each with its items so far. Without
any list it is white space. -/
inductive Opens : List Char → List OpenList → Prop where
  | nil {blanks : List Char} (hBlanks : IsBlankText blanks) : Opens blanks []
  | cons {before blanks label body : List Char} {items : List Item} {outer : List OpenList}
      (hBefore : Opens before outer) (hBlanks : IsBlankText blanks) (hLabel : IsAtom label)
      (hDelimits : Delimits body) (hBody : IsItems body items) :
      Opens (before ++ '(' :: (blanks ++ (label ++ body))) (⟨label, items.reverse⟩ :: outer)

/-- The texts for which there is an error. Offsets count the bytes in front of a character. -/
inductive Refuses : List Char → SyntaxError → Prop where
  /-- The text ends before any item, or among the items of a list. -/
  | endOfItems {text : List Char} {outer : List OpenList} (h : Opens text outer) :
      Refuses text .unexpectedEnd
  /-- The text ends in front of the label of a list. -/
  | endOfList {before blanks : List Char} {outer : List OpenList} (h : Opens before outer)
      (hBlanks : IsBlankText blanks) : Refuses (before ++ '(' :: blanks) .unexpectedEnd
  /-- A closing parenthesis stands before any item. -/
  | unexpectedClose {before : List Char} (h : IsBlankText before) (after : List Char) :
      Refuses (before ++ ')' :: after) (.unexpectedClose (byteSize before))
  /-- A parenthesis or a quote stands in the place of a label. -/
  | missingLabel {before blanks : List Char} {outer : List OpenList} {c : Char}
      (h : Opens before outer) (hBlanks : IsBlankText blanks) (hc : c = '(' ∨ c = ')' ∨ c = '"')
      (after : List Char) :
      Refuses ((before ++ '(' :: blanks) ++ c :: after)
        (.missingLabel (byteSize (before ++ '(' :: blanks)))
  /-- A string stands in the place of an item, and no quote closes it. -/
  | unterminatedString {before after : List Char} {outer : List OpenList} (h : Opens before outer)
      (hAfter : ∀ body text rest, IsQuoted body text → after ≠ body ++ '"' :: rest) :
      Refuses (before ++ '"' :: after) (.unterminatedString (byteSize before))
  /-- A character stands behind a whole tree and does not belong to it. -/
  | trailingInput {before : List Char} {tree : Tree} {c : Char} (h : IsTree before tree)
      (hc : ∀ other, ¬ IsTree (before ++ [c]) other) (after : List Char) :
      Refuses (before ++ c :: after) (.trailingInput (byteSize before))

/-- Some text after this one makes it the text of a tree. -/
def IsViable (text : List Char) : Prop := ∃ more tree, IsTree (text ++ more) tree

/-- An error stands at the first character with which a text is no beginning of a tree any more. If
the text only ends too early, there is no such character. -/
def SyntaxError.IsLeftmost (text : List Char) : SyntaxError → Prop
  | unexpectedEnd | unterminatedString _ => IsViable text
  | unexpectedClose offset | missingLabel offset | trailingInput offset =>
    ∃ before c after, text = before ++ c :: after ∧ byteSize before = offset ∧
      IsViable before ∧ ¬ IsViable (before ++ [c])

/-! ### One more item -/

theorem IsItem.ne_nil {text : List Char} {item : Item} (h : IsItem text item) : text ≠ [] := by
  cases h with
  | atom hAtom => exact hAtom.1
  | string | list => exact List.cons_ne_nil _ _

/-- Only atoms end with a character of an atom. -/
theorem IsItem.exists_atom {text : List Char} {item : Item} (h : IsItem text item) {c : Char}
    (hLast : text.getLast? = some c) (hc : isAtomChar c) : IsAtom text ∧ item = .atom text := by
  cases h with
  | atom hAtom => exact ⟨hAtom, rfl⟩
  | @string body text hBody =>
    rw [← List.cons_append, List.getLast?_concat] at hLast
    obtain rfl := Option.some.inj hLast
    exact absurd hc (by decide)
  | @list blanks label body items tree hBlanks hLabel hDelimits hBody hTree =>
    have hSplit : '(' :: (blanks ++ (label ++ (body ++ [')']))) =
        ('(' :: (blanks ++ (label ++ body))) ++ [')'] := by simp
    rw [hSplit, List.getLast?_concat] at hLast
    obtain rfl := Option.some.inj hLast
    exact absurd hc (by decide)

theorem IsItems.append_blanks {body blanks : List Char} {items : List Item}
    (h : IsItems body items) (hBlanks : IsBlankText blanks) : IsItems (body ++ blanks) items := by
  cases h with
  | nil hBody => exact .nil (isBlankText_append.2 ⟨hBody, hBlanks⟩)
  | cons hBefore hItem hAtom hBody =>
    have hLater := hBody.append_blanks hBlanks
    rw [List.append_assoc, List.append_assoc]
    exact .cons hBefore hItem (fun atom hEq => (hAtom atom hEq).append hBlanks.delimits) hLater

/-- An item may be added to others if it does not prolong the last one. -/
theorem IsItems.concat {body text : List Char} {items : List Item} {item : Item}
    (h : IsItems body items) (hItem : IsItem text item) (hApart : Apart body text) :
    IsItems (body ++ text) (items ++ [item]) := by
  match h with
  | .nil hBlanks =>
    have hOnly := IsItems.cons hBlanks hItem (fun _ _ => delimits_nil) (.nil isBlankText_nil)
    rwa [List.append_nil] at hOnly
  | @IsItems.cons blanks first body other items hBlanks hFirst hAtom hBody =>
    have hRest : Apart body text := by
      intro c hc
      refine hApart c ?_
      rw [← List.append_assoc, List.getLast?_append, hc]
      rfl
    -- if nothing stands between the last two items, then the last one is no atom after an atom
    have hDelimits : ∀ atom, other = .atom atom → Delimits (body ++ text) := by
      rintro atom rfl
      by_cases hEnd : body = []
      · subst hEnd
        cases hFirst with
        | atom hFirst =>
          rw [List.append_nil] at hApart
          exact hFirst.delimits_of_apart (hApart.of_append hFirst.1)
      · obtain ⟨c, body, rfl⟩ := List.exists_cons_of_ne_nil hEnd
        exact delimits_cons (hAtom atom rfl c rfl) _
    have hLater := hBody.concat hItem hRest
    rw [List.append_assoc, List.append_assoc, List.cons_append]
    exact .cons hBlanks hFirst hDelimits hLater

theorem IsTree.append_blanks {text blanks : List Char} {tree : Tree} (h : IsTree text tree)
    (hBlanks : IsBlankText blanks) : IsTree (text ++ blanks) tree := by
  obtain ⟨hBefore, hItem, hAfter⟩ := h
  rw [List.append_assoc, List.append_assoc]
  exact .intro hBefore hItem (isBlankText_append.2 ⟨hAfter, hBlanks⟩)

namespace Opens

variable {before text blanks word : List Char} {list : OpenList} {outer : List OpenList}

theorem append_blanks (h : Opens before outer) (hBlanks : IsBlankText blanks) :
    Opens (before ++ blanks) outer := by
  cases h with
  | nil hBefore => exact .nil (isBlankText_append.2 ⟨hBefore, hBlanks⟩)
  | cons hBefore hInner hLabel hDelimits hBody =>
    have hOpens := Opens.cons hBefore hInner hLabel (hDelimits.append hBlanks.delimits)
      (hBody.append_blanks hBlanks)
    simpa using hOpens

/-- A list with its label is open. -/
theorem label (h : Opens before outer) (hBlanks : IsBlankText blanks) (hWord : IsAtom word) :
    Opens ((before ++ '(' :: blanks) ++ word) (⟨word, []⟩ :: outer) := by
  have hOpens := Opens.cons h hBlanks hWord delimits_nil (.nil isBlankText_nil)
  simpa using hOpens

/-- An item may be added to those of the innermost list if it does not prolong what is there. -/
theorem push {item : Item} (h : Opens before (list :: outer)) (hItem : IsItem text item)
    (hApart : Apart before text) : Opens (before ++ text) (list.push item :: outer) := by
  cases h with
  | @cons start blanks label body items _ hBefore hBlanks hLabel hDelimits hBody =>
    have hAfterLabel : Apart (label ++ body) text := by
      have hSplit : start ++ '(' :: (blanks ++ (label ++ body)) =
          (start ++ '(' :: blanks) ++ (label ++ body) := by simp
      exact (hSplit ▸ hApart).of_append (List.append_ne_nil_of_left_ne_nil hLabel.1 body)
    have hRest : Apart body text := by
      by_cases hEnd : body = []
      · subst hEnd
        exact nofun
      · exact hAfterLabel.of_append hEnd
    -- what comes right after the label may not prolong it
    have hBoth : Delimits (body ++ text) := by
      by_cases hEnd : body = []
      · subst hEnd
        rw [List.append_nil] at hAfterLabel
        exact hLabel.delimits_of_apart hAfterLabel
      · obtain ⟨c, body, rfl⟩ := List.exists_cons_of_ne_nil hEnd
        exact delimits_cons (hDelimits c rfl) _
    have hOpens := Opens.cons hBefore hBlanks hLabel hBoth (hBody.concat hItem hRest)
    simpa [OpenList.push] using hOpens

/-- A text of open lists takes the reader to a state in which an item is expected. -/
theorem consumes (h : Opens before outer) :
    ∃ state : ReaderState, state.Expects outer ∧
      ∀ rest, Delimits rest → ReaderState.root.Consumes before rest state := by
  induction h with
  | nil hBlanks => exact ⟨.root, .root, fun rest _ => .blanks hBlanks .root rest⟩
  | @cons before blanks label body items outer _ hBlanks hLabel hDelimits hBody ih =>
    obtain ⟨state, hState, hRun⟩ := ih
    refine ⟨.items ⟨label, items.reverse⟩ outer, .items, fun rest hRest => ?_⟩
    have hItems := hBody.consumes ⟨label, []⟩ outer hRest
    rw [List.append_nil] at hItems
    have hOpening : Delimits ('(' :: (blanks ++ (label ++ body)) ++ rest) :=
      delimits_cons (by decide) _
    -- the parenthesis, the label and the items so far are read one after the other
    exact .append (hRun _ hOpening) <| .opening hState.step_opening <|
      .append (.blanks hBlanks (.label outer) _) <|
        .append (.atom hLabel (hDelimits.append hRest) fun _ => rfl) hItems

end Opens

/-! ### States that are reached -/

/-- The state of the reader after the beginning of a text. -/
inductive Reached : List Char → ReaderState → Prop where
  | expects {before : List Char} {outer : List OpenList} {state : ReaderState}
      (h : Opens before outer) (hState : state.Expects outer) : Reached before state
  | label {before blanks : List Char} {outer : List OpenList} (h : Opens before outer)
      (hBlanks : IsBlankText blanks) : Reached (before ++ '(' :: blanks) (.label outer)
  | done {before : List Char} {tree : Tree} (h : IsTree before tree) : Reached before (.done tree)

namespace Reached

variable {before text blanks : List Char} {state : ReaderState} {list : OpenList}
  {outer : List OpenList} {tree : Tree}

theorem opens (h : Reached before (.items list outer)) : Opens before (list :: outer) := by
  cases h with
  | expects hOpens hState =>
    cases hState
    exact hOpens

theorem isTree (h : Reached before (.done tree)) : IsTree before tree := by
  cases h with
  | expects _ hState => cases hState
  | done hTree => exact hTree

theorem append_blanks (h : Reached before state) (hBlanks : IsBlankText blanks) :
    Reached (before ++ blanks) state := by
  cases h with
  | expects hOpens hState => exact .expects (hOpens.append_blanks hBlanks) hState
  | label hOpens hInner =>
    rw [List.append_assoc]
    exact .label hOpens (isBlankText_append.2 ⟨hInner, hBlanks⟩)
  | done hTree => exact .done (hTree.append_blanks hBlanks)

/-- An item where one is expected. -/
theorem receive {item : Item} (h : Opens before outer) (hState : state.Expects outer)
    (hItem : IsItem text item) (hApart : Apart before text) :
    Reached (before ++ text) (state.receive item) := by
  cases hState with
  | root =>
    cases h with
    | nil hBlanks =>
      have hTree := IsTree.intro hBlanks hItem isBlankText_nil
      rw [List.append_nil] at hTree
      exact .done hTree
  | items => exact .expects (h.push hItem hApart) .items

/-- A closing parenthesis ends the innermost list. -/
theorem close (h : Opens before (list :: outer)) :
    Reached (before ++ [')']) (.close list outer) := by
  cases h with
  | @cons start blanks label body items _ hBefore hBlanks hLabel hDelimits hBody =>
    obtain ⟨state, hState, -⟩ := hBefore.consumes
    have hItem := IsItem.list hBlanks hLabel hDelimits hBody (denotes_toTree label items)
    rw [hState.close_eq]
    have hReached := receive hBefore hState hItem
      (apart_of_delimits (delimits_cons (by decide) _) start)
    simpa using hReached

end Reached

/-! ### Beginnings that can go on -/

theorem IsViable.of_append {text more : List Char} (h : IsViable (text ++ more)) :
    IsViable text := by
  obtain ⟨rest, tree, hTree⟩ := h
  exact ⟨more ++ rest, tree, List.append_assoc text more rest ▸ hTree⟩

/-- Lists that are open can be closed. -/
theorem Opens.isViable {before : List Char} {list : OpenList} {outer : List OpenList}
    (h : Opens before (list :: outer)) : IsViable before := by
  induction outer generalizing before list with
  -- without the innermost list, there is one open list less
  | nil => exact ⟨_, _, (Reached.close h).isTree⟩
  | cons parent outer ih => exact (ih (Reached.close h).opens).of_append

theorem isAtom_letter : IsAtom ['A'] := by decide

/-- What has been read can go on. -/
theorem Reached.isViable {before : List Char} {state : ReaderState} (h : Reached before state) :
    IsViable before := by
  cases h with
  | expects hOpens hState =>
    cases hOpens with
    | nil hBlanks =>
      exact ⟨['A'] ++ [], _, .intro hBlanks (.atom isAtom_letter) isBlankText_nil⟩
    | cons hBefore hBlanks hLabel hDelimits hBody =>
      exact (Opens.cons hBefore hBlanks hLabel hDelimits hBody).isViable
  | label hOpens hBlanks => exact (hOpens.label hBlanks isAtom_letter).isViable.of_append
  | done hTree =>
    rw [← List.append_nil before] at hTree
    exact ⟨[], _, hTree⟩

/-- A string that no quote closes is never closed for the reader. -/
theorem splitQuoted_eq_none {after : List Char}
    (h : ∀ body text rest, IsQuoted body text → after ≠ body ++ '"' :: rest) :
    splitQuoted after = none := by
  by_contra hSome
  obtain ⟨⟨body, rest⟩, hSome⟩ := Option.ne_none_iff_exists'.1 hSome
  exact h body _ rest (isQuoted_of_splitQuoted hSome) (splitQuoted_eq hSome)

/-- A string that is left open can be closed. -/
theorem exists_isQuoted_append {after : List Char} (h : splitQuoted after = none) :
    ∃ more text, IsQuoted (after ++ more) text := by
  fun_induction splitQuoted after with
  | case1 => exact ⟨[], [], .nil⟩
  | case2 => cases h
  | case3 c rest ih =>
    obtain ⟨more, text, hText⟩ := ih (Option.map_eq_none_iff.1 h)
    exact ⟨more, _, .escaped c hText⟩
  | case4 c rest hQuote hEscape ih =>
    obtain ⟨more, text, hText⟩ := ih (Option.map_eq_none_iff.1 h)
    by_cases hBackslash : c = '\\'
    · subst hBackslash
      cases rest with
      | nil => exact ⟨['\\'], _, .escaped '\\' .nil⟩
      | cons d rest => exact absurd rfl (hEscape d rest rfl)
    · exact ⟨more, _, .plain hQuote hBackslash hText⟩

/-! ### Behind a whole tree -/

/-- A character that is no white space starts a token. -/
theorem exists_token {c : Char} (h : isBlank c = false) (offset : Nat) (rest : List Char) :
    ∃ token more, tokens offset (c :: rest) = (offset, token) :: more := by
  rw [tokens, if_neg (by simp [h])]
  split
  · exact ⟨_, _, rfl⟩
  · split
    · exact ⟨_, _, rfl⟩
    · split
      · split
        · exact ⟨_, _, rfl⟩
        · exact ⟨_, _, rfl⟩
      · exact ⟨_, _, rfl⟩

/-- Nothing but white space may stand behind a tree, unless it prolongs the last atom. -/
theorem IsTree.readChars_append {before : List Char} {tree : Tree} (h : IsTree before tree)
    {c : Char} (hBlank : isBlank c = false) {after : List Char}
    (hApart : Apart before (c :: after)) :
    Tree.readChars (before ++ c :: after) = .error (.trailingInput (byteSize before)) := by
  obtain ⟨token, more, hTokens⟩ := exists_token hBlank (byteSize before) after
  have hRun := h.consumes hApart 0
  rw [Nat.zero_add, hTokens] at hRun
  rw [Tree.readChars, hRun]
  rfl

/-- A character that prolongs the last atom of a tree belongs to it. -/
theorem IsTree.exists_concat {before : List Char} {tree : Tree} (h : IsTree before tree)
    {c d : Char} (hLast : before.getLast? = some d) (hd : isAtomChar d) (hc : isAtomChar c) :
    ∃ other, IsTree (before ++ [c]) other := by
  obtain @⟨start, text, after, item, hBefore, hItem, hAfter⟩ := h
  -- no white space stands at the end, so that the item ends with a character of an atom
  obtain rfl : after = [] := by
    by_contra hEnd
    rw [← List.append_assoc, List.getLast?_append_of_ne_nil _ hEnd] at hLast
    have hMem := List.mem_of_getLast? hLast
    exact absurd hd (hAfter.isAtomChar_eq_false hMem ▸ Bool.false_ne_true)
  rw [List.append_nil, List.getLast?_append_of_ne_nil _ hItem.ne_nil] at hLast
  obtain ⟨hAtom, -⟩ := hItem.exists_atom hLast hd
  have hLonger : IsAtom (text ++ [c]) :=
    ⟨List.append_ne_nil_of_left_ne_nil hAtom.1 _,
      List.forall_mem_append.2 ⟨hAtom.2, List.forall_mem_singleton.2 hc⟩⟩
  have hTree := IsTree.intro hBefore (.atom hLonger) isBlankText_nil
  exact ⟨_, by simpa using hTree⟩

/-! ### Texts that are refused are not read -/

/-- A character that does not belong to a tree does not prolong it. -/
theorem apart_of_not_isTree {before : List Char} {tree : Tree} (h : IsTree before tree) {c : Char}
    (hc : ∀ other, ¬ IsTree (before ++ [c]) other) (after : List Char) :
    isBlank c = false ∧ Apart before (c :: after) := by
  refine ⟨Bool.eq_false_iff.2 fun hBlank => ?_, fun d hLast hd => ?_⟩
  · exact hc tree (h.append_blanks (List.forall_mem_singleton.2 hBlank))
  · refine delimits_cons (Bool.eq_false_iff.2 fun hAtom => ?_) after
    obtain ⟨other, hOther⟩ := h.exists_concat hLast hd hAtom
    exact hc other hOther

/-- A text for which there is an error is not read, with this error. -/
theorem Refuses.readChars {text : List Char} {error : SyntaxError} (h : Refuses text error) :
    readChars text = .error error := by
  cases h with
  | endOfItems hOpens =>
    obtain ⟨state, hState, hRun⟩ := hOpens.consumes
    have hEnd := hRun [] delimits_nil 0
    rw [List.append_nil, tokens_nil] at hEnd
    rw [Tree.readChars, hEnd]
    cases hState <;> rfl
  | @endOfList before blanks outer hOpens hBlanks =>
    obtain ⟨state, hState, hRun⟩ := hOpens.consumes
    have hEnd := (hRun _ (delimits_cons (by decide) _)).append
      (.opening hState.step_opening (.blanks hBlanks (.label outer) [])) 0
    rw [List.append_nil, tokens_nil] at hEnd
    rw [Tree.readChars, hEnd]
    rfl
  | unexpectedClose hBlanks after =>
    have hRun := Consumes.blanks hBlanks .root (')' :: after) 0
    rw [Nat.zero_add, tokens_closing] at hRun
    rw [Tree.readChars, hRun]
    rfl
  | @missingLabel before blanks outer c hOpens hBlanks hc after =>
    obtain ⟨state, hState, hRun⟩ := hOpens.consumes
    have hEnd := (hRun _ (delimits_cons (by decide) _)).append
      (.opening hState.step_opening (.blanks hBlanks (.label outer) (c :: after))) 0
    rw [Nat.zero_add] at hEnd
    rw [Tree.readChars, hEnd]
    -- none of these characters starts an atom
    rcases hc with rfl | rfl | rfl
    · rw [tokens_opening]
      rfl
    · rw [tokens_closing]
      rfl
    · cases hSplit : splitQuoted after with
      | none =>
        rw [tokens_unterminated _ hSplit]
        rfl
      | some pair =>
        rw [tokens_string _ _ hSplit]
        rfl
  | @unterminatedString before after outer hOpens hAfter =>
    obtain ⟨state, hState, hRun⟩ := hOpens.consumes
    have hSplit := splitQuoted_eq_none hAfter
    have hEnd := hRun ('"' :: after) (delimits_cons (by decide) _) 0
    rw [Nat.zero_add, tokens_unterminated _ hSplit] at hEnd
    rw [Tree.readChars, hEnd]
    cases hState <;> rfl
  | trailingInput hTree hc after =>
    obtain ⟨hBlank, hApart⟩ := apart_of_not_isTree hTree hc after
    exact hTree.readChars_append hBlank hApart

/-! ### Every text is read or refused -/

/-- The text of a token. -/
inductive Token.IsSpelled : Token → List Char → Prop where
  | opening : IsSpelled .opening ['(']
  | closing : IsSpelled .closing [')']
  | atom {text : List Char} (h : IsAtom text) : IsSpelled (.atom text) text
  | quoted {body text : List Char} (h : IsQuoted body text) :
      IsSpelled (.quoted text) ('"' :: (body ++ ['"']))

/-- A token starts with a character that is no white space; if it is no atom, this character may
not start a label. -/
theorem Token.IsSpelled.exists_cons {token : Token} {text : List Char} (h : token.IsSpelled text) :
    ∃ c more, text = c :: more ∧ isBlank c = false ∧
      ((∃ atom, token = .atom atom) ∨ c = '(' ∨ c = ')' ∨ c = '"') := by
  cases h with
  | opening => exact ⟨'(', [], rfl, by decide, by simp⟩
  | closing => exact ⟨')', [], rfl, by decide, by simp⟩
  | atom hAtom =>
    obtain ⟨c, more, rfl⟩ := List.exists_cons_of_ne_nil hAtom.1
    have hc := hAtom.2 c List.mem_cons_self
    simp only [isAtomChar, Bool.and_eq_true, Bool.not_eq_true'] at hc
    exact ⟨c, more, rfl, hc.1.1.1, .inl ⟨_, rfl⟩⟩
  | quoted => exact ⟨'"', _, rfl, by decide, by simp⟩

/-- A step fits the text that has been read: it leads to the state after the token, or there is this
error for all texts that go on in this way. -/
def StepFits (before text : List Char) : Except SyntaxError ReaderState → Prop
  | .ok next => Reached (before ++ text) next
  | .error error => ∀ rest, Refuses (before ++ (text ++ rest)) error

/-- A character behind a tree that does not prolong it is trailing input. -/
theorem IsTree.refuses {before : List Char} {tree : Tree} (h : IsTree before tree) {c : Char}
    (hBlank : isBlank c = false) {more : List Char} (hApart : Apart before (c :: more))
    (after : List Char) : Refuses (before ++ c :: after) (.trailingInput (byteSize before)) := by
  refine .trailingInput h (fun other hOther => ?_) after
  have hHead : Apart before [c] := fun d hLast hd => delimits_cons (hApart d hLast hd c rfl) []
  have hRead := hOther.readChars
  rw [h.readChars_append hBlank hHead] at hRead
  cases hRead

/-- A step of the reader fits the text of its token. -/
theorem Reached.step {before text : List Char} {state : ReaderState} {token : Token}
    (h : Reached before state) (hToken : token.IsSpelled text) (hApart : Apart before text) :
    StepFits before text (state.step (byteSize before, token)) := by
  obtain ⟨c, more, hText, hBlank, hc⟩ := hToken.exists_cons
  cases h with
  | @expects _ outer _ hOpens hState =>
    cases hToken with
    | opening =>
      rw [hState.step_opening]
      exact .label hOpens isBlankText_nil
    | closing =>
      cases hState with
      | root =>
        cases hOpens with
        | nil hBlanks => exact fun rest => .unexpectedClose hBlanks rest
      | items => exact .close hOpens
    | atom hAtom =>
      rw [hState.step_atom]
      exact .receive hOpens hState (.atom hAtom) hApart
    | quoted hBody =>
      rw [hState.step_quoted]
      exact .receive hOpens hState (.string hBody) hApart
  | label hOpens hBlanks =>
    cases hToken with
    | atom hAtom => exact .expects (hOpens.label hBlanks hAtom) .items
    | opening | closing | quoted =>
      have hWrong : c = '(' ∨ c = ')' ∨ c = '"' := hc.resolve_left (by simp)
      intro rest
      rw [hText]
      exact .missingLabel hOpens hBlanks hWrong (more ++ rest)
  | done hTree =>
    intro rest
    rw [hText] at hApart ⊢
    exact hTree.refuses hBlank hApart (more ++ rest)

/-- What is said about a text fits it: it is the text of the tree, or there is this error for it. -/
def Fits (text : List Char) : Except SyntaxError Tree → Prop
  | .ok tree => IsTree text tree
  | .error error => Refuses text error

/-- At its end, a text is a tree, or it ends too early. -/
theorem Reached.finish {before : List Char} {state : ReaderState} (h : Reached before state) :
    Fits before state.finish := by
  cases h with
  | expects hOpens hState => cases hState <;> exact .endOfItems hOpens
  | label hOpens hBlanks => exact .endOfList hOpens hBlanks
  | done hTree => exact hTree

/-- A string that is never closed is refused in all states. -/
theorem Reached.step_unterminated {before after : List Char} {state : ReaderState}
    (h : Reached before state) (hSplit : splitQuoted after = none)
    (hApart : Apart before ('"' :: after)) :
    ∃ error, state.step (byteSize before, .unterminated) = .error error ∧
      Refuses (before ++ '"' :: after) error := by
  cases h with
  | @expects _ outer _ hOpens hState =>
    have hAfter : ∀ body text rest, IsQuoted body text → after ≠ body ++ '"' :: rest := by
      rintro body text rest hBody rfl
      rw [hBody.splitQuoted] at hSplit
      cases hSplit
    refine ⟨.unterminatedString (byteSize before), ?_, .unterminatedString hOpens hAfter⟩
    cases hState <;> rfl
  | label hOpens hBlanks => exact ⟨_, rfl, .missingLabel hOpens hBlanks (by simp) after⟩
  | done hTree => exact ⟨_, rfl, hTree.refuses (by decide) hApart after⟩

/-- One more token, of which what is left of the text begins with the text. -/
theorem Reached.fits_cons {before text rest : List Char} {state : ReaderState} {token : Token}
    {entries : List (Nat × Token)} (h : Reached before state) (hToken : token.IsSpelled text)
    (hApart : Apart before text)
    (hLater : ∀ next, Reached (before ++ text) next →
      Fits ((before ++ text) ++ rest)
        (entries.foldlM ReaderState.step next >>= ReaderState.finish)) :
    Fits (before ++ (text ++ rest))
      (((byteSize before, token) :: entries).foldlM ReaderState.step state >>=
        ReaderState.finish) := by
  have hStep := h.step hToken hApart
  rw [List.foldlM_cons]
  cases hNext : state.step (byteSize before, token) with
  | error error =>
    rw [hNext] at hStep
    exact hStep rest
  | ok next =>
    rw [hNext] at hStep
    rw [← List.append_assoc]
    exact hLater next hStep

/-- A reader that has reached a state ends with what fits the whole text. -/
theorem Reached.fits {before rest : List Char} {state : ReaderState} (h : Reached before state)
    (hApart : Apart before rest) :
    Fits (before ++ rest)
      ((tokens (byteSize before) rest).foldlM ReaderState.step state >>= ReaderState.finish) := by
  generalize hOffset : byteSize before = offset
  -- every token moves its text from what is left to what has been read
  fun_induction tokens offset rest generalizing before state with
  | case1 offset =>
    rw [List.append_nil]
    exact h.finish
  | case2 offset c rest hBlank ih =>
    have hText : IsBlankText [c] := List.forall_mem_singleton.2 hBlank
    have hNext := ih (h.append_blanks hText)
      (apart_concat (hText.isAtomChar_eq_false List.mem_cons_self) before rest)
      (by simp [hOffset])
    rwa [List.append_assoc] at hNext
  | case3 offset rest hBlank ih =>
    subst hOffset
    have hHead : Apart before ['('] := apart_of_delimits (delimits_cons (by decide) []) before
    exact h.fits_cons .opening hHead fun next hNext =>
      ih hNext (apart_concat (by decide) before rest) (byteSize_append before ['('])
  | case4 offset rest hBlank hOpening ih =>
    subst hOffset
    have hHead : Apart before [')'] := apart_of_delimits (delimits_cons (by decide) []) before
    exact h.fits_cons .closing hHead fun next hNext =>
      ih hNext (apart_concat (by decide) before rest) (byteSize_append before [')'])
  | case5 offset rest body rest' hSplit _ _ _ ih =>
    subst hOffset
    have hHead : Apart before ('"' :: (body ++ ['"'])) :=
      apart_of_delimits (delimits_cons (by decide) _) before
    have hSize : byteSize (before ++ '"' :: (body ++ ['"'])) =
        byteSize before + byteSize body + 2 := by
      rw [byteSize_append, byteSize_cons, byteSize_append]
      have hQuote : byteSize ['"'] = 1 ∧ Char.utf8Size '"' = 1 := by decide
      omega
    have hEnd : before ++ '"' :: (body ++ ['"']) = (before ++ '"' :: body) ++ ['"'] := by simp
    have hFits := h.fits_cons (.quoted (isQuoted_of_splitQuoted hSplit)) hHead
      fun next hNext => ih hNext (hEnd ▸ apart_concat (by decide) _ rest') hSize
    rw [splitQuoted_eq hSplit]
    simpa using hFits
  | case6 offset rest hSplit _ _ _ =>
    subst hOffset
    obtain ⟨error, hStep, hRefuses⟩ := h.step_unterminated hSplit hApart
    rw [List.foldlM_cons, hStep]
    exact hRefuses
  | case7 offset c rest hBlank hOpening hClosing hQuote atom =>
    rename_i ih
    subst hOffset
    have hAtom : IsAtom atom := isAtom_takeWhile hBlank hOpening hClosing hQuote rest
    have hText : c :: rest = atom ++ rest.dropWhile isAtomChar := by
      rw [List.cons_append, List.takeWhile_append_dropWhile]
    have hRest := delimits_dropWhile rest
    have hHead : Apart before atom := fun d hLast hd =>
      delimits_cons (hApart d hLast hd c rfl) _
    rw [hText]
    exact h.fits_cons (.atom hAtom) hHead fun next hNext =>
      ih hNext (apart_of_delimits hRest _) (byteSize_append before atom)

/-- Every text is the text of a tree or refused, and the reader tells which. -/
theorem readChars_outcome (text : List Char) : Fits text (readChars text) := by
  have hRoot : Reached [] .root := .expects (.nil isBlankText_nil) .root
  exact hRoot.fits (fun _ hc => by cases hc)

/-! ### The leftmost failure -/

/-- A text is no beginning of a tree if there is an error for it whatever follows. -/
theorem not_isViable_of_refuses {text : List Char} {error : SyntaxError}
    (h : ∀ after, Refuses (text ++ after) error) : ¬ IsViable text := by
  rintro ⟨more, tree, hTree⟩
  have hRead := (h more).readChars
  rw [hTree.readChars] at hRead
  cases hRead

/-- An error stands at the first character with which a text is no beginning of a tree any more. -/
theorem Refuses.isLeftmost {text : List Char} {error : SyntaxError} (h : Refuses text error) :
    error.IsLeftmost text := by
  cases h with
  | @endOfItems _ outer hOpens =>
    obtain ⟨state, hState, -⟩ := hOpens.consumes
    exact (Reached.expects hOpens hState).isViable
  | endOfList hOpens hBlanks => exact (Reached.label hOpens hBlanks).isViable
  | @unexpectedClose before hBlanks after =>
    refine ⟨before, ')', after, rfl, rfl, ?_, ?_⟩
    · exact (Reached.expects (.nil hBlanks) .root).isViable
    · have hRefuses : ∀ rest, Refuses ((before ++ [')']) ++ rest) _ := fun rest => by
        rw [List.append_assoc]
        exact .unexpectedClose hBlanks rest
      exact not_isViable_of_refuses hRefuses
  | @missingLabel before blanks outer c hOpens hBlanks hc after =>
    refine ⟨before ++ '(' :: blanks, c, after, rfl, rfl, ?_, ?_⟩
    · exact (Reached.label hOpens hBlanks).isViable
    · have hRefuses : ∀ rest, Refuses (((before ++ '(' :: blanks) ++ [c]) ++ rest) _ :=
        fun rest => by
          rw [List.append_assoc (before ++ '(' :: blanks)]
          exact .missingLabel hOpens hBlanks hc rest
      exact not_isViable_of_refuses hRefuses
  | @unterminatedString before after outer hOpens hAfter =>
    have hSplit := splitQuoted_eq_none hAfter
    -- the string can be closed, and then it is an item where one is expected
    obtain ⟨more, body, hBody⟩ := exists_isQuoted_append hSplit
    obtain ⟨state, hState, -⟩ := hOpens.consumes
    have hReached := Reached.receive hOpens hState (.string hBody)
      (apart_of_delimits (delimits_cons (by decide) _) before)
    have hText : before ++ '"' :: ((after ++ more) ++ ['"']) =
        (before ++ '"' :: after) ++ (more ++ ['"']) := by simp
    exact (hText ▸ hReached.isViable).of_append
  | @trailingInput before tree c hTree hc after =>
    refine ⟨before, c, after, rfl, rfl, (Reached.done hTree).isViable, ?_⟩
    have hRefuses : ∀ rest, Refuses ((before ++ [c]) ++ rest) _ := fun rest => by
      rw [List.append_assoc]
      exact .trailingInput hTree hc rest
    exact not_isViable_of_refuses hRefuses

/-! ### The reader -/

/-- The reader accepts exactly the texts that the grammar derives, as the trees that they denote.
All other texts are refused, and the error stands at the leftmost failure. -/
theorem read_eq_iff (text : String) :
    (∀ tree, read text = .ok tree ↔ IsTree text.toList tree) ∧
      ∀ error, read text = .error error ↔
        Refuses text.toList error ∧ error.IsLeftmost text.toList := by
  have hOutcome := readChars_outcome text.toList
  rw [read]
  refine ⟨fun tree => ⟨fun h => ?_, IsTree.readChars⟩,
    fun error => ⟨fun h => ?_, fun h => h.1.readChars⟩⟩
  · rwa [h] at hOutcome
  · rw [h] at hOutcome
    exact ⟨hOutcome, hOutcome.isLeftmost⟩

/-! A list may not start with a list, nothing may stand behind a tree, and a backslash takes the
last quote of a text with it. -/

example : read "(() A)" = .error (.missingLabel 1) := by decide +kernel
example : read "(A) (B)" = .error (.trailingInput 4) := by decide +kernel
example : read "(A \"x\\\"" = .error (.unterminatedString 3) := by decide +kernel

end TreeGrammar.Tree
