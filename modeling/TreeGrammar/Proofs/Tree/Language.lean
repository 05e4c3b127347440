import TreeGrammar.Proofs.Tree.Tokens

/-!
# The language of tree texts

The notation of trees as a grammar over characters, without tokens and without the reader:

* a text is an item with white space around it;
* an item is an atom, a string, or a list in parentheses;
* a list has a label, which is an atom, and any number of items, with white space anywhere between
  them;
* an atom is as long as possible, so that no character of an atom follows it.

The reader accepts what the grammar derives. Since a text may also stop inside some lists, the
reader is followed through texts that are derived only in part.

## Main definitions

* `Tree.IsQuoted`: what may stand between two quotes
* `Tree.IsItem`, `Tree.IsItems`: texts of items
* `Tree.IsTree`: texts of trees
* `Tree.ReaderState.Consumes`: a text takes the reader from one state to another
* `Tree.Apart`: nothing at the end of a text is prolonged by what follows

## Main results

* `Tree.IsItem.consumes`: the text of an item is read as this item
* `Tree.IsTree.readChars`: the text of a tree is read as this tree
-/

namespace TreeGrammar.Tree

open Text

/-! ### The grammar -/

/-- White space only. -/
def IsBlankText (text : List Char) : Prop := ∀ c ∈ text, isBlank c

/-- The character for which a character after a backslash stands. -/
def unescapedChar : Char → Char
  | 'n' => '\n'
  | 't' => '\t'
  | c => c

/-- What may stand between two quotes, with the text that it denotes. A backslash takes the next
character with it. -/
inductive IsQuoted : List Char → List Char → Prop where
  | nil : IsQuoted [] []
  | plain {c : Char} {body text : List Char} (hQuote : c ≠ '"') (hBackslash : c ≠ '\\') :
      IsQuoted body text → IsQuoted (c :: body) (c :: text)
  | escaped (c : Char) {body text : List Char} :
      IsQuoted body text → IsQuoted ('\\' :: c :: body) (unescapedChar c :: text)

/-- The tree that a list with the given label denotes by its items. -/
inductive Denotes (label : List Char) : List Item → Tree → Prop where
  /-- Without items, a leaf without text. -/
  | empty : Denotes label [] (leaf (String.ofList label) "")
  /-- A string alone is the text of a leaf. -/
  | string (text : List Char) :
      Denotes label [.quoted text] (leaf (String.ofList label) (String.ofList text))
  /-- An atom alone is the text of a leaf, unless it starts with an uppercase letter. -/
  | word {text : List Char} (h : isLabelAtom text = false) :
      Denotes label [.atom text] (leaf (String.ofList label) (String.ofList text))
  /-- An atom alone that starts with an uppercase letter is an only child. -/
  | onlyLabel {text : List Char} (h : isLabelAtom text = true) :
      Denotes label [.atom text] (node (String.ofList label) "" [(Item.atom text).toTree])
  /-- A list alone is an only child. -/
  | onlyTree (tree : Tree) : Denotes label [.nested tree] (node (String.ofList label) "" [tree])
  /-- Several items are children. -/
  | children (first second : Item) (others : List Item) :
      Denotes label (first :: second :: others)
        (node (String.ofList label) "" ((first :: second :: others).map Item.toTree))

mutual

/-- A text of an item. -/
inductive IsItem : List Char → Item → Prop where
  | atom {text : List Char} (h : IsAtom text) : IsItem text (.atom text)
  | string {body text : List Char} (h : IsQuoted body text) :
      IsItem ('"' :: (body ++ ['"'])) (.quoted text)
  | list {blanks label body : List Char} {items : List Item} {tree : Tree}
      (hBlanks : IsBlankText blanks) (hLabel : IsAtom label) (hDelimits : Delimits body)
      (hBody : IsItems body items) (hTree : Denotes label items tree) :
      IsItem ('(' :: (blanks ++ (label ++ (body ++ [')'])))) (.nested tree)

/-- A text of some items, with white space before each and at the end. -/
inductive IsItems : List Char → List Item → Prop where
  | nil {blanks : List Char} (hBlanks : IsBlankText blanks) : IsItems blanks []
  | cons {blanks text body : List Char} {item : Item} {items : List Item}
      (hBlanks : IsBlankText blanks) (hItem : IsItem text item)
      (hAtom : ∀ atom, item = .atom atom → Delimits body) (hBody : IsItems body items) :
      IsItems (blanks ++ (text ++ body)) (item :: items)

end

/-- A text of a tree: an item with white space around it. -/
inductive IsTree : List Char → Tree → Prop where
  | intro {before text after : List Char} {item : Item} (hBefore : IsBlankText before)
      (hItem : IsItem text item) (hAfter : IsBlankText after) :
      IsTree (before ++ (text ++ after)) item.toTree

/-! ### White space, strings and lists -/

theorem isBlankText_nil : IsBlankText [] := nofun

theorem isBlankText_append {text more : List Char} :
    IsBlankText (text ++ more) ↔ IsBlankText text ∧ IsBlankText more :=
  List.forall_mem_append

theorem IsBlankText.isAtomChar_eq_false {text : List Char} (h : IsBlankText text) {c : Char}
    (hc : c ∈ text) : isAtomChar c = false := by
  simp [isAtomChar, h c hc]

theorem IsBlankText.delimits {text : List Char} (h : IsBlankText text) : Delimits text :=
  fun _ hc => h.isAtomChar_eq_false (List.mem_of_mem_head? hc)

theorem unescape_backslash (c : Char) (rest : List Char) :
    unescape ('\\' :: c :: rest) = unescapedChar c :: unescape rest := by
  unfold unescapedChar
  split
  · rfl
  · rfl
  · next hLine hTab => rw [unescape] <;> assumption

/-- What may stand between two quotes ends at the next quote. -/
theorem IsQuoted.splitQuoted {body text : List Char} (h : IsQuoted body text)
    (rest : List Char) : splitQuoted (body ++ '"' :: rest) = some (body, rest) := by
  induction h with
  | nil => rfl
  | plain hQuote hBackslash _ ih =>
    rw [List.cons_append, splitQuoted_cons hQuote hBackslash, ih]
    rfl
  | escaped c _ ih =>
    rw [List.cons_append, List.cons_append, Tree.splitQuoted, ih]
    rfl

theorem IsQuoted.unescape_eq {body text : List Char} (h : IsQuoted body text) :
    unescape body = text := by
  induction h with
  | nil => rfl
  | plain _ hBackslash _ ih => rw [unescape_cons hBackslash, ih]
  | escaped c _ ih => rw [unescape_backslash, ih]

/-- A string is split off up to a quote that closes it. -/
theorem isQuoted_of_splitQuoted {text body rest : List Char}
    (h : splitQuoted text = some (body, rest)) : IsQuoted body (unescape body) := by
  fun_induction splitQuoted text generalizing body rest with
  | case1 => cases h
  | case2 =>
    obtain ⟨rfl, rfl⟩ := Prod.mk.inj (Option.some.inj h)
    exact .nil
  | case3 c text ih =>
    obtain ⟨⟨body, rest⟩, hRest, hEq⟩ := Option.map_eq_some_iff.1 h
    obtain ⟨rfl, rfl⟩ := Prod.mk.inj hEq
    rw [unescape_backslash]
    exact .escaped c (ih hRest)
  | case4 c text hQuote hEscape ih =>
    obtain ⟨⟨body, rest⟩, hRest, hEq⟩ := Option.map_eq_some_iff.1 h
    obtain ⟨rfl, rfl⟩ := Prod.mk.inj hEq
    -- a backslash at the end of a text escapes nothing, and no quote follows it
    have hBackslash : c ≠ '\\' := by
      rintro rfl
      cases text with
      | nil => cases hRest
      | cons d text => exact hEscape d text rfl rfl
    rw [unescape_cons hBackslash]
    exact .plain hQuote hBackslash (ih hRest)

theorem Denotes.toTree_eq {label : List Char} {items : List Item} {tree : Tree}
    (h : Denotes label items tree) : OpenList.toTree ⟨label, items.reverse⟩ = tree := by
  cases h with
  | empty => rfl
  | string text => rfl
  | word hWord => simp [OpenList.toTree, hWord]
  | onlyLabel hLabel => simp [OpenList.toTree, hLabel]
  | onlyTree tree => rfl
  | children first second others =>
    -- a list of several items is none of the lists whose only item is a text
    have hLength : (first :: second :: others).reverse.length ≠ 1 := by simp
    rw [OpenList.toTree, List.reverse_reverse]
    split
    · next hItems => exact absurd (congrArg List.length hItems) hLength
    · next hItems => exact absurd (congrArg List.length hItems) hLength
    · rfl

theorem denotes_toTree (label : List Char) (items : List Item) :
    Denotes label items (OpenList.toTree ⟨label, items.reverse⟩) := by
  match items with
  | [] => exact .empty
  | [.quoted text] => exact .string text
  | [.atom text] =>
    cases hText : isLabelAtom text with
    | true =>
      have hDenotes : Denotes label [.atom text] _ := .onlyLabel hText
      exact hDenotes.toTree_eq ▸ hDenotes
    | false =>
      have hDenotes : Denotes label [.atom text] _ := .word hText
      exact hDenotes.toTree_eq ▸ hDenotes
  | [.nested tree] => exact .onlyTree tree
  | first :: second :: others =>
    have hDenotes : Denotes label (first :: second :: others) _ := .children first second others
    exact hDenotes.toTree_eq ▸ hDenotes

/-! ### Runs of the reader -/

namespace ReaderState

/-- The reader expects an item, inside the given lists. -/
inductive Expects : ReaderState → List OpenList → Prop where
  | root : Expects .root []
  | items {list : OpenList} {outer : List OpenList} : Expects (.items list outer) (list :: outer)

/-- The state after an item, where one is expected. -/
def receive : ReaderState → Item → ReaderState
  | root, item => done item.toTree
  | items list outer, item => items (list.push item) outer
  | state, _ => state

variable {before middle after : ReaderState} {outer : List OpenList} {text more rest : List Char}

theorem Expects.close_eq (h : before.Expects outer) (list : OpenList) :
    close list outer = before.receive (.nested list.toTree) := by
  cases h <;> rfl

theorem Expects.step_opening (h : before.Expects outer) (offset : Nat) :
    before.step (offset, .opening) = .ok (.label outer) := by
  cases h <;> rfl

theorem Expects.step_atom (h : before.Expects outer) (offset : Nat) (text : List Char) :
    before.step (offset, .atom text) = .ok (before.receive (.atom text)) := by
  cases h <;> rfl

theorem Expects.step_quoted (h : before.Expects outer) (offset : Nat) (text : List Char) :
    before.step (offset, .quoted text) = .ok (before.receive (.quoted text)) := by
  cases h <;> rfl

/-- A text in front of `rest` takes the reader from one state to another. -/
def Consumes (before : ReaderState) (text rest : List Char) (after : ReaderState) : Prop :=
  ∀ offset, (tokens offset (text ++ rest)).foldlM step before =
    (tokens (offset + byteSize text) rest).foldlM step after

namespace Consumes

theorem append (h : before.Consumes text (more ++ rest) middle)
    (h' : middle.Consumes more rest after) : before.Consumes (text ++ more) rest after := by
  intro offset
  rw [List.append_assoc, h, h', byteSize_append, Nat.add_assoc]

theorem blanks (h : IsBlankText text) (state : ReaderState) (rest : List Char) :
    state.Consumes text rest state := by
  intro offset
  rw [tokens_blank_append offset rest h]

theorem opening (hStep : ∀ offset, before.step (offset, .opening) = .ok middle)
    (h : middle.Consumes text rest after) : before.Consumes ('(' :: text) rest after := by
  intro offset
  rw [List.cons_append, tokens_opening, List.foldlM_cons, hStep, byteSize_cons, ← Nat.add_assoc]
  exact h _

theorem closing (hStep : ∀ offset, before.step (offset, .closing) = .ok after)
    (rest : List Char) : before.Consumes [')'] rest after := by
  intro offset
  rw [List.singleton_append, tokens_closing, List.foldlM_cons, hStep]
  rfl

theorem atom (hAtom : IsAtom text) (hRest : Delimits rest)
    (hStep : ∀ offset, before.step (offset, .atom text) = .ok after) :
    before.Consumes text rest after := by
  intro offset
  rw [tokens_atom_append offset hAtom hRest, List.foldlM_cons, hStep]
  rfl

theorem string {body : List Char} (hBody : IsQuoted body text)
    (hStep : ∀ offset, before.step (offset, .quoted text) = .ok after) (rest : List Char) :
    before.Consumes ('"' :: (body ++ ['"'])) rest after := by
  intro offset
  have hSplit := hBody.splitQuoted rest
  have hSize : byteSize ('"' :: (body ++ ['"'])) = byteSize body + 2 := by
    rw [byteSize_cons, byteSize_append]
    have hQuote : byteSize ['"'] = 1 ∧ Char.utf8Size '"' = 1 := by decide
    omega
  rw [List.cons_append, List.append_assoc, List.singleton_append, tokens_string offset rest hSplit,
    hBody.unescape_eq, List.foldlM_cons, hStep, hSize, Nat.add_assoc]
  rfl

end Consumes

end ReaderState

/-! ### Texts that the grammar derives are read -/

open ReaderState (Consumes)

mutual

/-- The text of an item is read as this item, wherever one is expected. -/
theorem IsItem.consumes {text : List Char} {item : Item} (h : IsItem text item)
    {state : ReaderState} {outer : List OpenList} (hState : state.Expects outer)
    {rest : List Char} (hRest : ∀ atom, item = .atom atom → Delimits rest) :
    state.Consumes text rest (state.receive item) := by
  match h with
  | .atom hAtom => exact .atom hAtom (hRest _ rfl) fun offset => hState.step_atom offset _
  | .string hBody => exact .string hBody (fun offset => hState.step_quoted offset _) rest
  | @IsItem.list blanks label body items tree hBlanks hLabel hDelimits hBody hTree =>
    have hEnd : Delimits ([')'] ++ rest) := delimits_cons (by decide) rest
    have hItems := hBody.consumes ⟨label, []⟩ outer hEnd
    rw [List.append_nil] at hItems
    have hClosing : ∀ offset, (ReaderState.items ⟨label, items.reverse⟩ outer).step
        (offset, .closing) = .ok (state.receive (.nested tree)) := by
      intro offset
      rw [← hTree.toTree_eq, ← hState.close_eq]
      rfl
    have hAfterLabel : Delimits (body ++ [')'] ++ rest) :=
      List.append_assoc body _ rest ▸ hDelimits.append hEnd
    exact .opening hState.step_opening <| .append (.blanks hBlanks (.label outer) _) <|
      .append (.atom hLabel hAfterLabel fun _ => rfl) <| .append hItems (.closing hClosing rest)

/-- The text of some items is read as these items, inside of a list. -/
theorem IsItems.consumes {text : List Char} {items : List Item} (h : IsItems text items)
    (list : OpenList) (outer : List OpenList) {rest : List Char} (hRest : Delimits rest) :
    (ReaderState.items list outer).Consumes text rest
      (.items { list with items := items.reverse ++ list.items } outer) := by
  match h with
  | .nil hBlanks => exact .blanks hBlanks _ _
  | @IsItems.cons blanks text body item items hBlanks hItem hAtom hBody =>
    have hExpects : (ReaderState.items list outer).Expects (list :: outer) := .items
    have hFirst := hItem.consumes hExpects fun atom hEq => (hAtom atom hEq).append hRest
    have hLater := hBody.consumes (list.push item) outer hRest
    rw [List.reverse_cons, List.append_assoc]
    exact .append (.blanks hBlanks _ _) (.append hFirst hLater)

end

theorem tokens_nil (offset : Nat) : tokens offset [] = [] := by rw [tokens]

/-! ### Characters in front of a text -/

/-- Nothing at the end of a text is prolonged by what follows. -/
def Apart (text rest : List Char) : Prop :=
  ∀ c ∈ text.getLast?, isAtomChar c → Delimits rest

theorem apart_of_delimits {rest : List Char} (h : Delimits rest) (text : List Char) :
    Apart text rest := fun _ _ _ => h

theorem apart_concat {c : Char} (h : isAtomChar c = false) (text rest : List Char) :
    Apart (text ++ [c]) rest := by
  intro d hd hAtom
  rw [List.getLast?_concat] at hd
  obtain rfl := Option.some.inj hd
  exact absurd hAtom (h ▸ Bool.false_ne_true)

theorem Apart.of_append {text more rest : List Char} (h : Apart (text ++ more) rest)
    (hMore : more ≠ []) : Apart more rest := by
  intro c hc
  refine h c ?_
  rwa [List.getLast?_append_of_ne_nil _ hMore]

theorem IsAtom.delimits_of_apart {atom rest : List Char} (hAtom : IsAtom atom)
    (h : Apart atom rest) : Delimits rest := by
  have hLast := List.getLast?_eq_some_getLast hAtom.1
  exact h _ hLast (hAtom.2 _ (List.getLast_mem hAtom.1))

/-- The text of a tree takes the reader to its end, unless its last character is prolonged. -/
theorem IsTree.consumes {text : List Char} {tree : Tree} (h : IsTree text tree) {rest : List Char}
    (hRest : Apart text rest) : ReaderState.root.Consumes text rest (.done tree) := by
  obtain @⟨before, text, after, item, hBefore, hItem, hAfter⟩ := h
  have hAtom : ∀ atom, item = .atom atom → Delimits (after ++ rest) := by
    rintro atom rfl
    cases hItem with
    | atom hAtom =>
      by_cases hEnd : after = []
      · subst hEnd
        rw [List.append_nil] at hRest
        exact hAtom.delimits_of_apart (hRest.of_append hAtom.1)
      · obtain ⟨c, after, rfl⟩ := List.exists_cons_of_ne_nil hEnd
        exact delimits_cons (hAfter.isAtomChar_eq_false List.mem_cons_self) _
  exact .append (.blanks hBefore .root _)
    (.append (hItem.consumes .root hAtom) (.blanks hAfter (.done item.toTree) rest))

/-- The text of a tree is read as this tree. -/
theorem IsTree.readChars {text : List Char} {tree : Tree} (h : IsTree text tree) :
    readChars text = .ok tree := by
  have hRun := h.consumes (apart_of_delimits delimits_nil text) 0
  rw [List.append_nil, tokens_nil] at hRun
  rw [Tree.readChars, hRun]
  rfl

end TreeGrammar.Tree
