import Mathlib.Algebra.Order.BigOperators.Group.List
import Mathlib.Algebra.Order.Ring.Nat
import TreeGrammar.Proofs.Tree.Written

/-!
# Counting double quotes

A text has at least as many double quotes as the written form of the tree that is read from it, and
more of them if a label of the tree is not an atom: such a label can only come from a quoted string,
but it is written without quotes. So no text that is the written form of its own tree has such a
label.

## Main definitions

* `Tree.quotes`: the number of double quotes in a text
* `Tree.demand`: a number of double quotes that every text has from which a tree is read
* `Tree.TextsAtLeaves`: a tree whose inner nodes have no text

## Main results

* `Tree.demand_le_of_read`: the double quotes of a text that is read as a tree
* `Tree.isAtom_of_read_render`: a tree that is read from its own written form has atoms as labels
-/

namespace TreeGrammar.Tree

open Text

/-! ### Double quotes in texts -/

/-- The number of double quotes in a text. -/
def quotes (text : List Char) : Nat := text.count '"'

@[simp] theorem quotes_nil : quotes [] = 0 := rfl

@[simp] theorem quotes_cons (c : Char) (text : List Char) :
    quotes (c :: text) = quotes text + if c = '"' then 1 else 0 := by
  rw [quotes, List.count_cons, quotes]
  simp only [beq_iff_eq]

@[simp] theorem quotes_append (text more : List Char) :
    quotes (text ++ more) = quotes text + quotes more := List.count_append

theorem quotes_eq_zero {text : List Char} (h : '"' ∉ text) : quotes text = 0 :=
  List.count_eq_zero.2 h

theorem IsAtom.quotes_eq_zero {text : List Char} (h : IsAtom text) : quotes text = 0 :=
  Tree.quotes_eq_zero fun hQuote => absurd (h.2 _ hQuote) (by decide)

theorem quotes_escape {c : Char} {written : List Char} (h : Escape c written) :
    quotes written = quotes [c] := by
  cases h with
  | plain hQuote hBackslash => rfl
  | @short d hShort =>
    have hQuotes : ∀ entry ∈ shortEscapes, quotes ['\\', entry.2] = quotes [entry.1] := by decide
    exact hQuotes (c, d) hShort
  | codePoint hPoint =>
    obtain ⟨plain, hEq, hQuote, -⟩ := exists_codePointEscape_eq c
    have hc : c ≠ '"' := by
      rintro rfl
      exact absurd hPoint (by decide)
    simp [hEq, Tree.quotes_eq_zero hQuote, hc]

theorem quotes_flatMap_escapeChar (text : List Char) :
    quotes (text.flatMap escapeChar) = quotes text := by
  induction text with
  | nil => rfl
  | cons c text ih =>
    rw [List.flatMap_cons, quotes_append, ih, quotes_escape (escape_escapeChar c), ← quotes_append,
      List.singleton_append]

theorem quotes_quote (text : List Char) : quotes (quote text) = quotes text + 2 := by
  simp [quote, quotes_flatMap_escapeChar]

theorem quotes_unescape_le (text : List Char) : quotes (unescape text) ≤ quotes text := by
  fun_induction unescape text with
  | case1 rest ih | case2 rest ih | case3 c rest _ _ ih | case4 c rest _ _ _ ih => simp; omega
  | case5 => exact Nat.le_refl _

theorem textChars_eq (text : List Char) :
    textChars text = if needsQuotes text then quote text else text := rfl

theorem quotes_textChars_le (text : List Char) : quotes (textChars text) ≤ quotes text + 2 := by
  rw [textChars_eq]
  split
  · exact Nat.le_of_eq (quotes_quote text)
  · exact Nat.le_add_right _ _

/-- A text that is an atom but no label is written without quotes. -/
theorem textChars_of_isAtom {text : List Char} (h : IsAtom text) (hWord : isLabelAtom text = false) :
    textChars text = text := by
  have hNeeds : needsQuotes text = false := by
    rw [needsQuotes, hWord, Bool.false_or, List.any_eq_false]
    exact fun c hc => by simp [h.2 c hc]
  rw [textChars_eq, hNeeds]
  rfl

/-! ### The quotes that a tree demands -/

/-- The nodes of a tree whose label is not an atom. -/
def strays (tree : Tree) : Nat := tree.subtrees.countP fun node => !decide (IsAtom node.label.toList)

/-- The double quotes in the written form of a tree, and one more for each label that is not an
atom. -/
def demand (tree : Tree) : Nat := quotes tree.chars + tree.strays

/-- Inner nodes have no text. -/
def TextsAtLeaves (tree : Tree) : Prop :=
  ∀ node ∈ tree.subtrees, node.children ≠ [] → node.text = ""

theorem textsAtLeaves_leaf (label text : String) : (leaf label text).TextsAtLeaves := by
  rw [TextsAtLeaves, leaf, forall_mem_subtrees]
  exact ⟨fun h => absurd rfl h, nofun⟩

theorem textsAtLeaves_node {label : String} {children : List Tree}
    (h : ∀ child ∈ children, child.TextsAtLeaves) : (node label "" children).TextsAtLeaves := by
  rw [TextsAtLeaves, forall_mem_subtrees]
  exact ⟨fun _ => rfl, h⟩

theorem quotes_childrenChars (trees : List Tree) :
    quotes (childrenChars trees) = (trees.map fun tree => quotes tree.chars).sum := by
  induction trees with
  | nil => rfl
  | cons tree trees ih => simp [childrenChars, ih]

theorem subtreesOfList_eq_flatMap (trees : List Tree) :
    subtreesOfList trees = trees.flatMap subtrees := by
  induction trees with
  | nil => rfl
  | cons tree trees ih => rw [subtreesOfList, ih, List.flatMap_cons]

theorem strays_node (label text : String) (children : List Tree) :
    (node label text children).strays =
      (children.map strays).sum + if IsAtom label.toList then 0 else 1 := by
  rw [strays, subtrees, List.countP_cons, subtreesOfList_eq_flatMap, List.countP_flatMap]
  refine congrArg (_ + ·) ?_
  change (if (!decide (IsAtom label.toList)) = true then 1 else 0) = _
  by_cases h : IsAtom label.toList <;> simp [h]

/-- A node demands what its children demand if its label is an atom. -/
theorem demand_node {label text : String} {children : List Tree} (hLabel : IsAtom label.toList)
    (hChildren : children ≠ []) :
    (node label text children).demand = (children.map demand).sum := by
  have hQuotes : quotes (node label text children).chars =
      (children.map fun tree => quotes tree.chars).sum := by
    cases children with
    | nil => exact absurd rfl hChildren
    | cons child children =>
      rw [chars, quotes_cons, quotes_append, quotes_append, hLabel.quotes_eq_zero,
        quotes_childrenChars]
      simp
  rw [demand, hQuotes, strays_node, if_pos hLabel, Nat.add_zero, ← List.sum_map_add]
  rfl

/-- A leaf demands what its text demands if its label is an atom. -/
theorem demand_leaf_le {label : String} (hLabel : IsAtom label.toList) (text : String) :
    (leaf label text).demand ≤ quotes (textChars text.toList) := by
  rw [demand, leaf, strays_node, if_pos hLabel, chars]
  have hEmpty := hLabel.quotes_eq_zero
  split
  · simp [hEmpty]
  · split
    · simp [hEmpty]
    · simp [hEmpty]

theorem demand_leaf_self (label : String) :
    (leaf label label).demand = quotes label.toList + if IsAtom label.toList then 0 else 1 := by
  have hQuotes : quotes (leaf label label).chars = quotes label.toList := by
    rw [leaf, chars]
    split
    · simp
    · rw [if_pos rfl]
  rw [demand, hQuotes, leaf, strays_node, List.map_nil, List.sum_nil, Nat.zero_add]

/-! ### The quotes that the reader has used -/

/-- The atoms of a text are such that nothing prolongs them. -/
def Token.IsProper : Token → Prop
  | atom text => IsAtom text
  | _ => True

/-- A number of double quotes that a token has. -/
def Token.demand : Token → Nat
  | quoted text => quotes text + 2
  | opening | closing | atom _ | unterminated => 0

theorem isProper_of_mem_tokens {offset : Nat} {text : List Char} :
    ∀ entry ∈ tokens offset text, entry.2.IsProper := by
  fun_induction tokens offset text with
  | case1 => exact nofun
  | case2 offset c rest hBlank ih => exact ih
  | case3 | case4 => exact List.forall_mem_cons.2 ⟨trivial, ‹_›⟩
  | case5 => exact List.forall_mem_cons.2 ⟨trivial, ‹_›⟩
  | case6 => exact List.forall_mem_cons.2 ⟨trivial, nofun⟩
  | case7 offset c rest hBlank hOpening hClosing hQuote atom ih =>
    exact List.forall_mem_cons.2 ⟨isAtom_takeWhile hBlank hOpening hClosing hQuote rest, ih⟩

/-- The quotes of the tokens are quotes of the text. -/
theorem sum_demand_tokens_le (offset : Nat) (text : List Char) :
    ((tokens offset text).map fun entry => entry.2.demand).sum ≤ quotes text := by
  fun_induction tokens offset text with
  | case1 => exact Nat.le_refl _
  | case2 offset c rest hBlank ih =>
    rw [quotes_cons]
    omega
  | case3 | case4 => simpa [Token.demand] using ‹_›
  | case5 offset rest body rest' hSplit _ _ _ ih =>
    have hBody := quotes_unescape_le body
    rw [splitQuoted_eq hSplit, List.map_cons, List.sum_cons, Token.demand]
    simp only [quotes_cons, quotes_append, if_true]
    omega
  | case6 => simp [Token.demand]
  | case7 offset c rest hBlank hOpening hClosing hQuote atom ih =>
    have hDrop : quotes (rest.dropWhile isAtomChar) ≤ quotes rest :=
      (List.dropWhile_sublist isAtomChar).count_le '"'
    rw [List.map_cons, List.sum_cons, Token.demand, quotes_cons]
    omega

namespace Item

/-- An item as it is read: an atom is not prolonged by anything, and in a tree only leaves have a
text. -/
def IsRead : Item → Prop
  | atom text => IsAtom text
  | quoted _ => True
  | nested tree => tree.TextsAtLeaves

/-- A number of double quotes that every text has from which an item is read. -/
def demand : Item → Nat
  | atom _ => 0
  | quoted text => quotes text + 2
  | nested tree => tree.demand

theorem textsAtLeaves_toTree {item : Item} (h : item.IsRead) : item.toTree.TextsAtLeaves := by
  cases item with
  | atom text | quoted text => exact textsAtLeaves_leaf _ _
  | nested tree => exact h

theorem demand_toTree_le {item : Item} (h : item.IsRead) : item.toTree.demand ≤ item.demand := by
  cases item with
  | atom text =>
    have hAtom : IsAtom text := h
    rw [toTree, demand_leaf_self, String.toList_ofList, if_pos hAtom, hAtom.quotes_eq_zero]
    exact Nat.le_refl _
  | quoted text =>
    rw [toTree, demand_leaf_self, String.toList_ofList, demand]
    split <;> omega
  | nested tree => exact Nat.le_refl _

end Item

namespace OpenList

/-- An open list as it is read: its label is an atom. -/
structure IsRead (list : OpenList) : Prop where
  label : IsAtom list.label
  items : ∀ item ∈ list.items, item.IsRead

/-- A number of double quotes that every text has from which the items of a list are read. -/
def demand (list : OpenList) : Nat := (list.items.map Item.demand).sum

variable {list : OpenList}

/-- The children of a list demand what its items demand. -/
theorem demand_node_le (h : list.IsRead) :
    (node (String.ofList list.label) "" (list.items.reverse.map Item.toTree)).demand ≤
      list.demand := by
  have hLabel : IsAtom (String.ofList list.label).toList := by
    rw [String.toList_ofList]
    exact h.label
  cases hItems : list.items with
  | nil =>
    exact (demand_leaf_le hLabel "").trans (Nat.zero_le _)
  | cons item items =>
    have hChildren : (item :: items).reverse.map Item.toTree ≠ [] := by simp
    rw [demand_node hLabel hChildren, demand, hItems, List.map_map, List.map_reverse,
      List.sum_reverse]
    refine List.sum_le_sum fun item hItem => ?_
    exact Item.demand_toTree_le (h.items item (hItems ▸ hItem))

theorem textsAtLeaves_toTree (h : list.IsRead) : list.toTree.TextsAtLeaves := by
  have hNode : (node (String.ofList list.label) ""
      (list.items.reverse.map Item.toTree)).TextsAtLeaves := by
    refine textsAtLeaves_node fun child hChild => ?_
    obtain ⟨item, hItem, rfl⟩ := List.mem_map.1 hChild
    exact Item.textsAtLeaves_toTree (h.items item (List.mem_reverse.1 hItem))
  rw [toTree]
  split
  · exact textsAtLeaves_leaf _ _
  · split
    · exact hNode
    · exact textsAtLeaves_leaf _ _
  · exact hNode

theorem demand_toTree_le (h : list.IsRead) : list.toTree.demand ≤ list.demand := by
  have hLabel : IsAtom (String.ofList list.label).toList := by
    rw [String.toList_ofList]
    exact h.label
  have hNode := demand_node_le h
  rw [toTree]
  split
  · next text hItems =>
    refine (demand_leaf_le hLabel _).trans ((quotes_textChars_le _).trans ?_)
    simp [demand, hItems, Item.demand]
  · next text hItems =>
    split
    · exact hNode
    · next hWord =>
      -- an atom that is no label is written as it is
      have hAtom : IsAtom text := h.items (.atom text) (by simp [hItems])
      refine (demand_leaf_le hLabel _).trans ?_
      rw [String.toList_ofList, textChars_of_isAtom hAtom (Bool.not_eq_true _ ▸ hWord),
        hAtom.quotes_eq_zero]
      exact Nat.zero_le _
  · exact hNode

end OpenList

namespace ReaderState

/-- A state of the reader as it is reached: the lists that are open are as they are read, and so is
the tree that is complete. -/
def IsRead : ReaderState → Prop
  | root => True
  | label outer => ∀ list ∈ outer, list.IsRead
  | items list outer => list.IsRead ∧ ∀ list ∈ outer, list.IsRead
  | done tree => tree.TextsAtLeaves

/-- A number of double quotes that have been read in a state. -/
def demand : ReaderState → Nat
  | root => 0
  | label outer => (outer.map OpenList.demand).sum
  | items list outer => list.demand + (outer.map OpenList.demand).sum
  | done tree => tree.demand

variable {state next : ReaderState}

/-- An item that is received keeps lists and trees as they are read, and it pays for what it adds. -/
theorem Expects.receive_keeps {outer : List OpenList} (h : state.Expects outer)
    (hState : state.IsRead) {item : Item} (hItem : item.IsRead) :
    (state.receive item).IsRead ∧ (state.receive item).demand ≤ state.demand + item.demand := by
  cases h with
  | root =>
    refine ⟨Item.textsAtLeaves_toTree hItem, ?_⟩
    rw [demand, Nat.zero_add]
    exact Item.demand_toTree_le hItem
  | @items list outer =>
    obtain ⟨hList, hOuter⟩ := hState
    refine ⟨⟨⟨hList.label, List.forall_mem_cons.2 ⟨hItem, hList.items⟩⟩, hOuter⟩, ?_⟩
    have hPush : (list.push item).demand = item.demand + list.demand := rfl
    rw [receive, demand, demand, hPush]
    omega

/-- A list that is closed is received as an item by the state before it was opened. -/
theorem close_keeps {list : OpenList} {outer : List OpenList} (hList : list.IsRead)
    (hOuter : ∀ list ∈ outer, list.IsRead) :
    (close list outer).IsRead ∧
      (close list outer).demand ≤ list.demand + (outer.map OpenList.demand).sum := by
  have hItem : (Item.nested list.toTree).IsRead := OpenList.textsAtLeaves_toTree hList
  have hDemand := OpenList.demand_toTree_le hList
  cases outer with
  | nil => exact ⟨hItem, hDemand⟩
  | cons parent outer =>
    obtain ⟨hRead, hLe⟩ := Expects.items.receive_keeps (List.forall_mem_cons.1 hOuter) hItem
    refine ⟨hRead, hLe.trans ?_⟩
    rw [demand, Item.demand, List.map_cons, List.sum_cons]
    omega

/-- A step keeps lists and trees as they are read, and the quotes of its token pay for what it
adds. -/
theorem step_keeps {offset : Nat} {token : Token} (hState : state.IsRead)
    (hToken : token.IsProper) (h : state.step (offset, token) = .ok next) :
    next.IsRead ∧ next.demand ≤ state.demand + token.demand := by
  -- one case for each state, and for each token that it takes
  cases state with
  | root =>
    cases token with
    | opening =>
      cases h
      exact ⟨nofun, Nat.le_refl _⟩
    | atom text =>
      cases h
      have hItem : (Item.atom text).IsRead := hToken
      exact Expects.root.receive_keeps hState hItem
    | quoted text =>
      cases h
      have hItem : (Item.quoted text).IsRead := trivial
      exact Expects.root.receive_keeps hState hItem
    | closing | unterminated => cases h
  | label outer =>
    cases token with
    | atom text =>
      cases h
      exact ⟨⟨⟨hToken, nofun⟩, hState⟩, Nat.le_of_eq (Nat.zero_add _)⟩
    | opening | closing | quoted | unterminated => cases h
  | items list outer =>
    obtain ⟨hList, hOuter⟩ := hState
    cases token with
    | opening =>
      cases h
      exact ⟨List.forall_mem_cons.2 ⟨hList, hOuter⟩, Nat.le_refl _⟩
    | closing =>
      cases h
      exact close_keeps hList hOuter
    | atom text =>
      cases h
      have hItem : (Item.atom text).IsRead := hToken
      exact Expects.items.receive_keeps ⟨hList, hOuter⟩ hItem
    | quoted text =>
      cases h
      have hItem : (Item.quoted text).IsRead := trivial
      exact Expects.items.receive_keeps ⟨hList, hOuter⟩ hItem
    | unterminated => cases h
  | done tree => cases h

/-- A run keeps lists and trees as they are read, and the quotes of its tokens pay for what it
adds. -/
theorem run_keeps {entries : List (Nat × Token)} (hState : state.IsRead)
    (hEntries : ∀ entry ∈ entries, entry.2.IsProper) (h : entries.foldlM step state = .ok next) :
    next.IsRead ∧ next.demand ≤ state.demand + (entries.map fun entry => entry.2.demand).sum := by
  induction entries generalizing state with
  | nil =>
    cases h
    exact ⟨hState, Nat.le_refl _⟩
  | cons entry entries ih =>
    obtain ⟨offset, token⟩ := entry
    obtain ⟨hToken, hEntries⟩ := List.forall_mem_cons.1 hEntries
    rw [List.foldlM_cons] at h
    cases hStep : state.step (offset, token) with
    | error error =>
      rw [hStep] at h
      cases h
    | ok middle =>
      rw [hStep] at h
      obtain ⟨hMiddle, hFirst⟩ := step_keeps hState hToken hStep
      obtain ⟨hNext, hLater⟩ := ih hMiddle hEntries h
      refine ⟨hNext, ?_⟩
      rw [List.map_cons, List.sum_cons]
      omega

end ReaderState

/-- A tree that is read has texts at its leaves only, and the text that it is read from has the
double quotes that the tree demands. -/
theorem demand_le_of_read {text : String} {tree : Tree} (h : read text = .ok tree) :
    tree.TextsAtLeaves ∧ tree.demand ≤ quotes text.toList := by
  rw [read, readChars] at h
  cases hRun : (tokens 0 text.toList).foldlM ReaderState.step .root with
  | error error =>
    rw [hRun] at h
    cases h
  | ok state =>
    rw [hRun] at h
    have hRoot : ReaderState.root.IsRead := trivial
    obtain ⟨hRead, hDemand⟩ := ReaderState.run_keeps hRoot isProper_of_mem_tokens hRun
    cases state with
    | done other =>
      obtain rfl : other = tree := Except.ok.inj h
      exact ⟨hRead, (hDemand.trans (Nat.le_of_eq (Nat.zero_add _))).trans (sum_demand_tokens_le 0 _)⟩
    | root | label | items => cases h

/-- The labels of a tree that is read from its own written form are atoms. -/
theorem isAtom_of_read_render {tree : Tree} (h : read tree.render = .ok tree) :
    ∀ node ∈ tree.subtrees, IsAtom node.label.toList := by
  have hDemand := (demand_le_of_read h).2
  rw [render, String.toList_ofList, demand] at hDemand
  have hStrays : tree.strays = 0 := by omega
  intro node hNode
  simpa using List.countP_eq_zero.1 hStrays node hNode

end TreeGrammar.Tree
