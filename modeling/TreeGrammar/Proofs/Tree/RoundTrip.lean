import TreeGrammar.Proofs.Tree.Quotes

/-!
# Trees that are read back

Which trees are read again from their written form. The notation loses a tree in three ways: a label
that is not an atom is written without quotes, a character of a quoted text is escaped in a way that
is not undone, and an only child that is a lowercase word is taken for the text of its parent. Every
other tree is read back, if it has texts at its leaves only.

## Main definitions

* `Tree.IsWord`: leaves that are taken for a text where they stand alone
* `Tree.ReadsBack`: nodes that the notation does not lose
* `Tree.IsPlain`: nodes with an uppercase label whose text is easy to write

## Main results

* `Tree.read_render_iff`: the trees that are read back
* `Tree.read_render_of_read_iff`: a tree that has been read is read back if and only if all its
  nodes are
* `Tree.read_render_of_isPlain`: trees with uppercase labels and plain texts are read back
-/

namespace TreeGrammar.Tree

open Text

/-- A leaf that is written as an atom without an uppercase letter in front. As the only item after
the label of a list, such an atom is a text. -/
def IsWord (tree : Tree) : Prop :=
  tree.children = [] ∧ tree.text = tree.label ∧ isLabelAtom tree.label.toList = false

/-- The text of a leaf is read back: it is left out or written as it is, or all its escapes are
undone. -/
def TextReadsBack (node : Tree) : Prop :=
  node.text = node.label ∨ needsQuotes node.text.toList = false ∨
    ∀ c ∈ node.text.toList, IsRestored c

instance (node : Tree) : Decidable node.TextReadsBack :=
  decidable_of_iff
    (node.text = node.label ∨ needsQuotes node.text.toList = false ∨
      node.text.toList.all (IsRestored ·))
    (by simp [TextReadsBack])

/-- A node is read back, apart from what is below it. -/
structure ReadsBack (node : Tree) : Prop where
  label : IsAtom node.label.toList
  text : node.children = [] → node.TextReadsBack
  onlyChild : ∀ child, node.children = [child] → ¬ child.IsWord

/-! ### Items that are texts -/

/-- A text, if it is the only item of a list. -/
def Item.IsText : Item → Prop
  | .atom text => isLabelAtom text = false
  | .quoted _ => True
  | .nested _ => False

namespace OpenList

theorem toTree_of_isText (label : List Char) {item : Item} (h : item.IsText) :
    ∃ text, toTree ⟨label, [item]⟩ = leaf (String.ofList label) text := by
  cases item with
  | atom text =>
    have hWord : isLabelAtom text = false := h
    exact ⟨String.ofList text, by simp [toTree, hWord]⟩
  | quoted text => exact ⟨String.ofList text, rfl⟩
  | nested tree => exact absurd h id

theorem toTree_of_not_isText {list : OpenList}
    (h : ∀ item, list.items = [item] → ¬ item.IsText) :
    list.toTree = node (String.ofList list.label) "" (list.items.reverse.map Item.toTree) := by
  rw [toTree]
  split
  · next text hItems => exact absurd trivial (h _ hItems)
  · next text hItems => exact if_pos (Bool.of_not_eq_false (h _ hItems))
  · rfl

end OpenList

/-- A tree is written as a text if and only if it is a word. -/
theorem isText_writtenItem_iff {tree : Tree} (hLabel : IsAtom tree.label.toList) :
    tree.writtenItem.IsText ↔ tree.IsWord := by
  cases tree with
  | node label text children =>
    cases children with
    | nil =>
      rw [writtenItem, IsWord]
      split
      · next hText =>
        have hNe : text ≠ label := by
          rintro rfl
          exact hLabel.1 (by simpa using hText)
        simp [Item.IsText, hNe]
      · split
        · next hText => simp [Item.IsText, hText]
        · next hText => simp [Item.IsText, hText]
    | cons child children => simp [writtenItem, Item.IsText, IsWord]

/-! ### Nodes that are read as themselves -/

theorem toTree_textItem (label text : List Char) :
    OpenList.toTree ⟨label, [textItem text]⟩ =
      leaf (String.ofList label)
        (String.ofList (if needsQuotes text then unescape (text.flatMap escapeChar) else text)) := by
  rw [textItem]
  by_cases h : needsQuotes text
  · simp [h, OpenList.toTree]
  · have hWord : isLabelAtom text = false := by
      rw [Bool.not_eq_true, needsQuotes, Bool.or_eq_false_iff] at h
      exact h.1
    simp [h, OpenList.toTree, hWord]

/-- A leaf is read as itself if and only if its text is. -/
theorem reread_leaf_eq_iff (label text : String) :
    (leaf label text).reread = leaf label text ↔ (leaf label text).TextReadsBack := by
  rw [reread, leaf, writtenItem, TextReadsBack]
  split
  · next hText =>
    obtain rfl : text = "" := String.isEmpty_iff.1 hText
    simp [Item.toTree, OpenList.toTree, needsQuotes, isLabelAtom]
  · split
    · next hLabel => simp [Item.toTree, leaf, hLabel]
    · next hLabel =>
      have hText (more : List Char) : String.ofList more = text ↔ more = text.toList := by
        rw [← String.toList_inj, String.toList_ofList]
      rw [Item.toTree, toTree_textItem, leaf, String.ofList_toList]
      by_cases hNeeds : needsQuotes text.toList
      · simp [hNeeds, hText, unescape_escape_eq_iff, hLabel]
      · simp [hNeeds]

/-- A node with children is read as itself if and only if its children are and it has no text and
no word as its only child. -/
theorem reread_node_eq_iff {label text : String} {children : List Tree} (hChildren : children ≠ [])
    (hLabels : ∀ child ∈ children, IsAtom child.label.toList) :
    (node label text children).reread = node label text children ↔
      text = "" ∧ (∀ child, children = [child] → ¬ child.IsWord) ∧
        ∀ child ∈ children, child.reread = child := by
  have hReread : (node label text children).reread =
      OpenList.toTree ⟨label.toList, (children.map writtenItem).reverse⟩ := by
    cases children with
    | nil => exact absurd rfl hChildren
    | cons child children => rw [reread, writtenItem, Item.toTree, writtenItems_eq_map]
  rw [hReread]
  by_cases hWord : ∃ child, children = [child] ∧ child.IsWord
  · obtain ⟨child, rfl, hWord⟩ := hWord
    have hText := (isText_writtenItem_iff (hLabels child (List.mem_singleton_self child))).2 hWord
    obtain ⟨other, hLeaf⟩ := OpenList.toTree_of_isText label.toList hText
    simp [hLeaf, leaf, hWord]
  · have hWords : ∀ child, children = [child] → ¬ child.IsWord := fun child hChild h =>
      hWord ⟨child, hChild, h⟩
    have hTexts : ∀ item, (children.map writtenItem).reverse = [item] → ¬ item.IsText := by
      intro item hItem
      obtain ⟨child, rfl, rfl⟩ : ∃ child, children = [child] ∧ child.writtenItem = item := by
        simpa [List.map_eq_singleton_iff] using List.reverse_eq_iff.1 hItem
      rw [isText_writtenItem_iff (hLabels child (List.mem_singleton_self child))]
      exact hWords child rfl
    have hMap : (children.map writtenItem).map Item.toTree = children ↔
        ∀ child ∈ children, child.reread = child := by
      have hReads : children.map reread = children.map id ↔
          ∀ child ∈ children, child.reread = child := List.map_inj_left
      rw [List.map_id] at hReads
      rw [List.map_map]
      exact hReads
    rw [OpenList.toTree_of_not_isText hTexts, String.ofList_toList, List.reverse_reverse,
      node.injEq, hMap]
    constructor
    · rintro ⟨-, hText, hRead⟩
      exact ⟨hText.symm, hWords, hRead⟩
    · rintro ⟨hText, -, hRead⟩
      exact ⟨rfl, hText.symm, hRead⟩

/-- A tree is read as itself if and only if all its nodes are. -/
theorem reread_eq_iff {tree : Tree} (hLabels : ∀ node ∈ tree.subtrees, IsAtom node.label.toList) :
    tree.reread = tree ↔ tree.TextsAtLeaves ∧ ∀ node ∈ tree.subtrees, node.ReadsBack := by
  induction tree using induction with
  | node label text children ih =>
    obtain ⟨hLabel, hBelow⟩ := forall_mem_subtrees.1 hLabels
    have hRoots : ∀ child ∈ children, IsAtom child.label.toList := fun child hChild =>
      hBelow child hChild child child.self_mem_subtrees
    rw [TextsAtLeaves, forall_mem_subtrees, forall_mem_subtrees]
    by_cases hChildren : children = []
    · subst hChildren
      have hLeaf := reread_leaf_eq_iff label text
      rw [leaf] at hLeaf
      rw [hLeaf]
      constructor
      · intro hText
        exact ⟨⟨by simp, by simp⟩, ⟨hLabel, fun _ => hText, by simp⟩, by simp⟩
      · rintro ⟨-, hRoot, -⟩
        exact hRoot.text rfl
    · rw [reread_node_eq_iff hChildren hRoots]
      constructor
      · rintro ⟨hText, hOnly, hRead⟩
        have hAll := fun child hChild => (ih child hChild (hBelow child hChild)).1 (hRead child hChild)
        exact ⟨⟨fun _ => hText, fun child hChild => (hAll child hChild).1⟩,
          ⟨hLabel, fun h => absurd h hChildren, hOnly⟩, fun child hChild => (hAll child hChild).2⟩
      · rintro ⟨⟨hText, hTexts⟩, hRoot, hNodes⟩
        refine ⟨hText hChildren, hRoot.onlyChild, fun child hChild => ?_⟩
        exact (ih child hChild (hBelow child hChild)).2 ⟨hTexts child hChild, hNodes child hChild⟩

/-- A tree is read from its own written form if and only if it has texts at its leaves only and all
its nodes are read back. -/
theorem read_render_iff (tree : Tree) :
    read tree.render = .ok tree ↔
      tree.TextsAtLeaves ∧ ∀ node ∈ tree.subtrees, node.ReadsBack := by
  constructor
  · intro h
    have hLabels := isAtom_of_read_render h
    rw [read_render hLabels] at h
    exact (reread_eq_iff hLabels).1 (Except.ok.inj h)
  · rintro ⟨hTexts, hNodes⟩
    have hLabels := fun node hNode => (hNodes node hNode).label
    rw [read_render hLabels, (reread_eq_iff hLabels).2 ⟨hTexts, hNodes⟩]

/-- An only child that is a word becomes the text of its parent. -/
example : read "(A (x x))" = .ok (node "A" "" [leaf "x" "x"]) ∧
    read (node "A" "" [leaf "x" "x"]).render = .ok (leaf "A" "x") := by
  constructor <;> decide +kernel

/-- A label that is not an atom falls apart. -/
example : read "(A \"b c\" D)" = .ok (node "A" "" [leaf "b c" "b c", leaf "D" "D"]) ∧
    read (node "A" "" [leaf "b c" "b c", leaf "D" "D"]).render =
      .ok (node "A" "" [leaf "b" "b", leaf "c" "c", leaf "D" "D"]) := by
  constructor <;> decide +kernel

/-! ### Trees that have been read -/

/-- A tree that is read from some text is read again from its own written form if and only if all
its nodes are read back. -/
theorem read_render_of_read_iff {text : String} {tree : Tree} (h : read text = .ok tree) :
    read tree.render = .ok tree ↔ ∀ node ∈ tree.subtrees, node.ReadsBack := by
  rw [read_render_iff]
  exact and_iff_right (demand_le_of_read h).1

/-- The tree `(Call (Name Id) (Text "say \"hi\"\n\t\\") (Int 3) (Nil))`. -/
def sampleCall : Tree :=
  node "Call" "" [node "Name" "" [leaf "Id" "Id"], leaf "Text" "say \"hi\"\n\t\\", leaf "Int" "3",
    leaf "Nil" ""]

/-- A text of the same tree, spaced and quoted in another way than its written form. -/
def sampleText : String :=
  "(Call(Name Id) (Text \"say \\\"hi\\\"\\n\\t\\\\\")\t( Int \"3\" )(Nil))\n"

theorem read_render_of_read_iff_sampleCall :
    read sampleText = .ok sampleCall ∧
      (read sampleCall.render = .ok sampleCall ↔ ∀ node ∈ sampleCall.subtrees, node.ReadsBack) := by
  have hRead : read sampleText = .ok sampleCall := by decide +kernel
  exact ⟨hRead, read_render_of_read_iff hRead⟩

/-- A carriage return inside quotes is read as it is, but it is written as an escape that is read as
the letter `r`. -/
theorem read_render_ne_carriageReturn :
    read "(A \"\r\")" = .ok (leaf "A" "\r") ∧
      read (leaf "A" "\r").render = .ok (leaf "A" "r") ∧ leaf "A" "r" ≠ leaf "A" "\r" := by
  refine ⟨?_, ?_, ?_⟩
  · decide +kernel
  · decide +kernel
  · decide

/-! ### Plain trees -/

/-- A node with an uppercase label and, if it is a leaf, a text that is easy to write. -/
structure IsPlain (node : Tree) : Prop where
  upper : isLabelAtom node.label.toList
  label : ∀ c ∈ node.label.toList, isAtomChar c
  inner : node.children ≠ [] → node.text = ""
  leaf : node.children = [] → node.TextReadsBack

instance (node : Tree) : Decidable node.IsPlain :=
  decidable_of_iff
    (isLabelAtom node.label.toList ∧ node.label.toList.all isAtomChar ∧
      (node.children ≠ [] → node.text = "") ∧ (node.children = [] → node.TextReadsBack))
    ⟨fun ⟨hUpper, hLabel, hInner, hLeaf⟩ => ⟨hUpper, List.all_eq_true.1 hLabel, hInner, hLeaf⟩,
      fun h => ⟨h.upper, List.all_eq_true.2 h.label, h.inner, h.leaf⟩⟩

theorem IsPlain.readsBack {node : Tree} (h : node.IsPlain)
    (hChildren : ∀ child ∈ node.children, child.IsPlain) : node.ReadsBack where
  label := ⟨by intro hLabel; simpa [hLabel, isLabelAtom] using h.upper, h.label⟩
  text := h.leaf
  onlyChild child hChild hWord := by
    have hUpper := (hChildren child (by simp [hChild])).upper
    rw [hWord.2.2] at hUpper
    exact absurd hUpper nofun

/-- Plain trees have texts at their leaves only, and all their nodes are read back. -/
theorem readsBack_of_isPlain {tree : Tree} (h : ∀ node ∈ tree.subtrees, node.IsPlain) :
    tree.TextsAtLeaves ∧ ∀ node ∈ tree.subtrees, node.ReadsBack := by
  refine ⟨fun node hNode => (h node hNode).inner, ?_⟩
  induction tree using induction with
  | node label text children ih =>
    obtain ⟨hRoot, hBelow⟩ := forall_mem_subtrees.1 h
    rw [forall_mem_subtrees]
    exact ⟨hRoot.readsBack fun child hChild => hBelow child hChild child child.self_mem_subtrees,
      fun child hChild => ih child hChild (hBelow child hChild)⟩

/-- A tree of plain nodes is read again from its own written form. -/
theorem read_render_of_isPlain {tree : Tree} (h : ∀ node ∈ tree.subtrees, node.IsPlain) :
    read tree.render = .ok tree :=
  (read_render_iff tree).2 (readsBack_of_isPlain h)

theorem read_render_of_isPlain_sampleCall :
    (∀ node ∈ sampleCall.subtrees, node.IsPlain) ∧ read sampleCall.render = .ok sampleCall := by
  have hPlain : ∀ node ∈ sampleCall.subtrees, node.IsPlain := by decide
  exact ⟨hPlain, read_render_of_isPlain hPlain⟩

end TreeGrammar.Tree
