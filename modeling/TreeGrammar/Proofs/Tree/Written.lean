import TreeGrammar.Proofs.Tree.Language

/-!
# What written trees are read as

If all labels of a tree are atoms, its written form is read to the end, but not always as the same
tree: escapes in texts may not be undone, and an only child that is a lowercase word is taken for
the text of its parent. Here the tree is determined that is read instead.

## Main definitions

* `Tree.subtrees`: the nodes of a tree
* `Tree.reread`: the tree that the written form of a tree is read as

## Main results

* `Tree.isItem_chars`: the written form of a tree is the text of an item
* `Tree.read_render`: reading the written form of a tree gives `Tree.reread`
-/

namespace TreeGrammar.Tree

open Text

/-! ### The nodes of a tree -/

section

variable (name content : String) (trees : List Tree)

@[simp] theorem label_node : (node name content trees).label = name := rfl

@[simp] theorem text_node : (node name content trees).text = content := rfl

@[simp] theorem children_node : (node name content trees).children = trees := rfl

end

mutual

/-- The nodes of a tree, each with all that is below it. -/
def subtrees : Tree → List Tree
  | node label text children => node label text children :: subtreesOfList children

/-- The nodes of some trees. -/
def subtreesOfList : List Tree → List Tree
  | [] => []
  | tree :: trees => tree.subtrees ++ subtreesOfList trees

end

/-- Induction on trees, where a node may use what holds of its children. -/
theorem induction {motive : Tree → Prop}
    (node : ∀ label text children, (∀ child ∈ children, motive child) →
      motive (.node label text children)) (tree : Tree) : motive tree :=
  single tree
where
  single : ∀ tree, motive tree
    | .node label text children => node label text children (all children)
  all : ∀ trees : List Tree, ∀ child ∈ trees, motive child
    | [] => nofun
    | tree :: trees => List.forall_mem_cons.2 ⟨single tree, all trees⟩

theorem self_mem_subtrees (tree : Tree) : tree ∈ tree.subtrees := by
  cases tree with
  | node label text children => exact List.mem_cons_self

variable {p : Tree → Prop}

theorem forall_mem_subtreesOfList {trees : List Tree} :
    (∀ node ∈ subtreesOfList trees, p node) ↔ ∀ tree ∈ trees, ∀ node ∈ tree.subtrees, p node := by
  induction trees with
  | nil => simp [subtreesOfList]
  | cons tree trees ih => simp only [subtreesOfList, List.forall_mem_append, List.forall_mem_cons, ih]

/-- Something holds of all nodes if it holds of the root and of all nodes below its children. -/
theorem forall_mem_subtrees {label text : String} {children : List Tree} :
    (∀ tree ∈ (node label text children).subtrees, p tree) ↔
      p (node label text children) ∧ ∀ child ∈ children, ∀ tree ∈ child.subtrees, p tree := by
  rw [subtrees, List.forall_mem_cons, forall_mem_subtreesOfList]

/-! ### The items that are read -/

/-- A text has to be quoted: without quotes it would be a label, or it is not an atom. -/
def needsQuotes (text : List Char) : Bool := isLabelAtom text || text.any (!isAtomChar ·)

/-- The item that the text of a leaf is read as. -/
def textItem (text : List Char) : Item :=
  if needsQuotes text then .quoted (unescape (text.flatMap escapeChar)) else .atom text

mutual

/-- The item that the written form of a tree is read as. -/
def writtenItem : Tree → Item
  | node label text [] =>
    if text.isEmpty then .nested (OpenList.toTree ⟨label.toList, []⟩)
    else if text = label then .atom label.toList
    else .nested (OpenList.toTree ⟨label.toList, [textItem text.toList]⟩)
  | node label _ (child :: children) =>
    .nested (OpenList.toTree ⟨label.toList, (writtenItems (child :: children)).reverse⟩)

/-- The items that the written forms of some trees are read as. -/
def writtenItems : List Tree → List Item
  | [] => []
  | tree :: trees => tree.writtenItem :: writtenItems trees

end

theorem writtenItems_eq_map (trees : List Tree) : writtenItems trees = trees.map writtenItem := by
  induction trees with
  | nil => rfl
  | cons tree trees ih => rw [writtenItems, ih, List.map_cons]

/-- The tree that the written form of a tree is read as. -/
def reread (tree : Tree) : Tree := tree.writtenItem.toTree

/-! ### Written forms in the language of tree texts -/

theorem isAtom_of_not_needsQuotes {text : List Char} (hText : text ≠ [])
    (h : needsQuotes text = false) : IsAtom text := by
  rw [needsQuotes, Bool.or_eq_false_iff] at h
  exact ⟨hText, fun c hc => by simpa using List.any_eq_false.1 h.2 c hc⟩

theorem isItem_quote (text : List Char) :
    IsItem (quote text) (.quoted (unescape (text.flatMap escapeChar))) :=
  .string (isQuoted_of_splitQuoted (splitQuoted_quote text []))

/-- The written text of a leaf is the text of an item. -/
theorem isItem_textChars {text : List Char} (hText : text ≠ []) :
    IsItem (textChars text) (textItem text) := by
  change IsItem (if needsQuotes text then quote text else text) _
  rw [textItem]
  split
  · exact isItem_quote text
  · next hNeeds => exact .atom (isAtom_of_not_needsQuotes hText (Bool.not_eq_true _ ▸ hNeeds))

theorem delimits_childrenChars (trees : List Tree) : Delimits (childrenChars trees) := by
  cases trees with
  | nil => exact delimits_nil
  | cons tree trees => exact delimits_cons (by decide) _

theorem isBlankText_space : IsBlankText [' '] := by
  simp only [IsBlankText, List.forall_mem_singleton]
  decide

/-- The written children of a node are the texts of items. -/
theorem isItems_childrenChars {trees : List Tree}
    (h : ∀ tree ∈ trees, IsItem tree.chars tree.writtenItem) :
    IsItems (childrenChars trees) (writtenItems trees) := by
  induction trees with
  | nil => exact .nil isBlankText_nil
  | cons tree trees ih =>
    obtain ⟨hTree, hTrees⟩ := List.forall_mem_cons.1 h
    exact .cons isBlankText_space hTree (fun _ _ => delimits_childrenChars trees) (ih hTrees)

/-- A list is the text of an item, without white space in front of its label. -/
theorem isItem_list {label body : List Char} {items : List Item} (hLabel : IsAtom label)
    (hDelimits : Delimits body) (hBody : IsItems body items) :
    IsItem ('(' :: (label ++ (body ++ [')'])))
      (.nested (OpenList.toTree ⟨label, items.reverse⟩)) :=
  .list isBlankText_nil hLabel hDelimits hBody (denotes_toTree label items)

/-- The written form of a tree whose labels are atoms is the text of an item. -/
theorem isItem_chars {tree : Tree} (hLabels : ∀ node ∈ tree.subtrees, IsAtom node.label.toList) :
    IsItem tree.chars tree.writtenItem := by
  induction tree using induction with
  | node label text children ih =>
    obtain ⟨hLabel, hChildren⟩ := forall_mem_subtrees.1 hLabels
    rw [label_node] at hLabel
    cases children with
    | nil =>
      rw [chars, writtenItem]
      split
      case isTrue => exact isItem_list hLabel delimits_nil (.nil isBlankText_nil)
      case isFalse hText =>
        split
        case isTrue => exact .atom hLabel
        case isFalse =>
          have hNonempty : text.toList ≠ [] := by simpa using hText
          -- the text is the only item, with a space in front of it
          have hItems : IsItems (' ' :: (textChars text.toList ++ [])) [textItem text.toList] :=
            .cons isBlankText_space (isItem_textChars hNonempty) (fun _ _ => delimits_nil)
              (.nil isBlankText_nil)
          rw [List.append_nil] at hItems
          exact isItem_list hLabel (delimits_cons (by decide) _) hItems
    | cons child children =>
      rw [chars, writtenItem, List.append_assoc]
      exact isItem_list hLabel (delimits_childrenChars _)
        (isItems_childrenChars fun tree hTree => ih tree hTree (hChildren tree hTree))

/-- The written form of a tree whose labels are atoms is read, maybe as another tree. -/
theorem read_render {tree : Tree} (hLabels : ∀ node ∈ tree.subtrees, IsAtom node.label.toList) :
    read tree.render = .ok tree.reread := by
  have hTree := IsTree.intro isBlankText_nil (isItem_chars hLabels) isBlankText_nil
  rw [List.append_nil] at hTree
  rw [read, render, String.toList_ofList]
  exact hTree.readChars

end TreeGrammar.Tree
