/-!
# Labelled trees

The trees that a tree grammar describes. A node has a label, on which grammars dispatch, a text,
which is the payload of a token, and an ordered list of children.

## Main definitions

* `Tree`: labelled trees
* `Tree.leaf`: a tree without children
* `Tree.size`: the number of nodes
-/

namespace TreeGrammar

/-- A labelled tree. -/
inductive Tree where
  | node (label text : String) (children : List Tree)

namespace Tree

/-- The label of the root. -/
def label : Tree → String
  | node label _ _ => label

/-- The text of the root. -/
def text : Tree → String
  | node _ text _ => text

/-- The children of the root, in order. -/
def children : Tree → List Tree
  | node _ _ children => children

/-- A tree without children. -/
def leaf (label text : String) : Tree := node label text []

instance : Inhabited Tree := ⟨leaf "" ""⟩

mutual

/-- The number of nodes, the root included. -/
def size : Tree → Nat
  | node _ _ children => 1 + sizes children

/-- The number of nodes of a list of trees. -/
def sizes : List Tree → Nat
  | [] => 0
  | tree :: trees => tree.size + sizes trees

end

mutual

/-- Equality of trees is decided node by node. -/
protected def decEq : (a b : Tree) → Decidable (a = b)
  | node label text children, node label' text' children' =>
    if hLabel : label = label' then
      if hText : text = text' then
        match Tree.decEqList children children' with
        | isTrue h => isTrue (by rw [hLabel, hText, h])
        | isFalse h => isFalse fun e => h (Tree.node.inj e).2.2
      else isFalse fun e => hText (Tree.node.inj e).2.1
    else isFalse fun e => hLabel (Tree.node.inj e).1

/-- Equality of lists of trees is decided element by element. -/
protected def decEqList : (as bs : List Tree) → Decidable (as = bs)
  | [], [] => isTrue rfl
  | [], _ :: _ => isFalse nofun
  | _ :: _, [] => isFalse nofun
  | a :: as, b :: bs =>
    match Tree.decEq a b with
    | isFalse h => isFalse fun e => h (List.cons.inj e).1
    | isTrue hHead =>
      match Tree.decEqList as bs with
      | isTrue hTail => isTrue (by rw [hHead, hTail])
      | isFalse h => isFalse fun e => h (List.cons.inj e).2

end

instance : DecidableEq Tree := Tree.decEq

end Tree

end TreeGrammar
