import TreeGrammar.Tree.Basic
import TreeGrammar.Walk.Failure

/-!
# Cursors

A cursor moves over a list of siblings from left to right. Matching the children of a node uses a
cursor of its own, and the cursor of the node itself only moves past it.

## Main definitions

* `Cursor`: a place in a list of siblings with the nodes that remain
* `Cursor.root`, `Cursor.children`: the cursors with which walks and node matches start
* `Cursor.advance?`: the current node and the cursor past it
-/

namespace TreeGrammar

/-- A cursor over a list of siblings: their parent if they have one, the number of nodes that have
been passed, and the nodes that remain. -/
structure Cursor where
  parent : Option Tree
  index : Nat
  remaining : List Tree

namespace Cursor

/-- The cursor before a list of siblings without a parent. -/
def ofList (siblings : List Tree) : Cursor := ⟨none, 0, siblings⟩

/-- The cursor before a single tree. -/
def root (tree : Tree) : Cursor := ofList [tree]

/-- The cursor before the children of a node. -/
def children (node : Tree) : Cursor := ⟨some node, 0, node.children⟩

/-- The current node, none at the end of the list. -/
def peek? (cursor : Cursor) : Option Tree := cursor.remaining.head?

/-- The label of the current node. -/
def peekLabel? (cursor : Cursor) : Option String := cursor.peek?.map Tree.label

/-- The list is exhausted. -/
def atEnd (cursor : Cursor) : Bool := cursor.remaining.isEmpty

/-- The current node and the cursor past it. -/
def advance? (cursor : Cursor) : Option (Tree × Cursor) :=
  match cursor.remaining with
  | [] => none
  | node :: rest => some (node, { cursor with index := cursor.index + 1, remaining := rest })

/-- The place of the cursor. -/
def position (cursor : Cursor) : Position :=
  ⟨cursor.parent.map Tree.label, cursor.index⟩

end Cursor

end TreeGrammar
