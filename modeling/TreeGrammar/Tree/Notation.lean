import TreeGrammar.Text.Blank
import TreeGrammar.Text.Quoted
import TreeGrammar.Tree.Basic

/-!
# The notation of trees

Trees are written as nested lists:

* `(L)` is the leaf `L` without text;
* `(L text)` is the leaf `L` with a text, where the text is quoted if it starts with an uppercase
  letter or contains white space, a parenthesis or a double quote;
* `L` alone is the leaf `L` whose text is its label;
* `(L child ..)` is a node with children.

## Main definitions

* `Tree.isAtomChar`: the characters of unquoted labels and texts
* `Tree.isLabelAtom`: atoms that are read as labels
* `Tree.chars`, `Tree.render`: the written form of a tree
-/

namespace TreeGrammar.Tree

open Text

/-- A character of an atom: neither white space nor a parenthesis nor a double quote. -/
def isAtomChar (c : Char) : Bool :=
  !isBlank c && c != '(' && c != ')' && c != '"'

/-- Atoms that start with an uppercase letter of ASCII are labels. -/
def isLabelAtom (atom : List Char) : Bool :=
  atom.head?.any Char.isUpper

/-- The text of a leaf: as it is where it can be read back as a text, else quoted. -/
def textChars (text : List Char) : List Char :=
  if isLabelAtom text || text.any (!isAtomChar ·) then quote text else text

mutual

/-- The written form of a tree. -/
def chars : Tree → List Char
  | node label text [] =>
    if text.isEmpty then '(' :: (label.toList ++ [')'])
    else if text = label then label.toList
    else '(' :: (label.toList ++ ' ' :: (textChars text.toList ++ [')']))
  | node label _ (child :: children) =>
    '(' :: (label.toList ++ childrenChars (child :: children) ++ [')'])

/-- The written forms of the children of a node, a space before each. -/
def childrenChars : List Tree → List Char
  | [] => []
  | child :: children => ' ' :: (child.chars ++ childrenChars children)

end

/-- The written form of a tree, as a string. -/
def render (tree : Tree) : String := String.ofList tree.chars

end TreeGrammar.Tree
