import TreeGrammar.Walk.Failure

/-!
# Lookahead sets

What may be seen at a place in a list of siblings: a node with one of some labels, a node of
whatever label, or the end of the list.

## Main definitions

* `LookaheadSet`: a set of such symbols
* `LookaheadSet.union`, `LookaheadSet.overlap`: what either or both of two sets accept
* `LookaheadSet.expected`: its symbols as they are named to a reader
-/

namespace TreeGrammar

/-- A set of symbols that may come next: labelled nodes, any node, and the end of the list. -/
structure LookaheadSet where
  labels : LabelSet := ∅
  any : Bool := false
  atEnd : Bool := false
  deriving DecidableEq, Inhabited

namespace LookaheadSet

/-- The set that accepts nothing. -/
def empty : LookaheadSet := {}

instance : EmptyCollection LookaheadSet := ⟨empty⟩

/-- The set of the nodes with one label. -/
def ofLabel (label : String) : LookaheadSet := { labels := .singleton label }

/-- The set of all nodes. -/
def anyNode : LookaheadSet := { any := true }

/-- The set of the end of a list. -/
def endOfList : LookaheadSet := { atEnd := true }

/-- Nothing is accepted. -/
def isEmpty (set : LookaheadSet) : Bool :=
  set.labels.toList.isEmpty && !set.any && !set.atEnd

/-- What either of two sets lists. -/
def union (a b : LookaheadSet) : LookaheadSet :=
  { labels := a.labels.union b.labels, any := a.any || b.any, atEnd := a.atEnd || b.atEnd }

/-- What both of two sets accept. A set with any node shares all labels of the other one. -/
def overlap (a b : LookaheadSet) : LookaheadSet where
  labels :=
    let shared := a.labels.inter b.labels
    let shared := if a.any then shared.union b.labels else shared
    if b.any then shared.union a.labels else shared
  any := a.any && b.any
  atEnd := a.atEnd && b.atEnd

/-- Two sets accept a common symbol. -/
def intersects (a b : LookaheadSet) : Bool := !(a.overlap b).isEmpty

/-- A node with the given label is accepted. -/
def acceptsLabel (set : LookaheadSet) (label : String) : Bool :=
  set.any || label ∈ set.labels

/-- The label of the next node is accepted, or the end of the list if there is no node. -/
def accepts (set : LookaheadSet) : Option String → Bool
  | some label => set.acceptsLabel label
  | none => set.atEnd

/-- The names of what is accepted: the labels in order, then any node, then the end. -/
def expected (set : LookaheadSet) : List String :=
  set.labels.toList ++ (if set.any then [TreeGrammar.anyNode] else []) ++
    (if set.atEnd then [endOfChildren] else [])

/-- The text of a set, its names between braces. -/
protected def toString (set : LookaheadSet) : String :=
  "\x7b" ++ ", ".intercalate set.expected ++ "\x7d"

/-- The order of sets: by labels, then without any node before with it, then without the end
before with it. -/
def compare (a b : LookaheadSet) : Ordering :=
  (a.labels.compare b.labels).then ((Ord.compare a.any b.any).then (Ord.compare a.atEnd b.atEnd))

end LookaheadSet

end TreeGrammar
