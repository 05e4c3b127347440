import TreeGrammar.Text.Span
import TreeGrammar.Tree.Notation

/-!
# Reading the notation of trees

A text is split into tokens, parentheses, atoms and quoted strings, and the tokens are fed one by
one to a machine whose state is the list of the nodes that are still open. The first token that
does not fit decides the error.

## Main definitions

* `Tree.SyntaxError`: the ways in which a text fails to be a tree
* `Tree.Token`, `Tree.tokens`: the tokens of a text, with their offsets
* `Tree.ReaderState`, `Tree.ReaderState.step`: the machine
* `Tree.read`: the tree that a text denotes
-/

namespace TreeGrammar.Tree

open Text

/-- Why a text is not a tree. Offsets count bytes. -/
inductive SyntaxError where
  | unexpectedEnd
  | unexpectedClose (offset : Nat)
  | missingLabel (offset : Nat)
  | unterminatedString (offset : Nat)
  | trailingInput (offset : Nat)
  deriving DecidableEq, Repr

/-- The text of an error. -/
def SyntaxError.message : SyntaxError → String
  | .unexpectedEnd => "unexpected end of input"
  | .unexpectedClose offset => s!"unexpected `)` at offset {offset}"
  | .missingLabel offset => s!"a node label is expected at offset {offset}"
  | .unterminatedString offset => s!"unterminated string starting at offset {offset}"
  | .trailingInput offset => s!"trailing input at offset {offset}"

/-! ### Tokens -/

/-- The tokens of the notation. A quoted string that never closes is the last token of a text. -/
inductive Token where
  | opening
  | closing
  | atom (text : List Char)
  | quoted (text : List Char)
  | unterminated
  deriving DecidableEq, Repr

/-- Splits what follows a double quote at the quote that closes it. A backslash takes the next
character with it. -/
def splitQuoted : List Char → Option (List Char × List Char)
  | [] => none
  | '"' :: rest => some ([], rest)
  | '\\' :: c :: rest => (splitQuoted rest).map fun (body, rest) => ('\\' :: c :: body, rest)
  | c :: rest => (splitQuoted rest).map fun (body, rest) => (c :: body, rest)

theorem splitQuoted_eq {text body rest : List Char} (h : splitQuoted text = some (body, rest)) :
    text = body ++ '"' :: rest := by
  fun_induction splitQuoted text generalizing body rest with
  | case1 => simp at h
  | case2 => simp_all
  | case3 c rest ih =>
    simp only [Option.map_eq_some_iff, Prod.mk.injEq, Prod.exists] at h
    obtain ⟨body, rest, h, rfl, rfl⟩ := h
    rw [ih h]
    rfl
  | case4 c rest _ _ ih =>
    simp only [Option.map_eq_some_iff, Prod.mk.injEq, Prod.exists] at h
    obtain ⟨body, rest, h, rfl, rfl⟩ := h
    rw [ih h]
    rfl

/-- The text that stands between two quotes: an escaped `n` is a line feed, an escaped `t` a tab,
and any other escaped character stands for itself. -/
def unescape : List Char → List Char
  | '\\' :: 'n' :: rest => '\n' :: unescape rest
  | '\\' :: 't' :: rest => '\t' :: unescape rest
  | '\\' :: c :: rest => c :: unescape rest
  | c :: rest => c :: unescape rest
  | [] => []

/-- The tokens of a text that starts at `offset`, each with its own offset. -/
def tokens (offset : Nat) (text : List Char) : List (Nat × Token) :=
  match text with
  | [] => []
  | c :: rest =>
    if isBlank c then tokens (offset + c.utf8Size) rest
    else if c = '(' then (offset, .opening) :: tokens (offset + 1) rest
    else if c = ')' then (offset, .closing) :: tokens (offset + 1) rest
    else if c = '"' then
      match h : splitQuoted rest with
      | some (body, rest') =>
        (offset, .quoted (unescape body)) :: tokens (offset + byteSize body + 2) rest'
      | none => [(offset, .unterminated)]
    else
      let atom := c :: rest.takeWhile isAtomChar
      (offset, .atom atom) :: tokens (offset + byteSize atom) (rest.dropWhile isAtomChar)
termination_by text.length
decreasing_by
  all_goals simp only [List.length_cons]
  · omega
  · omega
  · omega
  · have := splitQuoted_eq h
    simp only [this, List.length_append, List.length_cons]
    omega
  · have := (List.dropWhile_sublist isAtomChar (l := rest)).length_le
    omega

/-! ### The machine -/

/-- An item of a list: an atom, a quoted string or a list of its own. -/
inductive Item where
  | atom (text : List Char)
  | quoted (text : List Char)
  | nested (tree : Tree)

/-- The tree that an item denotes as a child: an atom or a string is a leaf with itself as text. -/
def Item.toTree : Item → Tree
  | .atom text => leaf (String.ofList text) (String.ofList text)
  | .quoted text => leaf (String.ofList text) (String.ofList text)
  | .nested tree => tree

/-- A list that is still open: its label and its items so far, the last one first. -/
structure OpenList where
  label : List Char
  items : List Item

/-- One more item. -/
def OpenList.push (list : OpenList) (item : Item) : OpenList :=
  { list with items := item :: list.items }

/-- The tree of a list that is complete. A single string, or a single atom that is no label, is
the text of a leaf; otherwise the items are children. -/
def OpenList.toTree (list : OpenList) : Tree :=
  let children := node (String.ofList list.label) "" (list.items.reverse.map Item.toTree)
  match list.items with
  | [.quoted text] => leaf (String.ofList list.label) (String.ofList text)
  | [.atom text] =>
    if isLabelAtom text then children else leaf (String.ofList list.label) (String.ofList text)
  | _ => children

/-- What has been read of a tree. -/
inductive ReaderState where
  /-- Nothing. -/
  | root
  /-- An opening parenthesis, whose label follows; the lists around it, the innermost first. -/
  | label (outer : List OpenList)
  /-- Some items of a list; the lists around it. -/
  | items (list : OpenList) (outer : List OpenList)
  /-- A whole tree. -/
  | done (tree : Tree)

/-- The state after the innermost list is closed. -/
def ReaderState.close (list : OpenList) : List OpenList → ReaderState
  | [] => .done list.toTree
  | parent :: outer => .items (parent.push (.nested list.toTree)) outer

/-- The state after one more token, which stands at `offset`. -/
def ReaderState.step (state : ReaderState) : Nat × Token → Except SyntaxError ReaderState
  | (offset, token) =>
    match state, token with
    | .root, .opening => .ok (.label [])
    | .root, .closing => .error (.unexpectedClose offset)
    | .root, .atom text => .ok (.done (Item.atom text).toTree)
    | .root, .quoted text => .ok (.done (Item.quoted text).toTree)
    | .root, .unterminated => .error (.unterminatedString offset)
    | .label outer, .atom text => .ok (.items ⟨text, []⟩ outer)
    | .label _, _ => .error (.missingLabel offset)
    | .items list outer, .opening => .ok (.label (list :: outer))
    | .items list outer, .closing => .ok (close list outer)
    | .items list outer, .atom text => .ok (.items (list.push (.atom text)) outer)
    | .items list outer, .quoted text => .ok (.items (list.push (.quoted text)) outer)
    | .items _ _, .unterminated => .error (.unterminatedString offset)
    | .done _, _ => .error (.trailingInput offset)

/-- The tree that has been read when the text ends. -/
def ReaderState.finish : ReaderState → Except SyntaxError Tree
  | .done tree => .ok tree
  | _ => .error .unexpectedEnd

/-- Reads a list of characters as a tree. -/
def readChars (text : List Char) : Except SyntaxError Tree :=
  (tokens 0 text).foldlM ReaderState.step .root >>= ReaderState.finish

/-- Reads a text as a tree. -/
def read (text : String) : Except SyntaxError Tree :=
  readChars text.toList

end TreeGrammar.Tree
