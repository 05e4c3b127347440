import TreeGrammar.Text.Alphabetic
import TreeGrammar.Text.Numeric

/-!
# Literals and comments inside Rust code

The places in Rust code where delimiters and marks have no meaning: comments, strings, raw strings
and character literals. A quote that starts no character literal belongs to a lifetime.

## Main definitions

* `Literal`: the kinds of literals and comments that can be left open
* `literalLength`: the length of the literal or comment at a place

## Main results

* `literalLength_pos`: a literal is not empty
-/

namespace TreeGrammar

/-- The first character of an identifier: a letter or an underscore. -/
def isIdentStart (c : Char) : Bool := Text.isAlphabetic c || c = '_'

/-- A later character of an identifier: a letter, a digit or an underscore. -/
def isIdentChar (c : Char) : Bool := Text.isAlphabetic c || Text.isNumeric c || c = '_'

/-- What may be left open at the end of a text. -/
inductive Literal where
  | blockComment
  | string
  | rawString
  | character
  deriving DecidableEq, Repr

namespace Literal

/-- The number of characters up to the end of a line, the line feed excluded. -/
def lineLength (text : List Char) : Nat := (text.takeWhile (· ≠ '\n')).length

/-- The number of characters up to the end of the outermost of `depth` nested block comments; none
if it is left open. -/
def blockCommentLength (depth : Nat) : List Char → Option Nat
  | [] => none
  | '/' :: '*' :: rest => (blockCommentLength (depth + 1) rest).map (· + 2)
  | '*' :: '/' :: rest =>
    if depth ≤ 1 then some 2 else (blockCommentLength (depth - 1) rest).map (· + 2)
  | _ :: rest => (blockCommentLength depth rest).map (· + 1)

/-- The number of characters up to the closing quote of a string, which is counted; a backslash
takes the next character with it. None if the string is left open. -/
def stringLength : List Char → Option Nat
  | [] => none
  | '"' :: _ => some 1
  | '\\' :: _ :: rest => (stringLength rest).map (· + 2)
  | _ :: rest => (stringLength rest).map (· + 1)

/-- The number of characters up to the end of a raw string that closes with a quote and `hashes`
hash signs; none if it is left open. -/
def rawStringLength (hashes : Nat) : List Char → Option Nat
  | [] => none
  | c :: rest =>
    if c = '"' ∧ (List.replicate hashes '#').isPrefixOf rest then some (hashes + 1)
    else (rawStringLength hashes rest).map (· + 1)

/-- The number of characters up to the next single quote, which is counted. -/
def quoteLength : List Char → Option Nat
  | [] => none
  | '\'' :: _ => some 1
  | _ :: rest => (quoteLength rest).map (· + 1)

/-- The number of hash signs at the start of a text. -/
def hashCount (text : List Char) : Nat := (text.takeWhile (· = '#')).length

/-- An `r` starts a raw string if hash signs and a quote follow it and it does not end a longer
word; a `b` before it may belong to the string. `before` is the text before the `r`, its last
character first. -/
def startsRawString (before after : List Char) : Bool :=
  let before := if before.head? = some 'b' then before.tail else before
  !before.head?.any isIdentChar && (after.drop (hashCount after)).head? = some '"'

end Literal

open Literal in
/-- The number of characters of the literal or comment at the start of `text`, none if there is no
such thing, or the kind of the one that is left open. `before` is the text before, its last
character first. -/
def literalLength (before : List Char) (text : List Char) : Except Literal (Option Nat) :=
  let closed (kind : Literal) (start : Nat) : Option Nat → Except Literal (Option Nat)
    | some length => .ok (some (start + length))
    | none => .error kind
  match text with
  | '/' :: '/' :: rest => .ok (some (2 + lineLength rest))
  | '/' :: '*' :: rest => closed .blockComment 2 (blockCommentLength 1 rest)
  | '"' :: rest => closed .string 1 (stringLength rest)
  | 'r' :: rest =>
    if startsRawString before rest then
      let hashes := hashCount rest
      closed .rawString (2 + hashes) (rawStringLength hashes (rest.drop (hashes + 1)))
    else .ok none
  | '\'' :: '\\' :: rest =>
    closed .character (2 + (rest.take 1).length) (quoteLength (rest.drop 1))
  | '\'' :: _ :: '\'' :: _ => .ok (some 3)
  | _ => .ok none

/-- A literal is not empty. -/
theorem literalLength_pos {before text : List Char} {n : Nat}
    (h : literalLength before text = .ok (some n)) : 0 < n := by
  unfold literalLength at h
  grind

end TreeGrammar
