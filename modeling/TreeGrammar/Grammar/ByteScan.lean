import TreeGrammar.Grammar.Lexical
import TreeGrammar.Rounds
import TreeGrammar.Text.Slice

/-!
# Scanning by bytes

A scanner that is given a text and an offset cuts the text at offsets that it computes itself, and
nothing but its arithmetic keeps it from cutting within a character or past the end. Here all cuts
may fail, and all loops that move an offset are limited, so that a result means that every cut is
one between characters and that the loop comes to an end.

## Main definitions

* `ByteScan.literalEnd`: the end of the literal or comment at an offset
* `ByteScan.Place`: an offset with its position
* `ByteScan.trivia`, `ByteScan.code`, `ByteScan.recovery`, `ByteScan.markers`: the loops that step
  over literals
-/

namespace TreeGrammar

namespace ByteScan

open Literal Text

/-! ### Literals and comments -/

/-- The offset behind the closing quote of a string, of which the text from `offset` on is left. -/
def stringEndFrom (offset : Nat) : List Char → Except Literal Nat
  | [] => .error .string
  | '"' :: _ => .ok (offset + 1)
  | '\\' :: escaped :: rest => stringEndFrom (offset + 1 + escaped.utf8Size) rest
  | c :: rest => stringEndFrom (offset + c.utf8Size) rest

/-- The end of a string whose first character stands at `offset`. -/
def stringEnd (text : List Char) (offset : Nat) : Option (Except Literal Nat) :=
  (dropBytes? text offset).map (stringEndFrom offset)

/-- The `r` at `offset` starts a raw string. -/
def startsRawString (text : List Char) (offset : Nat) : Option Bool := do
  let before := (← takeBytes? text offset).reverse
  let before := if before.head? = some 'b' then before.tail else before
  if before.head?.any isIdentChar then return false
  else
    let after ← dropBytes? text (offset + 1)
    return (after.dropWhile (· = '#')).head? = some '"'

/-- The end of the raw string whose `r` stands at `offset`. -/
def rawStringEnd (text : List Char) (offset : Nat) : Option (Except Literal Nat) := do
  let hashes := hashCount (← dropBytes? text (offset + 1))
  let body := offset + 1 + hashes + 1
  let closing := '"' :: List.replicate hashes '#'
  match findBytes? closing (← dropBytes? text body) with
  | some stop => return .ok (body + stop + byteSize closing)
  | none => return .error .rawString

/-- A step of the search for the end of a block comment, at an offset from which the given text is
left, and with a number of comments that are open. -/
def blockCommentStep (offset : Nat) (depth : Int) : List Char → (Nat × Int) ⊕ Except Literal Nat
  | '/' :: '*' :: _ => .inl (offset + 2, depth + 1)
  | '*' :: '/' :: _ =>
    if depth - 1 = 0 then .inr (.ok (offset + 2)) else .inl (offset + 2, depth - 1)
  | rest => .inl (offset + rest.head?.elim 1 Char.utf8Size, depth)

/-- A round of the search for the end of a block comment. -/
def blockCommentRound (text : List Char) :
    Nat × Int → Option ((Nat × Int) ⊕ Except Literal Nat)
  | (offset, depth) =>
    if offset < byteSize text then
      (dropBytes? text offset).map (blockCommentStep offset depth)
    else some (.inr (.error .blockComment))

/-- The end of the block comment at `offset`. -/
def blockCommentEnd (limit : Nat) (text : List Char) (offset : Nat) :
    Option (Except Literal Nat) :=
  rounds none (blockCommentRound text) limit (offset, 0)

/-- The end of the literal or comment at `offset`, none if there is no such thing, or the kind of
the one that is left open. -/
def literalEnd (limit : Nat) (text : List Char) (offset : Nat) :
    Option (Except Literal (Option Nat)) := do
  let rest ← dropBytes? text offset
  match rest with
  | '/' :: '/' :: _ =>
    return .ok (some ((findBytes? ['\n'] rest).elim (byteSize text) (offset + ·)))
  | '/' :: '*' :: _ => return (← blockCommentEnd limit text offset).map some
  | '"' :: _ => return (← stringEnd text (offset + 1)).map some
  | 'r' :: _ =>
    if ← startsRawString text offset then return (← rawStringEnd text offset).map some
    else return .ok none
  | '\'' :: '\\' :: _ =>
    let body := offset + 2
    let escaped := (← dropBytes? text body).head?.elim 0 Char.utf8Size
    match findBytes? ['\''] (← dropBytes? text (body + escaped)) with
    | some stop => return .ok (some (body + escaped + stop + 1))
    | none => return .error .character
  | '\'' :: c :: '\'' :: _ => return .ok (some (offset + 1 + c.utf8Size + 1))
  | _ => return .ok none

/-! ### Places -/

/-- An offset in a text, and its position. -/
structure Place where
  offset : Nat
  span : Span
  deriving DecidableEq, Repr

namespace Place

variable (text : List Char) (place : Place)

/-- The text from a place on. -/
def rest? : Option (List Char) := dropBytes? text place.offset

/-- The place at a later offset. -/
def moveTo (offset : Nat) : Option Place :=
  (slice? text place.offset offset).map fun passed => ⟨offset, place.span.advance passed⟩

/-- The place behind the next character, if there is one. -/
def bump : Option Place := do
  match ← place.rest? text with
  | [] => return place
  | c :: _ => place.moveTo text (place.offset + c.utf8Size)

end Place

/-! ### White space and comments -/

/-- A round of skipping white space and comments. -/
def triviaRound (limit : Nat) (text : List Char) (place : Place) :
    Option (Place ⊕ Except (SyntaxError × Place) Place) := do
  match ← place.rest? text with
  | [] => return .inr (.ok place)
  | c :: rest =>
    if isBlank c then return .inl (← place.bump text)
    else if c = '/' ∧ (rest.head? = some '/' ∨ rest.head? = some '*') then
      match ← literalEnd limit text place.offset with
      | .ok (some stop) => return .inl (← place.moveTo text stop)
      | .ok none => return .inr (.ok place)
      | .error literal => return .inr (.error (⟨place.span, .unterminated literal⟩, place))
    else return .inr (.ok place)

/-- Skips white space and comments. -/
def trivia (limit : Nat) (text : List Char) (place : Place) :
    Option (Except (SyntaxError × Place) Place) :=
  rounds none (triviaRound limit text) limit place

/-! ### Code -/

/-- A round of the search for the end of code that begins at the position `start`. -/
def codeRound (limit : Nat) (text stops : List Char) (angle : Bool) (start : Span) :
    Place × Nesting → Option ((Place × Nesting) ⊕ Except (SyntaxError × Place) Place)
  | (place, nesting) => do
    match ← place.rest? text with
    | [] =>
      let (opening, opened) := nesting.opened.head?.getD ('\x7b', start)
      return .inr (.error (⟨opened, .unclosedDelimiter (Nesting.closing opening)⟩, place))
    | c :: rest =>
      match ← literalEnd limit text place.offset with
      | .ok (some stop) => return .inl (← place.moveTo text stop, nesting)
      | .error literal => return .inr (.error (⟨place.span, .unterminated literal⟩, place))
      | .ok none =>
        if nesting.isEmpty && stops.contains c then return .inr (.ok place)
        else if c = '-' ∧ rest.head? = some '>' then
          return .inl (← (← place.bump text).bump text, nesting)
        else
          match nesting.after angle c place.span with
          | .ok next => return .inl (← place.bump text, next)
          | .error cause => return .inr (.error (⟨place.span, cause⟩, place))

/-- Moves to the end of code. -/
def code (limit : Nat) (text stops : List Char) (angle : Bool) (place : Place) :
    Option (Except (SyntaxError × Place) Place) :=
  rounds none (codeRound limit text stops angle place.span) limit (place, {})

/-! ### Recovery -/

/-- A round of the search for the end of a faulty item, with a number of braces that are open. -/
def recoveryRound (limit : Nat) (text : List Char) :
    Place × Nat → Option ((Place × Nat) ⊕ Place)
  | (place, depth) => do
    match ← place.rest? text with
    | [] => return .inr place
    | c :: _ =>
      match ← literalEnd limit text place.offset with
      | .ok (some stop) => return .inl (← place.moveTo text stop, depth)
      | _ =>
        let next ← place.bump text
        if c = '\x7b' then return .inl (next, depth + 1)
        else if c = '\x7d' then return .inl (next, depth - 1)
        else if c = ';' ∧ depth = 0 then return .inr next
        else return .inl (next, depth)

/-- Moves past the end of a faulty item. -/
def recovery (limit : Nat) (text : List Char) (place : Place) : Option Place :=
  rounds none (recoveryRound limit text) limit (place, 0)

/-! ### Marks -/

/-- A mark in a piece of code that stands outside of all literals. -/
inductive Marker where
  /-- A mark with a name, and the bytes that they take. -/
  | reference (name : Ident) (start stop : Nat)
  | stray (span : Span)
  deriving DecidableEq, Repr

/-- The position of a byte of a piece of code. -/
def spanAt (fragment : Fragment) (offset : Nat) : Option Span :=
  let text := fragment.text.toList
  (takeBytes? text (min offset (byteSize text))).map fragment.span.advance

/-- A round of the search for marks, with the marks that have been found. -/
def markersRound (limit : Nat) (fragment : Fragment) :
    Nat × List Marker → Option ((Nat × List Marker) ⊕ List Marker)
  | (offset, found) =>
    let text := fragment.text.toList
    if offset < byteSize text then do
      match ← literalEnd limit text offset with
      | .ok (some stop) => return .inl (stop, found)
      | .error _ => return .inr found
      | .ok none =>
        let rest ← dropBytes? text offset
        let c := rest.head?.getD ' '
        if c = '@' ∧ rest[1]?.any isIdentStart then
          let length := byteSize ((← dropBytes? rest 1).takeWhile isIdentChar)
          let name ← slice? rest 1 (1 + length)
          let stop := offset + 1 + length
          let reference := .reference ⟨String.ofList name, ← spanAt fragment offset⟩ offset stop
          return .inl (stop, found ++ [reference])
        else if c = '@' then
          let before := (← takeBytes? text offset).reverse
          if (before.dropWhile isBlank).head?.any isIdentChar then
            return .inl (offset + c.utf8Size, found)
          else return .inl (offset + c.utf8Size, found ++ [.stray (← spanAt fragment offset)])
        else return .inl (offset + c.utf8Size, found)
    else return .inr found

/-- The marks in a piece of code. -/
def markers (limit : Nat) (fragment : Fragment) : Option (List Marker) :=
  rounds none (markersRound limit fragment) limit (0, [])

end ByteScan

end TreeGrammar
