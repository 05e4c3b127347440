import TreeGrammar.Host.Literal
import TreeGrammar.Host.Token
import TreeGrammar.Host.Trivia

/-!
# Reading tokens of Rust

## Main definitions

* `leaf?`: the token other than a group at the start of a text
* `lex`: the tokens of a text, none if it does not consist of tokens
-/

namespace TreeGrammar.Host

/-- A text begins a comment. -/
def startsComment : List Char → Bool
  | '/' :: '/' :: _ | '/' :: '*' :: _ => true
  | _ => false

/-- The text starts with a punctuation character. -/
def startsPunct (text : List Char) : Bool :=
  !startsComment text && text.head?.any fun c => c ∈ "~!@#$%^&*-=+|;:,<.>/?'".toList

/-- A text starts a literal that is left open or not well written, or a raw identifier after two
hash signs. -/
def startsBadLiteral (text : List Char) : Bool :=
  ["r\"", "r#\"", "r##", "b\"", "b'", "br\"", "br#", "c\"", "cr\"", "cr#"].any fun start =>
    start.toList.isPrefixOf text

/-- The length of an identifier, which `r#` may mark as raw; some keywords cannot be marked. -/
def identifierLength? (text : List Char) : Option Nat :=
  let isRaw := ['r', '#'].isPrefixOf text
  let text := if isRaw then text.drop 2 else text
  let length := wordLength text
  if length = 0 then none
  else if isRaw then
    if String.ofList (text.take length) ∈ ["_", "super", "self", "Self", "crate"] then none
    else some (length + 2)
  else some length

/-- The punctuation character at the start of a text. A single quote stands before the name of a
lifetime only. -/
def punct? (text : List Char) : Option Token :=
  match text with
  | c :: rest =>
    if !startsPunct text then none
    else if c = '\'' then
      (identifierLength? rest).bind fun length =>
        let next := (rest.drop length).head?
        if next = some '\'' ∨ next = some '#' ∧ !(['r', '#'].isPrefixOf rest) then none
        else some (.punct c true)
    else some (.punct c (startsPunct rest))
  | [] => none

/-- The literal, the punctuation character or the word at the start of a text, and the text after
it. -/
def leaf? (text : List Char) : Option (Token × List Char) :=
  match literalLength text with
  | some length => some (.literal (String.ofList (text.take length)), text.drop length)
  | none =>
    match punct? text with
    | some token => some (token, text.drop 1)
    | none =>
      if startsBadLiteral text then none
      else (identifierLength? text).map fun length =>
        (.word (String.ofList (text.take length)), text.drop length)

/-- The attribute for which a documentation comment stands. A carriage return in it has to stand
before a line feed. -/
def DocComment.tokens? (comment : DocComment) : Option (List Token) :=
  let rec returnsBeforeFeeds : List Char → Bool
    | [] => true
    | c :: rest => (c ≠ '\r' || rest.head? = some '\n') && returnsBeforeFeeds rest
  if returnsBeforeFeeds comment.text then
    some ([.punct '#' false] ++ (if comment.isInner then [.punct '!' false] else []) ++
      [.brackets [.word "doc", .punct '=' false, .string (String.ofList comment.text)]])
  else none

/-- The text of a literal that stands for one that is not well written. -/
def errorLiteral : String := "(/*ERROR*/)"

/-- The tokens of a text that follow the open groups on the stack; each has its delimiter and the
tokens before it, the last one first. `done` are the tokens of the innermost group so far, the last
one first. -/
def lexGroups (stack : List (Delimiter × List Token)) (done : List Token) (text : List Char) :
    Option (List Token) :=
  match _h : docComment? (afterTrivia text) with
  | some (comment, rest) =>
    match comment.tokens? with
    | some tokens => lexGroups stack (tokens.reverse ++ done) rest
    | none => none
  | none =>
    match _h : afterTrivia text with
    | [] => if stack.isEmpty then some done.reverse else none
    | c :: rest =>
      if errorLiteral.toList.isPrefixOf (c :: rest) then
        lexGroups stack (.literal errorLiteral :: done) (rest.drop (errorLiteral.length - 1))
      else
        match Delimiter.opening? c, Delimiter.closing? c, stack with
        | some delimiter, _, _ => lexGroups ((delimiter, done) :: stack) [] rest
        | none, some delimiter, (opened, before) :: stack =>
          if delimiter = opened then
            lexGroups stack (.group delimiter done.reverse :: before) rest
          else none
        | none, some _, [] => none
        | none, none, _ =>
          match leaf? (c :: rest) with
          | some (token, after) =>
            if after.length ≤ rest.length then lexGroups stack (token :: done) after else none
          | none => none
  termination_by text.length
  decreasing_by
    · have := length_lt_of_docComment _h
      have := length_afterTrivia_le text
      omega
    all_goals
      have h := length_afterTrivia_le text
      simp only [_h, List.length_cons] at h
      try simp only [List.length_drop]
      omega

/-- The tokens of a text, or none if it does not consist of tokens. A byte order mark at its start
is not part of it. -/
def lex (text : List Char) : Option (List Token) :=
  match text with
  | '\ufeff' :: rest => lexGroups [] [] rest
  | text => lexGroups [] [] text

end TreeGrammar.Host
