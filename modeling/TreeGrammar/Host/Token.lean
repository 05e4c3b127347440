import TreeGrammar.Text.Quoted

/-!
# Tokens of host code

The host language of tree grammars is Rust: their code is written in it, and they are compiled to
it. Rust code is a list of tokens: words, punctuation characters, literals, and groups of tokens
between delimiters. Operators of several characters are runs of punctuation in which every character
but the last is joint with the next one. Tokens are printed on one line with single spaces, which
are left out after joint punctuation and just inside parentheses and brackets.

## Main definitions

* `Token`: the tokens
* `Token.word`, `Token.operator`, `Token.string`: how code is built from them
* `Token.print`: the text of a list of tokens
-/

namespace TreeGrammar.Host

/-- The delimiters of groups. -/
inductive Delimiter where
  | parenthesis
  | bracket
  | brace
  deriving DecidableEq, Repr

namespace Delimiter

/-- The delimiter that a character opens. -/
def opening? : Char → Option Delimiter
  | '(' => some parenthesis
  | '[' => some bracket
  | '{' => some brace
  | _ => none

/-- The delimiter that a character closes. -/
def closing? : Char → Option Delimiter
  | ')' => some parenthesis
  | ']' => some bracket
  | '}' => some brace
  | _ => none

end Delimiter

/-- A token of Rust. -/
inductive Token where
  /-- An identifier or a keyword. -/
  | word (text : String)
  /-- A punctuation character; it is joint if it forms an operator with the next one. -/
  | punct (char : Char) (joint : Bool)
  | literal (text : String)
  | group (delimiter : Delimiter) (tokens : List Token)
  deriving Repr

namespace Token

/-- The characters of an operator, joint with each other. -/
def operatorChars : List Char → List Token
  | [] => []
  | [c] => [punct c false]
  | c :: rest => punct c true :: operatorChars rest

/-- An operator. -/
def operator (text : String) : List Token := operatorChars text.toList

/-- The characters of a string literal. Unlike in a quoted text, NUL before an octal digit has a
hexadecimal escape, so that the digit does not seem to belong to it. -/
def stringChars : List Char → List Char
  | [] => ['"']
  | c :: rest =>
    if c = '\x00' ∧ rest.head?.any (fun d => '0' ≤ d && d ≤ '7') then
      "\\x00".toList ++ stringChars rest
    else Text.escapeChar c ++ stringChars rest

/-- A string literal with the given value. -/
def string (value : String) : Token :=
  literal (String.ofList ('"' :: stringChars value.toList))

/-- Groups in parentheses, brackets and braces. -/
def parens (tokens : List Token) : Token := group .parenthesis tokens
@[inherit_doc parens] def brackets (tokens : List Token) : Token := group .bracket tokens
@[inherit_doc parens] def braces (tokens : List Token) : Token := group .brace tokens

/-- The next token follows without a space. -/
def isJoint : Token → Bool
  | punct _ joint => joint
  | _ => false

mutual

/-- The text of a token. -/
def text : Token → String
  | word text => text
  | punct c _ => c.toString
  | literal text => text
  | group .parenthesis tokens => "(" ++ print tokens ++ ")"
  | group .bracket tokens => "[" ++ print tokens ++ "]"
  | group .brace [] => "\x7b \x7d"
  | group .brace (token :: tokens) => "\x7b " ++ print (token :: tokens) ++ " \x7d"

/-- The text of a list of tokens. -/
def print : List Token → String
  | [] => ""
  | [token] => token.text
  | token :: next :: tokens =>
    token.text ++ (if token.isJoint then "" else " ") ++ print (next :: tokens)

end

end Token

end TreeGrammar.Host
