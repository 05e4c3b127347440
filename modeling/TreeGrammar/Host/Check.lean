import TreeGrammar.Host.ItemForm
import TreeGrammar.Host.Lexer

/-!
# Checking Rust code

Pieces of Rust code are checked for being a type, an expression, a list of parameters or of
arguments, or a file.

## Main definitions

* `readType`, `readExpression`, `readFile`: the check of a text
* `readParameters`: the parameters that a text lists
* `readArguments`: the arguments that a text lists
* `readSignatures`: the public functions of a module
-/

namespace TreeGrammar.Host

open Construct Pattern in
/-- The pattern of each construct. -/
def productions : Productions
  | .type true => typeForm true
  | .type false => typeForm false
  | .genericArguments => genericArgumentsForm
  | .bound => boundForm
  | .expression true => expressionForm true
  | .expression false => expressionForm false
  | .operand true => operandForm true
  | .operand false => operandForm false
  | .conditional => conditionalForm
  | .blockLike => blockLikeForm
  | .arm => armForm
  | .block true => blockForm true
  | .block false => blockForm false
  | .pattern true => topPatternForm
  | .pattern false => patternForm
  | .item true => itemForm true
  | .item false => itemForm false
  | .useTree => useTreeForm

/-- A text consists of one identifier that is no keyword. -/
def isIdentifier (text : String) : Bool :=
  match lex text.toList with
  | some [.word found] => found ∉ keywords
  | _ => false

/-- The tokens of a text. -/
def readTokens (text : List Char) : Except Refusal (List Token) :=
  match lex text with
  | some tokens => .ok tokens
  | none => .error .mismatch

/-- The check that a text consists of tokens that match a pattern. -/
def readText (pattern : Pattern) (text : List Char) : Except Refusal Unit := do
  let tokens ← readTokens text
  let _ ← productions.readAll pattern tokens

/-- The check of a type. -/
def readType (text : String) : Except Refusal Unit := readText (.rule (.type true)) text.toList

/-- The check of an expression. -/
def readExpression (text : String) : Except Refusal Unit :=
  readText (.rule (.expression true)) text.toList

/-- The text of a file without its first line, if this is a line for the shell that runs it, and
without a byte order mark at its start. -/
def withoutShebang (text : List Char) : List Char :=
  let text := match text with
    | '\ufeff' :: rest => rest
    | text => text
  match text with
  | '#' :: '!' :: rest =>
    if (afterTrivia rest).head? = some '[' then text else text.dropWhile (· ≠ '\n')
  | text => text

/-- The check of a file. -/
def readFile (text : String) : Except Refusal Unit :=
  readText (Construct.innerAttributes ++ .untilEnd (.rule (.item false)))
    (withoutShebang text.toList)

/-- A parameter of a function. -/
inductive Parameter where
  /-- A name, which may be changed in the function. -/
  | named (name : String)
  /-- The value that a method is called on. -/
  | receiver
  /-- A pattern other than a name. -/
  | complex
  deriving DecidableEq, Repr

/-- A list of tokens starts with what a pattern matches. -/
def startsWith (pattern : Pattern) (tokens : List Token) : Bool :=
  (productions.read pattern tokens).isOk

/-- What kind of parameter a list of tokens starts with. -/
def parameterKind (tokens : List Token) : Parameter :=
  if startsWith (Construct.outerAttributes ++ Construct.plainReceiver) tokens then .receiver
  else
    let name : Pattern :=
      .ahead (.word "mut" ++ .anyWord <|> .identifier <|> .word "self") ++ .opt (.word "mut")
    match productions.read (Construct.outerAttributes ++ name) tokens with
    | .ok found =>
      match found.rest with
      | .word name :: rest => if startsWith Construct.colon rest then .named name else .complex
      | _ => .complex
    | .error _ => .complex

/-- The items of a list, each of which a pattern matches, with commas between them. A comma may
stand after the last one. Gives for each item the tokens from its start on, and its normal form. -/
def readItems (pattern : Pattern) (tokens : List Token) :
    Except Refusal (List (List Token × List Token)) :=
  if tokens.isEmpty then .ok []
  else do
    let found ← productions.read pattern tokens
    let item := (tokens, found.output)
    match found.rest with
    | [] => return [item]
    | .punct ',' _ :: rest =>
      if rest.length < tokens.length then return item :: (← readItems pattern rest)
      else throw .mismatch
    | _ => throw .mismatch
  termination_by tokens.length

/-- The parameters that a text lists. -/
def readParameters (text : String) : Except Refusal (List Parameter) := do
  let items ← readItems Construct.parameterForm (← readTokens text.toList)
  return items.map fun (tokens, _) => parameterKind tokens

/-- The arguments that a text lists, in normal form. -/
def readArguments (text : List Char) : Except Refusal (List (List Token)) := do
  let items ← readItems (.rule (.expression true)) (← readTokens text)
  return items.map Prod.snd

/-- The signature of a public function with a body at the start of a list of tokens. -/
def publicSignature? (tokens : List Token) : Option (List Token) :=
  let head := Construct.outerAttributes ++ .word "pub" ++
    .notAhead (Construct.restriction)
  match productions.read head tokens with
  | .ok head =>
    match productions.read (Construct.signature ++ .ahead .anyBraces) head.rest with
    | .ok signature => some signature.output
    | .error _ => none
  | .error _ => none

/-- The signatures of the public functions among some items. -/
def readItemSignatures (tokens : List Token) : Except Refusal (List (List Token)) :=
  if tokens.isEmpty then .ok []
  else do
    let item ← productions.read (.rule (.item false)) tokens
    if item.rest.length < tokens.length then
      return (publicSignature? tokens).toList ++ (← readItemSignatures item.rest)
    else throw .mismatch
  termination_by tokens.length

/-- The signatures of the public functions of a module, given its contents. -/
def readSignatures (tokens : List Token) : Except Refusal (List (List Token)) := do
  let head ← productions.read Construct.innerAttributes tokens
  readItemSignatures head.rest

end TreeGrammar.Host
