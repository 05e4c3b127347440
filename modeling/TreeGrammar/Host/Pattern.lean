import TreeGrammar.Host.Literal
import TreeGrammar.Host.Token

/-!
# Patterns of tokens

The constructs of Rust are described by patterns. A pattern looks ahead to decide how it goes on,
and never comes back to a decision: a branch whose test matches has to match as well. Patterns may
name constructs, which stand for their patterns. What a pattern matches is printed again in a normal
form: every operator that the pattern names is one unit, which is never joint with the next one.

## Main definitions

* `Construct`: names of constructs
* `Pattern`: patterns
* `Refusal`: why tokens are not read
* `Pattern.read`: what a pattern matches at the start of a list of tokens
* `Productions`: a pattern for each construct, and what these patterns match
-/

namespace TreeGrammar.Host

/-- The words that are no identifiers. -/
def keywords : List String :=
  ["_", "abstract", "as", "become", "box", "break", "const", "continue", "crate", "do", "else",
   "enum", "extern", "false", "final", "fn", "for", "if", "impl", "in", "let", "loop", "macro",
   "match", "mod", "move", "mut", "override", "priv", "pub", "ref", "return", "Self", "self",
   "static", "struct", "super", "trait", "true", "type", "typeof", "unsafe", "unsized", "use",
   "virtual", "where", "while", "yield"]

/-- A construct of Rust that may stand inside a construct of the same kind. -/
inductive Construct where
  /-- A type; without plus, it is no list of bounds. -/
  | type (plus : Bool)
  | genericArguments
  | bound
  /-- An expression; without structs, a brace after a path does not belong to it. -/
  | expression (structs : Bool)
  /-- An operand with the operators before it. -/
  | operand (structs : Bool)
  | conditional
  /-- An expression that ends with a block. -/
  | blockLike
  /-- A branch of a match. -/
  | arm
  /-- Statements between braces, after attributes of the block if these are allowed. -/
  | block (attributes : Bool)
  /-- A pattern; a top pattern may consist of several ones. -/
  | pattern (top : Bool)
  /-- An item; some items are printed as they are, in a block without their attributes. -/
  | item (inBlock : Bool)
  | useTree
  deriving DecidableEq, Repr

/-- A pattern of tokens. -/
inductive Pattern where
  /-- No token. -/
  | nothing
  | never
  /-- Tokens that are not read at all, whatever stands around them. -/
  | unreadable
  /-- The given word. -/
  | word (text : String)
  /-- A word that is no keyword. -/
  | identifier
  | anyWord
  | anyToken
  /-- The name of a lifetime. -/
  | lifetime
  /-- A value: a literal, a truth value, or a number with a sign. -/
  | literal
  /-- A string that is made of text. -/
  | textLiteral
  /-- A literal that counts the fields of a value, or two of them with a point between. If the
  second one is left out, the point still stands; such a literal is said to be open. -/
  | fieldNumbers (isOpen two : Bool)
  /-- An operator, or the start of one. -/
  | op (text : String)
  /-- A group with all of its contents. -/
  | group (delimiter : Delimiter) (contents : Pattern)
  /-- A group with whatever contents, which are printed as they are. -/
  | anyGroup
  /-- All tokens up to the end, which are printed as they are. -/
  | verbatim
  | atEnd
  | seq (first second : Pattern)
  /-- The second pattern if the first one does not match. -/
  | choice (first second : Pattern)
  /-- The second or the third pattern, as the first one matches or not. -/
  | branch (test yes no : Pattern)
  /-- The second pattern, as often as the first one matches. -/
  | many (test body : Pattern)
  /-- What follows matches; it is not taken. -/
  | ahead (pattern : Pattern)
  /-- What follows does not match. -/
  | notAhead (pattern : Pattern)
  /-- A match that is printed differently, given the tokens as they are and in normal form. -/
  | printed (pattern : Pattern) (form : List Token → List Token → List Token)
  /-- A first pattern after which the test decides: a tail may follow, with which everything is
  printed as it is, or the rest. -/
  | extended (first test tail rest : Pattern)
  /-- The two patterns one after the other, which are printed in the other order. -/
  | swapped (first second : Pattern)
  /-- Items with commas between them up to an angle bracket. Those for which the test matches are
  read by the second pattern and printed before the others, which the third pattern reads. -/
  | sorted (test leading other : Pattern)
  /-- What the pattern of a construct matches. -/
  | rule (construct : Construct)

/-- Why tokens are not read. -/
inductive Refusal where
  /-- They do not fit. -/
  | mismatch
  /-- They cannot be read at all. -/
  | unreadable
  deriving DecidableEq, Repr

/-- The result of reading is that something cannot be read at all. -/
def isUnreadable {α : Type} : Except Refusal α → Bool
  | .error .unreadable => true
  | _ => false

/-- What a pattern has matched, in normal form, and the tokens after it. -/
structure Match where
  output : List Token
  rest : List Token

/-- The result of reading tokens. -/
abbrev Reading := Except Refusal Match

namespace Pattern

instance : Append Pattern := ⟨seq⟩

instance : OrElse Pattern := ⟨fun first second => choice first (second ())⟩

/-- A pattern that follows if the test matches. -/
def given (test body : Pattern) : Pattern := branch test body nothing

/-- A pattern that may be left out. -/
def opt (pattern : Pattern) : Pattern := pattern <|> nothing

/-- A match that is not printed. -/
def omitted (pattern : Pattern) : Pattern := printed pattern fun _ _ => []

/-- A match that is printed as it is. -/
def asWritten (pattern : Pattern) : Pattern := printed pattern fun source _ => source

/-- An operator that is printed like another one. -/
def opAs (text shown : String) : Pattern := printed (op text) fun _ _ => Token.operator shown

/-- Groups in parentheses, brackets and braces. -/
def parens (contents : Pattern) : Pattern := group .parenthesis contents
@[inherit_doc parens] def brackets (contents : Pattern) : Pattern := group .bracket contents
@[inherit_doc parens] def braces (contents : Pattern) : Pattern := group .brace contents

/-- Groups in parentheses, brackets and braces with whatever contents. -/
def anyParens : Pattern := parens verbatim
@[inherit_doc anyParens] def anyBrackets : Pattern := brackets verbatim
@[inherit_doc anyParens] def anyBraces : Pattern := braces verbatim

/-- One of some words. -/
def words : List String → Pattern
  | [] => never
  | [text] => word text
  | text :: texts => word text <|> words texts

/-- One of some operators. -/
def ops : List String → Pattern
  | [] => never
  | [text] => op text
  | text :: texts => op text <|> ops texts

/-- An operator that is no start of one of some longer operators. -/
def opNot (text : String) (longer : List String) : Pattern := notAhead (ops longer) ++ op text

/-- Items with commas between them up to something; there may be a comma after the last one. -/
def listUntil (stop item : Pattern) : Pattern :=
  many (notAhead stop) (item ++ branch stop nothing (op ","))

/-- Items with commas between them up to the end; there may be a comma after the last one. -/
def commaList (item : Pattern) : Pattern := listUntil atEnd item

/-- Items with plus signs between them up to something, which may stand after a plus sign. -/
def plusList (stop item : Pattern) : Pattern :=
  branch stop nothing
    (item ++ many (op "+") (op "+" ++ branch stop (notAhead (op "+")) item))

/-- Items up to the end. -/
def untilEnd (item : Pattern) : Pattern := many (notAhead atEnd) item

/-- What is left of a list of tokens after an operator. -/
def afterOperator : List Char → List Token → Option (List Token)
  | [], tokens => some tokens
  | [c], .punct d _ :: tokens => if c = d then some tokens else none
  | c :: rest, .punct d true :: tokens => if c = d then afterOperator rest tokens else none
  | _, _ => none

/-! ### Numbers of fields -/

/-- The value of digits with underscores between them, if there is at least one digit and none
that the base does not have. -/
def digitsValue? (base : Nat) (text : List Char) : Option Nat :=
  let digits := text.filter (· ≠ '_')
  if digits.isEmpty then none
  else digits.foldlM (fun value c =>
    (digit? c).bind fun digit => if digit < base then some (value * base + digit) else none) 0

/-- The value of an integer without a suffix. -/
def integerValue? : List Char → Option Nat
  | '0' :: 'x' :: digits => digitsValue? 16 digits
  | '0' :: 'o' :: digits => digitsValue? 8 digits
  | '0' :: 'b' :: digits => digitsValue? 2 digits
  | digits => digitsValue? 10 digits

/-- The number of a field, as it is printed. -/
def fieldNumber? (text : List Char) : Option Token :=
  (integerValue? text).bind fun value =>
    if value < 0x100000000 then some (.literal (toString value)) else none

/-- The numbers of fields that a literal gives. -/
def fieldNumbers? (isOpen two : Bool) (text : String) : Option (List Token) :=
  let isPoint (c : Char) : Bool := c = '.'
  let first := fieldNumber? (text.toList.takeWhile (!isPoint ·))
  let point : Token := .punct '.' false
  match isOpen, two, text.toList.dropWhile (!isPoint ·) with
  | false, false, [] => first.map ([·])
  | true, true, [_] => first.map ([·, point])
  | false, true, _ :: second :: digits =>
    first.bind fun a => (fieldNumber? (second :: digits)).map ([a, point, ·])
  | _, _, _ => none

/-! ### Reading -/

/-- A reading of some tokens at the start of a list. -/
def take (output rest : List Token) : Reading := .ok ⟨output, rest⟩

/-- A reading of a literal that is printed as given, if it is. Strings without NUL and literals that
are not well written are not read. -/
def takeLiteral (text : String) (output : Option (List Token)) (rest : List Token) : Reading :=
  if text.front = 'c' ∨ text.front = '(' then .error .unreadable
  else match output with
    | some output => take output rest
    | none => .error .mismatch

/-- Something is read or does not fit. -/
def fits (reading : Reading) : Except Refusal Bool :=
  match reading with
  | .ok _ => .ok true
  | .error .mismatch => .ok false
  | .error .unreadable => .error .unreadable

/-- What is taken from a list of tokens to leave the rest. -/
def taken (tokens rest : List Token) : List Token := tokens.take (tokens.length - rest.length)

/-- Takes a step as often as the test fits and something is read, at most `bound` times. -/
def repeated (test step : List Token → Reading) : Nat → List Token → Reading
  | 0, tokens => take [] tokens
  | bound + 1, tokens => do
    if ← fits (test tokens) then
      let found ← step tokens
      if found.rest.length < tokens.length then
        let later ← repeated test step bound found.rest
        take (found.output ++ later.output) later.rest
      else take [] tokens
    else take [] tokens

/-- An item of a list that is sorted. -/
structure Entry where
  /-- The item comes before those that do not lead. -/
  leads : Bool
  output : List Token
  /-- A comma stands after the item. -/
  hasComma : Bool

/-- The items of a list in the order in which they are printed. Where the last of the leading items
has no comma, it gets one if others follow. -/
def Entry.print (entries : List Entry) : List Token :=
  let comma := Token.operator ","
  let others := entries.filter (!·.leads)
  (entries.filter (·.leads)).flatMap (fun entry =>
      entry.output ++ if entry.hasComma || !others.isEmpty then comma else []) ++
    others.flatMap fun entry => entry.output ++ if entry.hasComma then comma else []

/-- Reads the items of a list that is sorted, at most `bound` ones. -/
def readEntries (test leading other : List Token → Reading) :
    Nat → List Token → Except Refusal (List Entry × List Token)
  | 0, tokens => .ok ([], tokens)
  | bound + 1, tokens =>
    if (afterOperator ['>'] tokens).isSome then .ok ([], tokens)
    else do
      let leads ← fits (test tokens)
      let found ← if leads then leading tokens else other tokens
      if (afterOperator ['>'] found.rest).isSome then
        return ([⟨leads, found.output, false⟩], found.rest)
      match afterOperator [','] found.rest with
      | some rest =>
        let (later, rest) ← readEntries test leading other bound rest
        return (⟨leads, found.output, true⟩ :: later, rest)
      | none => throw .mismatch

/-- What a pattern matches at the start of a list of tokens, given what constructs match. -/
def read (rules : Construct → List Token → Reading) : Pattern → List Token → Reading
  | nothing, tokens => take [] tokens
  | never, _ => .error .mismatch
  | unreadable, _ => .error .unreadable
  | word text, tokens =>
    match tokens with
    | .word found :: rest => if found = text then take [.word found] rest else .error .mismatch
    | _ => .error .mismatch
  | identifier, tokens =>
    match tokens with
    | .word found :: rest =>
      if found ∈ keywords then .error .mismatch else take [.word found] rest
    | _ => .error .mismatch
  | anyWord, tokens =>
    match tokens with
    | .word found :: rest => take [.word found] rest
    | _ => .error .mismatch
  | anyToken, tokens =>
    match tokens with
    | token :: rest => take [token] rest
    | [] => .error .mismatch
  | lifetime, tokens =>
    match tokens with
    | .punct '\'' true :: .word found :: rest => take [.punct '\'' true, .word found] rest
    | _ => .error .mismatch
  | literal, tokens =>
    match tokens with
    | .literal found :: rest => takeLiteral found (some [.literal found]) rest
    | .word found :: rest =>
      if found = "true" ∨ found = "false" then take [.word found] rest else .error .mismatch
    | .punct '-' _ :: .literal found :: rest =>
      if found.front.isDigit then take [.punct '-' false, .literal found] rest
      else .error .mismatch
    | _ => .error .mismatch
  | textLiteral, tokens =>
    match tokens with
    | .literal found :: rest =>
      takeLiteral found
        (if found.front = '"' ∨ found.front = 'r' then some [.literal found] else none) rest
    | _ => .error .mismatch
  | fieldNumbers isOpen two, tokens =>
    match tokens with
    | .literal found :: rest => takeLiteral found (fieldNumbers? isOpen two found) rest
    | _ => .error .mismatch
  | op text, tokens =>
    match afterOperator text.toList tokens with
    | some rest => take (Token.operator text) rest
    | none => .error .mismatch
  | group delimiter contents, tokens =>
    match tokens with
    | .group found inner :: rest =>
      if found = delimiter then do
        let inside ← contents.read rules inner
        if inside.rest.isEmpty then take [.group delimiter inside.output] rest
        else .error .mismatch
      else .error .mismatch
    | _ => .error .mismatch
  | anyGroup, tokens =>
    match tokens with
    | .group delimiter inner :: rest => take [.group delimiter inner] rest
    | _ => .error .mismatch
  | verbatim, tokens => take tokens []
  | atEnd, tokens => if tokens.isEmpty then take [] [] else .error .mismatch
  | seq first second, tokens => do
    let found ← first.read rules tokens
    let later ← second.read rules found.rest
    take (found.output ++ later.output) later.rest
  | choice first second, tokens =>
    match first.read rules tokens with
    | .error .mismatch => second.read rules tokens
    | reading => reading
  | branch test yes no, tokens => do
    if ← fits (test.read rules tokens) then yes.read rules tokens else no.read rules tokens
  | many test body, tokens =>
    repeated (test.read rules) (body.read rules) tokens.length tokens
  | ahead pattern, tokens => do
    let _ ← pattern.read rules tokens
    take [] tokens
  | notAhead pattern, tokens => do
    if ← fits (pattern.read rules tokens) then .error .mismatch else take [] tokens
  | printed pattern form, tokens => do
    let found ← pattern.read rules tokens
    take (form (taken tokens found.rest) found.output) found.rest
  | extended first test tail rest, tokens => do
    let found ← first.read rules tokens
    if ← fits (test.read rules found.rest) then
      let later ← tail.read rules found.rest
      take (taken tokens later.rest) later.rest
    else
      let later ← rest.read rules found.rest
      take (found.output ++ later.output) later.rest
  | swapped first second, tokens => do
    let found ← first.read rules tokens
    let later ← second.read rules found.rest
    take (later.output ++ found.output) later.rest
  | sorted test leading other, tokens => do
    let (entries, rest) ← readEntries (test.read rules) (leading.read rules) (other.read rules)
      tokens.length tokens
    take (Entry.print entries) rest
  | rule construct, tokens => rules construct tokens

end Pattern

/-- A pattern for each construct. -/
abbrev Productions := Construct → Pattern

namespace Productions

/-- What a construct matches where constructs are nested to the given depth at most. -/
def readRule (grammar : Productions) : Nat → Construct → List Token → Reading
  | 0, _, _ => .error .mismatch
  | depth + 1, construct, tokens => (grammar construct).read (grammar.readRule depth) tokens

mutual

/-- The number of tokens, those inside groups included. -/
def tokenSize : Token → Nat
  | .group _ tokens => tokenListSize tokens + 1
  | _ => 1

@[inherit_doc tokenSize] def tokenListSize : List Token → Nat
  | [] => 0
  | token :: tokens => tokenSize token + tokenListSize tokens

end

/-- What a pattern matches at the start of a list of tokens. No construct starts with itself, so
that a depth of a fixed number of constructs for each token is enough. -/
def read (grammar : Productions) (pattern : Pattern) (tokens : List Token) : Reading :=
  pattern.read (grammar.readRule (32 * (tokenListSize tokens + 1))) tokens

/-- The normal form of a list of tokens all of which a pattern matches. -/
def readAll (grammar : Productions) (pattern : Pattern) (tokens : List Token) :
    Except Refusal (List Token) := do
  let found ← grammar.read pattern tokens
  if found.rest.isEmpty then return found.output else throw .mismatch

end Productions

end TreeGrammar.Host
