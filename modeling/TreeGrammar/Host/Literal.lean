import TreeGrammar.Text.IdentifierClass

/-!
# Literals of Rust

Literals are numbers, characters and strings. Characters and strings have variants that consist of
bytes, which are written in ASCII, and strings have variants that hold no NUL; all strings may be
raw, which means that nothing in them is escaped. A literal may end in a suffix, which is a word.
Functions in this module give the number of characters that belong together at the start of a text.

## Main definitions

* `wordLength`: the length of a word
* `numberLength`, `quotedLength`, `characterLength`: the length of the kinds of literals
* `literalLength`: the length of a literal of whatever kind
-/

namespace TreeGrammar.Host

/-- The first character of a word. -/
def isWordStart (c : Char) : Bool := Text.isXidStart c || c = '_'

/-- The length of the word at the start of a text, zero if there is none. -/
def wordLength : List Char → Nat
  | c :: rest => if isWordStart c then (rest.takeWhile Text.isXidContinue).length + 1 else 0
  | [] => 0

/-- The length of a literal with its suffix, given the length without it. -/
def suffixedLength (text : List Char) (length : Nat) : Nat :=
  length + wordLength (text.drop length)

/-! ### Numbers -/

/-- The value of a digit, where letters continue the decimal digits. -/
def digit? (c : Char) : Option Nat :=
  if c.isDigit then some (c.toNat - '0'.toNat)
  else if 'a' ≤ c ∧ c ≤ 'f' then some (c.toNat - 'a'.toNat + 10)
  else if 'A' ≤ c ∧ c ≤ 'F' then some (c.toNat - 'A'.toNat + 10)
  else none

/-- The length of the digits at the start of a text, with underscores between and, except in base
ten, before them. A decimal digit that the base does not have is an error. -/
def digitsLength (base : Nat) (isEmpty : Bool) : List Char → Option Nat
  | [] => if isEmpty then none else some 0
  | c :: rest =>
    let stop := if isEmpty then none else some 0
    if c = '_' then
      if isEmpty ∧ base = 10 then none else (digitsLength base isEmpty rest).map (· + 1)
    else match digit? c with
      | some digit =>
        if digit < base then (digitsLength base false rest).map (· + 1)
        else if c.isDigit then none
        else stop
      | none => stop

/-- The length of an integer without its suffix. -/
def integerLength : List Char → Option Nat
  | '0' :: 'x' :: rest => (digitsLength 16 true rest).map (· + 2)
  | '0' :: 'o' :: rest => (digitsLength 8 true rest).map (· + 2)
  | '0' :: 'b' :: rest => (digitsLength 2 true rest).map (· + 2)
  | text => digitsLength 10 true text

/-- The length of the rest of an exponent, some digits of which and a sign may have been seen. None
if there are no digits. -/
def exponentLength (hasSign hasDigits : Bool) : List Char → Option Nat
  | [] => if hasDigits then some 0 else none
  | c :: rest =>
    if c = '_' then (exponentLength hasSign hasDigits rest).map (· + 1)
    else if c.isDigit then (exponentLength hasSign true rest).map (· + 1)
    else if hasDigits then some 0
    else if (c = '+' || c = '-') && !hasSign then (exponentLength true false rest).map (· + 1)
    else none

/-- The length of a decimal number with a point or an exponent, without its suffix. A point that
another point or a word follows does not belong to a number. -/
def fractionLength (text : List Char) : Option Nat :=
  let decimals (text : List Char) := (text.takeWhile fun c => c.isDigit || c = '_').length
  let exponent (start : Nat) : Option Nat :=
    match text.drop start with
    | 'e' :: rest | 'E' :: rest => (exponentLength false false rest).map (start + 1 + ·)
    | _ => none
  if text.head?.any Char.isDigit then
    let whole := decimals text
    match text.drop whole with
    | '.' :: rest =>
      if rest.head?.any (fun c => c = '.' || isWordStart c) then none
      else
        let length := whole + 1 + decimals rest
        some ((exponent length).getD length)
    | _ => exponent whole
  else none

/-- The length of a number. -/
def numberLength (text : List Char) : Option Nat :=
  let complete (length : Nat) : Option Nat :=
    let length := suffixedLength text length
    if (text.drop length).head?.any Text.isXidContinue then none else some length
  ((fractionLength text).bind complete).or ((integerLength text).bind complete)

/-! ### Characters and strings -/

/-- What a quoted literal is made of. -/
inductive QuotedKind where
  | text
  | bytes
  /-- Text without NUL. -/
  | terminated
  deriving DecidableEq, Repr

/-- A character may stand unescaped in a literal. -/
def QuotedKind.admits : QuotedKind → Char → Bool
  | text, _ => true
  | bytes, c => c.toNat < 0x80
  | terminated, c => c ≠ '\x00'

/-- The length of the rest of an escape in braces up to the closing brace, and its value; `digits`
digits with the given value have been seen. -/
def bracedEscapeLength (digits value : Nat) : List Char → Option (Nat × Nat)
  | [] => none
  | c :: rest =>
    if digits > 0 ∧ c = '}' then if value.isValidChar then some (1, value) else none
    else if digits > 0 ∧ c = '_' then
      (bracedEscapeLength digits value rest).map fun (length, value) => (length + 1, value)
    else match digit? c with
      | some digit =>
        if digits = 6 then none
        else (bracedEscapeLength (digits + 1) (value * 16 + digit) rest).map
          fun (length, value) => (length + 1, value)
      | none => none

/-- The length of an escape without its backslash. -/
def escapeLength (kind : QuotedKind) : List Char → Option Nat
  | 'x' :: a :: b :: _ =>
    (digit? a).bind fun high => (digit? b).bind fun low =>
      match kind with
      | .text => if high < 8 then some 3 else none
      | .bytes => some 3
      | .terminated => if high = 0 ∧ low = 0 then none else some 3
  | 'u' :: '{' :: rest =>
    (bracedEscapeLength 0 0 rest).bind fun (length, value) =>
      match kind with
      | .text => some (length + 2)
      | .bytes => none
      | .terminated => if value = 0 then none else some (length + 2)
  | c :: _ =>
    if c ∈ ['n', 'r', 't', '\\', '\'', '"'] ∨ c = '0' ∧ kind ≠ .terminated then some 1 else none
  | [] => none

/-- The length of the line ends and the white space that an escaped line end takes with it. It does
not reach the end of the text, and carriage returns stand before line feeds only. -/
def continuationLength : List Char → Option Nat
  | [] => none
  | '\r' :: '\n' :: rest => (continuationLength rest).map (· + 2)
  | '\r' :: _ => none
  | c :: rest =>
    if c ∈ [' ', '\t', '\n'] then (continuationLength rest).map (· + 1) else some 0

/-- The length of the rest of a string up to its closing quote, which is counted. -/
def stringLength (kind : QuotedKind) (text : List Char) : Option Nat :=
  match text with
  | [] => none
  | '"' :: _ => some 1
  | '\r' :: '\n' :: rest => (stringLength kind rest).map (· + 2)
  | '\r' :: _ => none
  | '\\' :: rest =>
    let escape :=
      match rest with
      | '\n' :: _ | '\r' :: _ => continuationLength rest
      | _ => escapeLength kind rest
    escape.bind fun length => (stringLength kind (rest.drop length)).map (length + 1 + ·)
  | c :: rest => if kind.admits c then (stringLength kind rest).map (· + 1) else none
  termination_by text.length

/-- The length of the rest of a raw string that closes with a quote and `hashes` hash signs. -/
def rawStringLength (kind : QuotedKind) (hashes : Nat) : List Char → Option Nat
  | [] => none
  | c :: rest =>
    if c = '"' ∧ (List.replicate hashes '#').isPrefixOf rest then some (hashes + 1)
    else match c, rest with
      | '\r', '\n' :: rest => (rawStringLength kind hashes rest).map (· + 2)
      | '\r', _ => none
      | c, rest => if kind.admits c then (rawStringLength kind hashes rest).map (· + 1) else none

/-- The length of a raw string from its hash signs on. -/
def hashedLength (kind : QuotedKind) (text : List Char) : Option Nat :=
  let hashes := (text.takeWhile (· = '#')).length
  match text.drop hashes with
  | '"' :: rest =>
    if hashes ≤ 255 then (rawStringLength kind hashes rest).map (hashes + 1 + ·) else none
  | _ => none

/-- The length of a string without its suffix. -/
def quotedLength : List Char → Option Nat
  | '"' :: rest => (stringLength .text rest).map (· + 1)
  | 'r' :: rest => (hashedLength .text rest).map (· + 1)
  | 'b' :: '"' :: rest => (stringLength .bytes rest).map (· + 2)
  | 'b' :: 'r' :: rest => (hashedLength .bytes rest).map (· + 2)
  | 'c' :: '"' :: rest => (stringLength .terminated rest).map (· + 2)
  | 'c' :: 'r' :: rest => (hashedLength .terminated rest).map (· + 2)
  | _ => none

/-- The length of the rest of a character literal up to its closing quote, which is counted. -/
def characterRestLength (kind : QuotedKind) (text : List Char) : Option Nat :=
  let length :=
    match text with
    | '\\' :: rest => (escapeLength kind rest).map (· + 1)
    | c :: _ => if kind.admits c then some 1 else none
    | [] => none
  length.bind fun length => if text[length]? = some '\'' then some (length + 1) else none

/-- The length of a character literal without its suffix. -/
def characterLength : List Char → Option Nat
  | 'b' :: '\'' :: rest => (characterRestLength .bytes rest).map (· + 2)
  | '\'' :: rest => (characterRestLength .text rest).map (· + 1)
  | _ => none

/-- The length of the literal at the start of a text. -/
def literalLength (text : List Char) : Option Nat :=
  ((quotedLength text).or (characterLength text)).map (suffixedLength text) |>.or
    (numberLength text)

end TreeGrammar.Host
