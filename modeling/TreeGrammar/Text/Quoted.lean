import TreeGrammar.Text.Printable

/-!
# Quoted texts

A quoted text stands between double quotes. Quotes and backslashes are escaped by a backslash, the
common control characters have short escapes, and every other character that is not shown as it is
becomes `\u` with its code point in hexadecimal between braces. Single quotes stand as they are.

## Main definitions

* `escapeChar`: one character inside quotes
* `quote`: a quoted text
-/

namespace TreeGrammar.Text

/-- A code point in hexadecimal, as an escape. -/
def codePointEscape (c : Char) : List Char :=
  '\\' :: 'u' :: '{' :: (Nat.toDigits 16 c.toNat ++ ['}'])

/-- A character as it is written inside double quotes. -/
def escapeChar (c : Char) : List Char :=
  match c with
  | '"' => ['\\', '"']
  | '\\' => ['\\', '\\']
  | '\n' => ['\\', 'n']
  | '\r' => ['\\', 'r']
  | '\t' => ['\\', 't']
  | '\x00' => ['\\', '0']
  | c => if isPrintable c then [c] else codePointEscape c

/-- A text between double quotes. -/
def quote (text : List Char) : List Char :=
  '"' :: (text.flatMap escapeChar ++ ['"'])

end TreeGrammar.Text
