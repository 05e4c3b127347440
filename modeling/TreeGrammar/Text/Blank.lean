import TreeGrammar.Text.Ranges

/-!
# White space

The property White_Space of the Unicode standard. It separates the words of a grammar and the
items of a tree text.

## Main definitions

* `isBlank`: white space of any alphabet
* `trimBlank`: a text without the white space at its ends
-/

namespace TreeGrammar.Text

/-- White space beyond ASCII. -/
def blankRanges : Ranges :=
  [(0x85, 0x85), (0xA0, 0xA0), (0x1680, 0x1680), (0x2000, 0x200A), (0x2028, 0x2029),
   (0x202F, 0x202F), (0x205F, 0x205F), (0x3000, 0x3000)]

/-- White space: tab to carriage return, the space, and the white space of other alphabets. -/
def isBlank (c : Char) : Bool :=
  if c.toNat < 0x80 then c = ' ' || (0x9 ≤ c.toNat && c.toNat ≤ 0xD) else blankRanges.contains c

/-- The text without the white space at its start and at its end. -/
def trimBlank (text : List Char) : List Char :=
  ((text.dropWhile isBlank).reverse.dropWhile isBlank).reverse

end TreeGrammar.Text
