/-!
# Positions in a text

A position counts lines, columns and bytes. Lines and columns start at one and a column is one
character; offsets start at zero and count the bytes of the UTF-8 encoding. Only a line feed ends a
line.

## Main definitions

* `Span`: a position
* `Span.advance`: the position after a text
* `Span.le`: the order of positions, by line, then column, then offset
-/

namespace TreeGrammar

/-- A position in a text. -/
structure Span where
  line : Nat
  column : Nat
  offset : Nat
  deriving DecidableEq, Repr

namespace Span

/-- The position of the first character of a text. -/
def start : Span := ⟨1, 1, 0⟩

instance : Inhabited Span := ⟨start⟩

/-- The position after one more character. -/
def next (span : Span) (c : Char) : Span :=
  if c = '\n' then ⟨span.line + 1, 1, span.offset + c.utf8Size⟩
  else ⟨span.line, span.column + 1, span.offset + c.utf8Size⟩

/-- The position after a text that starts at `span`. -/
def advance (span : Span) (text : List Char) : Span :=
  text.foldl next span

@[simp] theorem advance_nil (span : Span) : span.advance [] = span := rfl

@[simp] theorem advance_cons (span : Span) (c : Char) (text : List Char) :
    span.advance (c :: text) = (span.next c).advance text := rfl

@[simp] theorem advance_append (span : Span) (text more : List Char) :
    span.advance (text ++ more) = (span.advance text).advance more :=
  List.foldl_append

/-- Positions are ordered by line, then column, then offset. -/
def le (a b : Span) : Bool :=
  a.line < b.line || (a.line = b.line &&
    (a.column < b.column || (a.column = b.column && a.offset ≤ b.offset)))

/-- The text of a position in messages, `line:column`. -/
protected def toString (span : Span) : String :=
  s!"{span.line}:{span.column}"

end Span

/-- The number of bytes of the UTF-8 encoding of a text. -/
def Text.byteSize : List Char → Nat
  | [] => 0
  | c :: rest => c.utf8Size + byteSize rest

@[simp] theorem Text.byteSize_nil : byteSize [] = 0 := rfl

@[simp] theorem Text.byteSize_cons (c : Char) (rest : List Char) :
    byteSize (c :: rest) = c.utf8Size + byteSize rest := rfl

@[simp] theorem Text.byteSize_append (text more : List Char) :
    byteSize (text ++ more) = byteSize text + byteSize more := by
  induction text with
  | nil => simp
  | cons c text ih => simp [ih, Nat.add_assoc]

/-- The characters of a text that lie within its first `bytes` bytes. -/
def Text.takeBytes : Nat → List Char → List Char
  | _, [] => []
  | bytes, c :: rest => if c.utf8Size ≤ bytes then c :: takeBytes (bytes - c.utf8Size) rest else []

end TreeGrammar
