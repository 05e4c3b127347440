import TreeGrammar.Grammar.Reader

/-!
# Words, marks and code in a grammar text

The grammar language embeds Rust code and has no tokens of its own: the parser asks for what it
needs at a place. White space and comments may stand before names and marks.

## Main definitions

* `triviaLength`: white space and comments
* `ReadState.skipTrivia`, `ReadState.eat`, `ReadState.expect`: marks
* `ReadState.ident`, `ReadState.expectIdent`: names
* `Nesting`, `ReadState.fragment`: pieces of Rust code up to a character outside of all delimiters
* `ReadState.recover`: the place after the end of a faulty item
-/

namespace TreeGrammar

open SyntaxError (Wanted)

/-! ### White space and comments -/

/-- The number of characters of white space and comments at the start of a text, and whether a
block comment that is left open comes next. -/
def triviaLength (text : List Char) : Nat × Bool :=
  match text with
  | [] => (0, false)
  | '/' :: '/' :: rest =>
    let line := Literal.lineLength rest
    let more := triviaLength (rest.drop line)
    (2 + line + more.1, more.2)
  | '/' :: '*' :: rest =>
    match Literal.blockCommentLength 1 rest with
    | some comment =>
      let more := triviaLength (rest.drop comment)
      (2 + comment + more.1, more.2)
    | none => (0, true)
  | c :: rest =>
    if Text.isBlank c then
      let more := triviaLength rest
      (1 + more.1, more.2)
    else (0, false)
termination_by text.length
decreasing_by all_goals simp only [List.length_cons, List.length_drop]; omega

@[simp] theorem triviaLength_nil : triviaLength [] = (0, false) := by
  rw [triviaLength]

namespace ReadState

variable {source : List Char} {bound : Nat}

/-- Skips white space and comments. -/
def skipTrivia (state : ReadState source bound) : Attempt source bound (Onward state Unit) :=
  let trivia := triviaLength state.rest
  let next := state.drop trivia.1
  if trivia.2 then next.failHere (.unterminated .blockComment)
  else .ok ⟨(), next, by simp [next]⟩

/-- Skips white space and comments and looks at the next character. -/
def nextChar (state : ReadState source bound) :
    Attempt source bound (Onward state (Option Char)) := do
  let ⟨(), next, h⟩ ← state.skipTrivia
  return ⟨next.peek?, next, h⟩

/-- Consumes the next character that is neither white space nor in a comment if it is `c`. -/
def eat (state : ReadState source bound) (c : Char) : Attempt source bound (Found state Unit) := do
  let ⟨(), next, le⟩ ← state.skipTrivia
  if h : next.peek? = some c then
    return .yes () (next.drop 1) (by
      have := remaining_pos_of_peek h
      rw [remaining_drop]; omega)
  else return .no next le

/-- Consumes the character `c`, which must come next. -/
def expect (state : ReadState source bound) (c : Char) :
    Attempt source bound (Ahead state Unit) := do
  match ← state.eat c with
  | .yes _ next lt => return ⟨(), next, lt⟩
  | .no next _ => next.failHere (.unexpected (.char c) next.peek?)

/-! ### Names -/

/-- The length of the name at the start of a text; zero if there is none. -/
def identLength : List Char → Nat
  | [] => 0
  | c :: rest => if isIdentStart c then 1 + (rest.takeWhile isIdentChar).length else 0

theorem length_pos_of_identLength {text : List Char} (h : 0 < identLength text) :
    0 < text.length := by
  cases text with
  | nil => simp [identLength] at h
  | cons => exact Nat.zero_lt_succ _

/-- Reads the name that comes next, if one does. -/
def ident (state : ReadState source bound) : Attempt source bound (Found state Ident) := do
  let ⟨(), next, le⟩ ← state.skipTrivia
  let length := identLength next.rest
  if h : 0 < length then
    return .yes ⟨String.ofList (next.rest.take length), next.span⟩ (next.drop length) (by
      have : 0 < next.remaining := length_pos_of_identLength h
      rw [remaining_drop]; omega)
  else return .no next le

/-- Reads a name, which must come next. -/
def expectIdent (state : ReadState source bound) (wanted : Wanted) :
    Attempt source bound (Ahead state Ident) := do
  match ← state.ident with
  | .yes ident next lt => return ⟨ident, next, lt⟩
  | .no next _ => next.failHere (.unexpected wanted next.peek?)

/-- The name `keyword` and the character `c` come next. -/
def keywordAhead (state : ReadState source bound) (keyword : String) (c : Char) : Bool :=
  match state.ident with
  | .ok (.yes ident next _) =>
    match next.nextChar with
    | .ok ahead => ident.name = keyword && ahead.value = some c
    | .error _ => false
  | _ => false

end ReadState

/-! ### Rust code -/

/-- The delimiters that are open at a place in Rust code, the innermost first, and the number of
open angle brackets outside of them. -/
structure Nesting where
  opened : List (Char × Span) := []
  angles : Nat := 0

namespace Nesting

/-- The delimiter that closes an opening one. -/
def closing : Char → Char
  | '(' => ')'
  | '[' => ']'
  | _ => '}'

/-- Nothing is open. -/
def isEmpty (nesting : Nesting) : Bool := nesting.opened.isEmpty && nesting.angles = 0

/-- The nesting after the character `c`, which stands at `span`. Angle brackets count only if
`angle` is set and no delimiter is open. -/
def after (nesting : Nesting) (angle : Bool) (c : Char) (span : Span) :
    Except SyntaxError.Cause Nesting :=
  if c = '(' || c = '[' || c = '{' then
    .ok { nesting with opened := (c, span) :: nesting.opened }
  else if c = ')' || c = ']' || c = '}' then
    match nesting.opened with
    | [] => .error (.unbalancedDelimiter c)
    | (opening, place) :: outer =>
      if closing opening = c then .ok { nesting with opened := outer }
      else .error (.mismatchedDelimiter c place (closing opening))
  else if angle && nesting.opened.isEmpty then
    if c = '<' then .ok { nesting with angles := nesting.angles + 1 }
    else if c = '>' then .ok { nesting with angles := nesting.angles - 1 }
    else .ok nesting
  else .ok nesting

end Nesting

namespace ReadState

variable {source : List Char} {bound : Nat}

/-- The next characters of Rust code that are stepped over at once: an arrow as a whole, since its
second character closes nothing. -/
def codeStep : List Char → Nat
  | '-' :: '>' :: _ => 2
  | _ => 1

/-- Moves to the first character of `stops` outside of all literals, comments and delimiters. The
code begins at the position `start`. -/
def skipCode (stops : List Char) (angle : Bool) (start : Span) (nesting : Nesting)
    (state : ReadState source bound) : Attempt source bound (Onward state Unit) :=
  match h : state.rest with
  | [] =>
    let (opening, place) := nesting.opened.head?.getD ('{', start)
    state.fail place (.unclosedDelimiter (Nesting.closing opening))
  | c :: _ =>
    have pos : 0 < state.remaining := remaining_pos h
    match hLiteral : literalLength state.reader.before state.rest with
    | .error literal => state.failHere (.unterminated literal)
    | .ok (some length) => do
      have := literalLength_pos hLiteral
      let result ← skipCode stops angle start nesting (state.drop length)
      return result.weaken (by rw [remaining_drop]; omega)
    | .ok none =>
      if nesting.isEmpty && stops.contains c then .ok ⟨(), state, state.remaining_le_self⟩
      else
        let step := codeStep state.rest
        have : 0 < step := by simp only [step, codeStep]; split <;> decide
        match if step = 1 then nesting.after angle c state.span else .ok nesting with
        | .error cause => state.failHere cause
        | .ok nesting => do
          let result ← skipCode stops angle start nesting (state.drop step)
          return result.weaken (by rw [remaining_drop]; omega)
termination_by state.remaining
decreasing_by all_goals rw [remaining_drop]; omega

/-- Reads Rust code up to the first character of `stops` outside of all literals, comments and
delimiters. -/
def fragment (state : ReadState source bound) (stops : List Char) (angle : Bool) :
    Attempt source bound (Onward state Fragment) := do
  let ⟨(), next, le⟩ ← skipCode stops angle state.span {} state
  let text := state.rest.take (state.remaining - next.remaining)
  return ⟨⟨String.ofList text, state.span⟩, next, le⟩

/-! ### Recovery -/

/-- Moves past the next semicolon that stands outside of literals, comments and the `depth` braces
that are open, or to the end. Literals that are left open are no obstacle. -/
def recover (depth : Nat) (state : ReadState source bound) :
    { next : ReadState source bound // next.remaining ≤ state.remaining - 1 } :=
  match h : state.rest with
  | [] => ⟨state, by have := remaining_eq_zero h; omega⟩
  | c :: _ =>
    have pos : 0 < state.remaining := remaining_pos h
    match hLiteral : literalLength state.reader.before state.rest with
    | .ok (some length) =>
      have := literalLength_pos hLiteral
      let ⟨next, le⟩ := recover depth (state.drop length)
      ⟨next, by rw [remaining_drop] at le; omega⟩
    | _ =>
      if c = ';' ∧ depth = 0 then ⟨state.drop 1, by have := state.remaining_drop 1; omega⟩
      else
        let depth := if c = '{' then depth + 1 else if c = '}' then depth - 1 else depth
        let ⟨next, le⟩ := recover depth (state.drop 1)
        ⟨next, by rw [remaining_drop] at le; omega⟩
termination_by state.remaining
decreasing_by all_goals rw [remaining_drop]; omega

end ReadState

end TreeGrammar
