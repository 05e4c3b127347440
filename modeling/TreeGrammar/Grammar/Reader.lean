import TreeGrammar.Grammar.Basic
import TreeGrammar.Grammar.SyntaxError

/-!
# Reading a grammar text

A reader is a place in a grammar text: the characters before it, those after it, and its position.
It moves by single characters, so that its position always is the position of the characters
before it. A reading state adds the grammar read so far and a bound on what is left to read; a step
of the parser yields a state that is further on, or at least not further back, which is why the
parser ends.

## Main definitions

* `Reader`: a place in a text
* `ReadState`: a reader with the grammar so far
* `Onward`, `Ahead`, `Found`: the results of steps that may, must, or try to consume something
* `Attempt`: the outcome of a step that may fail
-/

namespace TreeGrammar

/-- A place in a text: what stands before it, the last character first, what stands after it, and
its position. -/
structure Reader (source : List Char) where
  before : List Char
  rest : List Char
  span : Span
  split : before.reverse ++ rest = source
  span_eq : span = Span.start.advance before.reverse

namespace Reader

variable {source : List Char}

/-- The start of a text. -/
def start (source : List Char) : Reader source := ⟨[], source, Span.start, rfl, rfl⟩

/-- The place after the next character. -/
def next (reader : Reader source) {c : Char} {rest : List Char} (h : reader.rest = c :: rest) :
    Reader source where
  before := c :: reader.before
  rest := rest
  span := reader.span.next c
  split := by simp [← reader.split, h]
  span_eq := by simp [reader.span_eq]

/-- The place after the next `count` characters, or the end. -/
def drop : Nat → Reader source → Reader source
  | 0, reader => reader
  | count + 1, reader =>
    match h : reader.rest with
    | [] => reader
    | _ :: _ => (reader.next h).drop count

@[simp] theorem rest_drop (count : Nat) (reader : Reader source) :
    (reader.drop count).rest = reader.rest.drop count := by
  fun_induction drop count reader with
  | case1 => rfl
  | case2 reader _ h => simp [h]
  | case3 reader count c rest h ih => rw [ih, h]; rfl

end Reader

/-- A reader with at most `bound` characters to go, and the grammar read so far. -/
structure ReadState (source : List Char) (bound : Nat) where
  reader : Reader source
  grammar : SourceGrammar
  le_bound : reader.rest.length ≤ bound

namespace ReadState

variable {source : List Char} {bound : Nat}

/-- The characters to go. -/
def rest (state : ReadState source bound) : List Char := state.reader.rest

/-- The number of characters to go. -/
def remaining (state : ReadState source bound) : Nat := state.rest.length

/-- The current position. -/
def span (state : ReadState source bound) : Span := state.reader.span

/-- The next character. -/
def peek? (state : ReadState source bound) : Option Char := state.rest.head?

/-- The state after the next `count` characters. -/
def drop (state : ReadState source bound) (count : Nat) : ReadState source bound where
  reader := state.reader.drop count
  grammar := state.grammar
  le_bound := by
    rw [Reader.rest_drop, List.length_drop]
    exact Nat.le_trans (Nat.sub_le ..) state.le_bound

/-- The state with another grammar so far. -/
def update (state : ReadState source bound) (change : SourceGrammar → SourceGrammar) :
    ReadState source bound :=
  { state with grammar := change state.grammar }

/-- The state with the bound that it just reaches. -/
def tighten (state : ReadState source bound) : ReadState source state.remaining :=
  { state with le_bound := Nat.le_refl _ }

@[simp] theorem rest_drop (state : ReadState source bound) (count : Nat) :
    (state.drop count).rest = state.rest.drop count :=
  Reader.rest_drop ..

@[simp] theorem remaining_drop (state : ReadState source bound) (count : Nat) :
    (state.drop count).remaining = state.remaining - count := by
  rw [remaining, rest_drop, List.length_drop, remaining]

@[simp] theorem remaining_update (state : ReadState source bound)
    (change : SourceGrammar → SourceGrammar) : (state.update change).remaining = state.remaining :=
  rfl

@[simp] theorem remaining_tighten (state : ReadState source bound) :
    state.tighten.remaining = state.remaining := rfl

theorem remaining_le (state : ReadState source bound) : state.remaining ≤ bound :=
  state.le_bound

theorem remaining_le_self (state : ReadState source bound) : state.remaining ≤ state.remaining :=
  Nat.le_refl _

theorem remaining_eq_zero {state : ReadState source bound} (h : state.rest = []) :
    state.remaining = 0 := by
  rw [remaining, h]; rfl

theorem remaining_pos {state : ReadState source bound} {c : Char} {rest : List Char}
    (h : state.rest = c :: rest) : 0 < state.remaining := by
  rw [remaining, h]; exact Nat.zero_lt_succ _

theorem remaining_pos_of_peek {state : ReadState source bound} {c : Char}
    (h : state.peek? = some c) : 0 < state.remaining := by
  rw [peek?] at h
  obtain ⟨rest, h⟩ := List.head?_eq_some_iff.1 h
  exact remaining_pos h

end ReadState

variable {source : List Char} {bound : Nat} {origin other : ReadState source bound} {α β : Type}

/-- The result of a step from `origin`: a value and a state that is not further back. -/
structure Onward (origin : ReadState source bound) (α : Type) where
  value : α
  state : ReadState source bound
  le : state.remaining ≤ origin.remaining

/-- The result of a step from `origin` that consumes something: a value and a state further on. -/
structure Ahead (origin : ReadState source bound) (α : Type) where
  value : α
  state : ReadState source bound
  lt : state.remaining < origin.remaining

/-- The result of a step from `origin` that looks for something: it consumes what it finds, and
otherwise what may be skipped at most. -/
inductive Found (origin : ReadState source bound) (α : Type) where
  | yes (value : α) (state : ReadState source bound) (lt : state.remaining < origin.remaining)
  | no (state : ReadState source bound) (le : state.remaining ≤ origin.remaining)

/-- The outcome of a step: a result, or a syntax error with the state in which the parser stands
then. -/
abbrev Attempt (source : List Char) (bound : Nat) (α : Type) :=
  Except (SyntaxError × ReadState source bound) α

namespace ReadState

/-- Fails at this state with an error at the given position. -/
def fail (state : ReadState source bound) (span : Span) (cause : SyntaxError.Cause) :
    Attempt source bound α :=
  .error (⟨span, cause⟩, state)

/-- Fails at this state with an error at its position. -/
def failHere (state : ReadState source bound) (cause : SyntaxError.Cause) :
    Attempt source bound α :=
  state.fail state.span cause

end ReadState

namespace Onward

/-- The result as one from a state further back. -/
def weaken (result : Onward origin α) (h : origin.remaining ≤ other.remaining) : Onward other α :=
  ⟨result.value, result.state, Nat.le_trans result.le h⟩

/-- The result as one from a state further back. -/
def ahead (result : Onward origin α) (h : origin.remaining < other.remaining) : Ahead other α :=
  ⟨result.value, result.state, Nat.lt_of_le_of_lt result.le h⟩

/-- The result with another value. -/
def withValue (result : Onward origin α) (value : β) : Onward origin β :=
  ⟨value, result.state, result.le⟩

end Onward

namespace Ahead

/-- The result as one from a state further back. -/
def weaken (result : Ahead origin α) (h : origin.remaining ≤ other.remaining) : Ahead other α :=
  ⟨result.value, result.state, Nat.lt_of_lt_of_le result.lt h⟩

end Ahead

end TreeGrammar
