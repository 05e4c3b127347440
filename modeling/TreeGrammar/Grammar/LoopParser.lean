import TreeGrammar.Grammar.Parser
import TreeGrammar.Rounds

/-!
# The parser with loops

A parser of alternatives, elements and lists that goes on in loops, and whose elements contain each
other, does not say by itself that it ends. Here the rounds of all loops are limited, and so is the
depth of the elements; what is cut off has no result. The steps between them are those of the
parser.

## Main definitions

* `LoopParser.Step`: a step of the parser, which may be cut off
* `LoopParser.alternativesRound`, `LoopParser.alternativeRound`, `LoopParser.childrenRound`,
  `LoopParser.attributesRound`, `LoopParser.tokensRound`, `LoopParser.itemsRound`: the loops
* `LoopParser.elementWith`: an element, given how the elements inside are read
* `LoopParser.parse`: the parser
-/

namespace TreeGrammar

namespace LoopParser

variable {source : List Char} {bound : Nat} {α : Type}

/-! ### Steps -/

/-- A step of the parser: it leads to another state, and yields a value or fails. It has no result
if it is cut off. -/
abbrev Step (source : List Char) (bound : Nat) : Type → Type :=
  ExceptT SyntaxError (StateT (ReadState source bound) Option)

/-- A step that is cut off. -/
def cutOff : Step source bound α := fun _ => none

/-- A step that may consume something. -/
def onward (step : (state : ReadState source bound) → Attempt source bound (Onward state α)) :
    Step source bound α := fun state =>
  match step state with
  | .ok result => some (.ok result.value, result.state)
  | .error (error, next) => some (.error error, next)

/-- A step that consumes something. -/
def ahead (step : (state : ReadState source bound) → Attempt source bound (Ahead state α)) :
    Step source bound α := fun state =>
  match step state with
  | .ok result => some (.ok result.value, result.state)
  | .error (error, next) => some (.error error, next)

/-- A step that looks for something. -/
def found (step : (state : ReadState source bound) → Attempt source bound (Found state α)) :
    Step source bound (Option α) := fun state =>
  match step state with
  | .ok (.yes value next _) => some (.ok (some value), next)
  | .ok (.no next _) => some (.ok none, next)
  | .error (error, next) => some (.error error, next)

/-- Something that is known about the state. -/
def inspect (f : ReadState source bound → α) : Step source bound α := fun state =>
  some (.ok (f state), state)

/-- Consumes the next character. -/
def bump : Step source bound Unit := fun state => some (.ok (), state.drop 1)

/-- Changes the grammar so far. -/
def update (change : SourceGrammar → SourceGrammar) : Step source bound Unit := fun state =>
  some (.ok (), state.update change)

/-- Ends an element with the given label. -/
def finish (label : Option Ident) (build : Nat → Expr) : Step source bound Expr := fun state =>
  some (.ok (state.finish label build).value, (state.finish label build).state)

/-- Fails with an error at the given position. -/
def fail (span : Span) (cause : SyntaxError.Cause) : Step source bound α := fun state =>
  some (.error ⟨span, cause⟩, state)

/-- Fails with an error at the current position. -/
def failHere (cause : SyntaxError.Cause) : Step source bound α := fun state =>
  some (.error ⟨state.span, cause⟩, state)

/-! ### Elements -/

section Elements

variable (limit : Nat) (element : Step source bound Expr) (close : Char)

/-- A round of reading an alternative, of which a guard and some elements may have been read. -/
def alternativeRound : Option Fragment × List Expr →
    Step source bound ((Option Fragment × List Expr) ⊕ (Option Fragment × List Expr))
  | (guard, elements) => do
    match ← onward (·.nextChar) with
    | none => failHere (.unexpected (.char close) none)
    | some c =>
      if c = '|' || c = close then return .inr (guard, elements)
      else if c = '\x7b' then
        let (code, isPredicate) ← ahead (·.codeBlock)
        if isPredicate && elements.isEmpty && guard.isNone then
          return .inl (some code, elements)
        else
          let expr ← finish none fun id =>
            if isPredicate then .predicate id code else .action id code
          return .inl (guard, elements ++ [expr])
      else return .inl (guard, elements ++ [← element])

/-- Reads an alternative, which ends before the character `close` or a bar. -/
def alternative : Step source bound Alternative := do
  onward (·.skipTrivia)
  let span ← inspect (·.span)
  let (guard, elements) ← rounds cutOff (alternativeRound element close) limit (none, [])
  return .mk guard elements span

/-- A round of reading alternatives behind some others. -/
def alternativesRound (alternatives : List Alternative) :
    Step source bound (List Alternative ⊕ List Alternative) := do
  match ← found (·.eat '|') with
  | some () => return .inl (alternatives ++ [← alternative limit element close])
  | none => return .inr alternatives

/-- Reads alternatives up to the character `close`, which is not consumed. -/
def alternatives : Step source bound (List Alternative) := do
  let first ← alternative limit element close
  rounds cutOff (alternativesRound limit element close) limit [first]

/-- A round of reading the children of a node match behind some others. -/
def childrenRound (children : List Expr) : Step source bound (List Expr ⊕ List Expr) := do
  match ← onward (·.nextChar) with
  | none => failHere .unclosedNodeMatch
  | some c =>
    if c = ')' then
      bump
      return .inr children
    else if c = '\x7b' then return .inl (children ++ [← ahead (·.codeElement)])
    else if c = '|' then failHere .ungroupedAlternatives
    else return .inl (children ++ [← element])

/-- Reads an element without its label and its suffix. -/
def primary (span : Span) (label : Option Ident) : Step source bound Expr := do
  onward (·.skipTrivia)
  let start ← inspect (·.span)
  match ← inspect (·.peek?) with
  | some '#' =>
    bump
    if (← inspect (·.peek?)) = some '(' then
      bump
      let name ← ahead (·.expectIdent .nodeLabel)
      if name.isToken then
        let children ← rounds cutOff (childrenRound element) limit []
        finish label fun id => .node id span label name children
      else fail name.span (.lowercaseNode name.name)
    else fail start .incompleteNodeMatch
  | some '.' =>
    bump
    finish label fun id => .wildcard id span label
  | some '(' =>
    bump
    match label with
    | some label => fail label.span (.subruleLabel label.name)
    | none =>
      let alternatives ← alternatives limit element ')'
      ahead (·.expect ')')
      finish none fun id => .subrule id span .once alternatives
  | c =>
    if c.any isIdentStart then ahead (·.reference span label)
    else failHere (.unexpected .element c)

/-- Reads an element with its label and its suffix. -/
def elementWith : Step source bound Expr := do
  onward (·.skipTrivia)
  let span ← inspect (·.span)
  let label ← onward (·.label)
  let expr ← primary limit element span label
  onward (·.suffixed span label expr)

end Elements

/-- Reads an element; the elements inside are not deeper than `limit`. -/
def element : Nat → Step source bound Expr
  | 0 => cutOff
  | limit + 1 => elementWith limit (element limit)

/-! ### Items -/

/-- A round of reading attributes behind some others, up to the closing bracket. -/
def attributesRound (attributes : List Attribute) :
    Step source bound (List Attribute ⊕ List Attribute) := do
  match ← found (·.eat ']') with
  | some () => return .inr attributes
  | none =>
    let attr ← ahead (·.attr)
    match ← found (·.eat ',') with
    | some () => return .inl (attributes ++ [attr])
    | none =>
      ahead (·.expect ']')
      return .inr (attributes ++ [attr])

/-- A round of reading token names, up to the closing brace. -/
def tokensRound (_ : Unit) : Step source bound (Unit ⊕ Unit) := do
  match ← found (·.eat '\x7d') with
  | some () => return .inr ()
  | none =>
    let token ← ahead (·.expectIdent .tokenName)
    if token.isToken then
      update (·.addToken token)
      match ← found (·.eat ',') with
      | some () => return .inl ()
      | none =>
        ahead (·.expect '\x7d')
        return .inr ()
    else fail token.span (.lowercaseToken token.name)

variable (limit : Nat)

/-- Reads the token list of a grammar. -/
def tokenList : Step source bound Unit := do
  let _ ← ahead (·.expectIdent .tokenName)
  ahead (·.expect '\x7b')
  rounds cutOff tokensRound limit ()

/-- Reads what follows the name of a rule. -/
def ruleBody (name : Ident) (isPublic : Bool) : Step source bound Rule := do
  let attributes ← do
    match ← found (·.eat '[') with
    | some () => rounds cutOff attributesRound limit []
    | none => pure []
  let params ← onward (·.parenthesized)
  let returns ← onward (·.returnValue)
  ahead (·.expect ':')
  let alternatives ← alternatives limit (element limit) ';'
  ahead (·.expect ';')
  return { name, isPublic, attributes, params, returns, alternatives }

/-- Notes the name of a rule if its body is not well written. -/
def noting (name : Ident) (body : Step source bound α) : Step source bound α := fun state =>
  (body state).map fun
    | (.ok value, next) => (.ok value, next)
    | (.error error, next) => (.error error, next.update fun grammar =>
        { grammar with malformed := grammar.malformed ++ [name] })

/-- Reads a rule. -/
def rule : Step source bound Unit := do
  let (name, isPublic) ← ahead (·.ruleName)
  if name.isToken then fail name.span (.uppercaseRule name.name)
  else
    let rule ← noting name (ruleBody limit name isPublic)
    update fun grammar => { grammar with rules := grammar.rules ++ [rule] }

/-- Reads an item. -/
def item : Step source bound Unit := do
  let c ← onward (·.nextChar)
  if c = some '#' then ahead (·.option)
  else if ← inspect (·.keywordAhead "tokens" '\x7b') then tokenList limit
  else if ← inspect (·.keywordAhead "prelude" '\x7b') then ahead (·.prelude)
  else if c.any isIdentStart then rule limit
  else failHere (.unexpected .item c)

/-- A round of reading items, after which reading goes on with another bound. Some errors may have
been found before. -/
def itemsRound : List SyntaxError × ((bound : Nat) × ReadState source bound) →
    Option ((List SyntaxError × ((bound : Nat) × ReadState source bound)) ⊕
      (List SyntaxError × SourceGrammar))
  | (errors, ⟨_, state⟩) =>
    match state.nextChar with
    | .error (error, next) => some (.inr (errors ++ [error], next.grammar))
    | .ok ⟨none, next, _⟩ => some (.inr (errors, next.grammar))
    | .ok ⟨some _, next, _⟩ =>
      (item limit next.tighten).map fun
        | (.ok (), next) => .inl (errors, ⟨_, next⟩)
        | (.error error, next) => .inl (errors ++ [error], ⟨_, (next.recover 0).1⟩)

/-- Reads items up to the end of the text. -/
def items (errors : List SyntaxError) (state : ReadState source bound) :
    Option (List SyntaxError × SourceGrammar) :=
  rounds none (itemsRound limit) limit (errors, ⟨bound, state⟩)

theorem start_le (source : List Char) : (Reader.start source).rest.length ≤ source.length :=
  Nat.le_refl _

/-- Reads a grammar text. -/
def parse (source : List Char) : Option (List SyntaxError × SourceGrammar) :=
  let start : ReadState source source.length := ⟨.start source, {}, start_le source⟩
  match start.header with
  | .ok ⟨_, state, _⟩ => items limit [] state
  | .error (error, state) => items limit [error] (state.recover 0).1

end LoopParser

end TreeGrammar
