import TreeGrammar.Grammar.Lexical

/-!
# Parsing tree grammars

A grammar is an optional header followed by items: options, token lists, preludes and rules. An item
with a syntax error is left out and reading goes on after the next semicolon.

## Main definitions

* `ReadState.alternatives`, `ReadState.element`: the bodies of rules
* `ReadState.rule`, `ReadState.item`: items
* `SourceGrammar.parse`: a whole grammar with its syntax errors
-/

namespace TreeGrammar

namespace ReadState

variable {source : List Char} {bound : Nat}

/-! ### Elements -/

/-- Ends an element with the given label: it gets the next number. -/
def finish (state : ReadState source bound) (label : Option Ident) (build : Nat → Expr) :
    Onward state Expr where
  value := build state.grammar.exprCount
  state := state.update fun grammar => grammar.addElement label (build grammar.exprCount)
  le := state.remaining_le_self

/-- Reads a block of code between braces, with a question mark after it if it is a predicate. -/
def codeBlock (state : ReadState source bound) :
    Attempt source bound (Ahead state (Fragment × Bool)) := do
  let ⟨(), state₁, h₁⟩ ← state.expect '{'
  let ⟨code, state₂, h₂⟩ ← state₁.fragment ['}'] false
  let ⟨(), state₃, h₃⟩ ← state₂.expect '}'
  let ⟨isPredicate, state₄, h₄⟩ : Onward state₃ Bool ← do
    match ← state₃.eat '?' with
    | .yes _ next lt => pure ⟨true, next, Nat.le_of_lt lt⟩
    | .no next le => pure ⟨false, next, le⟩
  if code.isBlank then
    state₄.fail code.span (if isPredicate then .emptyPredicate else .emptyAction)
  else return ⟨(code, isPredicate), state₄, by omega⟩

/-- Reads a block of code as an element. -/
def codeElement (state : ReadState source bound) : Attempt source bound (Ahead state Expr) := do
  let ⟨(code, isPredicate), next, lt⟩ ← state.codeBlock
  return (next.finish none fun id =>
    if isPredicate then .predicate id code else .action id code).ahead lt

/-- Reads a label, a name with an equals sign after it, if there is one. -/
def label (state : ReadState source bound) :
    Attempt source bound (Onward state (Option Ident)) :=
  let found : Attempt source bound (Found state Ident) := do
    match ← state.ident with
    | .no _ _ => return .no state state.remaining_le_self
    | .yes ident next lt =>
      match ← next.eat '=' with
      | .yes _ next' lt' => return .yes ident next' (Nat.lt_trans lt' lt)
      | .no _ _ => return .no state state.remaining_le_self
  match found with
  | .error (error, _) => .error (error, state)
  | .ok (.no next le) => .ok ⟨none, next, le⟩
  | .ok (.yes ident next lt) =>
    if ident.isToken then next.fail ident.span (.uppercaseLabel ident.name)
    else .ok ⟨some ident, next, Nat.le_of_lt lt⟩

/-- Reads a token or a call of a rule, whose arguments follow its name immediately. -/
def reference (span : Span) (label : Option Ident) (state : ReadState source bound) :
    Attempt source bound (Ahead state Expr) := do
  let ⟨name, state₁, h₁⟩ ← state.expectIdent .tokenOrRule
  if name.isToken then
    return (state₁.finish label fun id => .token id span label name).ahead h₁
  else if state₁.peek? = some '[' then
    let ⟨args, state₂, h₂⟩ ← (state₁.drop 1).fragment [']'] false
    let ⟨(), state₃, h₃⟩ ← state₂.expect ']'
    return (state₃.finish label fun id => .rule id span label name (some args)).ahead (by
      rw [remaining_drop] at h₂; omega)
  else
    return (state₁.finish label fun id => .rule id span label name none).ahead h₁

/-- The repetition that a suffix stands for. -/
def suffix? : Option Char → Option Repetition
  | some '?' => some .optional
  | some '*' => some .star
  | some '+' => some .plus
  | _ => none

/-- Puts an element under a repetition: a plain group is repeated itself and stays where it is, any
other element becomes the only element of a new group. -/
def repeatExpr (span : Span) (repetition : Repetition) (expr : Expr)
    (state : ReadState source bound) : Onward state Expr :=
  match expr with
  | .subrule id span .once alternatives =>
    let expr := .subrule id span repetition alternatives
    ⟨expr, state.update (·.replaceElement expr), state.remaining_le_self⟩
  | expr => state.finish none fun id => .subrule id span repetition [.mk none [expr] span]

/-- Reads the suffix of an element, if there is one, and puts the element under it. -/
def suffixed (span : Span) (label : Option Ident) (expr : Expr) (state : ReadState source bound) :
    Attempt source bound (Onward state Expr) := do
  let ⟨c, state₁, h₁⟩ ← state.nextChar
  match suffix? c with
  | none => return ⟨expr, state₁, h₁⟩
  | some repetition =>
    let state₂ := state₁.drop 1
    match label with
    | some label => state₂.fail label.span (.repeatedLabel label.name state₁.span)
    | none => return (repeatExpr span repetition expr state₂).weaken (by
        simp only [state₂, remaining_drop]; omega)

mutual

/-- Reads alternatives up to the character `close`, which is not consumed. -/
def alternatives (close : Char) (state : ReadState source bound) :
    Attempt source bound (Onward state (List Alternative)) := do
  let ⟨first, state₁, h₁⟩ ← alternative close state
  match ← state₁.eat '|' with
  | .no state₂ h₂ => return ⟨[first], state₂, by omega⟩
  | .yes _ state₂ h₂ =>
    let ⟨others, state₃, h₃⟩ ← alternatives close state₂
    return ⟨first :: others, state₃, by omega⟩
termination_by 6 * state.remaining + 5

/-- Reads an alternative, which ends before the character `close` or a bar. -/
def alternative (close : Char) (state : ReadState source bound) :
    Attempt source bound (Onward state Alternative) := do
  let ⟨(), state₁, h₁⟩ ← state.skipTrivia
  if state₁.peek? = some '{' then
    let ⟨(code, isPredicate), state₂, h₂⟩ ← state₁.codeBlock
    if isPredicate then
      let ⟨elements, state₃, h₃⟩ ← elements close state₂
      return ⟨.mk (some code) elements state₁.span, state₃, by omega⟩
    else
      let ⟨action, state₃, h₃⟩ := state₂.finish none fun id => .action id code
      let ⟨others, state₄, h₄⟩ ← elements close state₃
      return ⟨.mk none (action :: others) state₁.span, state₄, by omega⟩
  else
    let ⟨elements, state₂, h₂⟩ ← elements close state₁
    return ⟨.mk none elements state₁.span, state₂, by omega⟩
termination_by 6 * state.remaining + 4

/-- Reads elements up to the character `close` or a bar. -/
def elements (close : Char) (state : ReadState source bound) :
    Attempt source bound (Onward state (List Expr)) := do
  let ⟨c, state₁, h₁⟩ ← state.nextChar
  match c with
  | none => state₁.failHere (.unexpected (.char close) none)
  | some c =>
    if c = '|' || c = close then return ⟨[], state₁, h₁⟩
    else
      let ⟨expr, state₂, h₂⟩ ← if c = '{' then state₁.codeElement else element state₁
      let ⟨others, state₃, h₃⟩ ← elements close state₂
      return ⟨expr :: others, state₃, by omega⟩
termination_by 6 * state.remaining + 3

/-- Reads an element with its label and its suffix. -/
def element (state : ReadState source bound) : Attempt source bound (Ahead state Expr) := do
  let ⟨(), state₁, h₁⟩ ← state.skipTrivia
  let ⟨label, state₂, h₂⟩ ← state₁.label
  let ⟨expr, state₃, h₃⟩ ← primary state₁.span label state₂
  let ⟨expr, state₄, h₄⟩ ← suffixed state₁.span label expr state₃
  return ⟨expr, state₄, by omega⟩
termination_by 6 * state.remaining + 2

/-- Reads an element without its label and its suffix. -/
def primary (span : Span) (label : Option Ident) (state : ReadState source bound) :
    Attempt source bound (Ahead state Expr) := do
  let ⟨(), state₁, h₁⟩ ← state.skipTrivia
  match h : state₁.peek? with
  | some '#' =>
    have := remaining_pos_of_peek h
    let state₂ := state₁.drop 1
    if state₂.peek? = some '(' then
      let ⟨name, state₃, h₃⟩ ← (state₂.drop 1).expectIdent .nodeLabel
      if name.isToken then
        let ⟨children, state₄, h₄⟩ ← children state₃
        return (state₄.finish label fun id => .node id span label name children).ahead (by
          simp only [state₂, remaining_drop] at h₃; omega)
      else state₃.fail name.span (.lowercaseNode name.name)
    else state₂.fail state₁.span .incompleteNodeMatch
  | some '.' =>
    have := remaining_pos_of_peek h
    let state₂ := state₁.drop 1
    return (state₂.finish label fun id => .wildcard id span label).ahead (by
      simp only [state₂, remaining_drop]; omega)
  | some '(' =>
    have := remaining_pos_of_peek h
    let state₂ := state₁.drop 1
    match label with
    | some label => state₂.fail label.span (.subruleLabel label.name)
    | none =>
      let ⟨alternatives, state₃, h₃⟩ ← alternatives ')' state₂
      let ⟨(), state₄, h₄⟩ ← state₃.expect ')'
      return (state₄.finish none fun id => .subrule id span .once alternatives).ahead (by
        simp only [state₂, remaining_drop] at h₃; omega)
  | c =>
    if c.any isIdentStart then return (← state₁.reference span label).weaken h₁
    else state₁.failHere (.unexpected .element c)
termination_by 6 * state.remaining + 1
decreasing_by all_goals simp only [state₂, remaining_drop] at *; omega

/-- Reads the children of a node match up to the closing parenthesis, which is consumed. -/
def children (state : ReadState source bound) :
    Attempt source bound (Onward state (List Expr)) := do
  let ⟨c, state₁, h₁⟩ ← state.nextChar
  match c with
  | none => state₁.failHere .unclosedNodeMatch
  | some c =>
    if c = ')' then return ⟨[], state₁.drop 1, by rw [remaining_drop]; omega⟩
    else if c = '|' then state₁.failHere .ungroupedAlternatives
    else
      let ⟨expr, state₂, h₂⟩ ← if c = '{' then state₁.codeElement else element state₁
      let ⟨others, state₃, h₃⟩ ← children state₂
      return ⟨expr :: others, state₃, by omega⟩
termination_by 6 * state.remaining + 3

end

/-! ### Items -/

/-- Reads an attribute or a return value: its name, its type and perhaps an initial value. -/
def attr (state : ReadState source bound) : Attempt source bound (Ahead state Attribute) := do
  let ⟨name, state₁, h₁⟩ ← state.expectIdent .attributeName
  match ← state₁.eat ':' with
  | .no state₂ _ => state₂.failHere (.untypedAttribute name.name)
  | .yes _ state₂ h₂ =>
    let ⟨type, state₃, h₃⟩ ← state₂.fragment [',', '=', ']'] true
    if type.isBlank then state₃.fail type.span (.missingType name.name)
    else
      match ← state₃.eat '=' with
      | .no state₄ h₄ => return ⟨⟨name, type, none⟩, state₄, by omega⟩
      | .yes _ state₄ h₄ =>
        let ⟨init, state₅, h₅⟩ ← state₄.fragment [',', ']'] false
        if init.isBlank then state₅.fail init.span (.missingInit name.name)
        else return ⟨⟨name, type, some init⟩, state₅, by omega⟩

/-- Reads attributes up to the closing bracket, which is consumed. A comma may stand after the last
one. -/
def attributes (state : ReadState source bound) :
    Attempt source bound (Onward state (List Attribute)) := do
  match ← state.eat ']' with
  | .yes _ state₁ h₁ => return ⟨[], state₁, Nat.le_of_lt h₁⟩
  | .no state₁ h₁ =>
    let ⟨first, state₂, h₂⟩ ← state₁.attr
    match ← state₂.eat ',' with
    | .yes _ state₃ h₃ =>
      let ⟨others, state₄, h₄⟩ ← attributes state₃
      return ⟨first :: others, state₄, by omega⟩
    | .no state₃ h₃ =>
      let ⟨(), state₄, h₄⟩ ← state₃.expect ']'
      return ⟨[first], state₄, by omega⟩
termination_by state.remaining

/-- Reads token names up to the closing brace, which is consumed, and declares each of them. A comma
may stand after the last one. -/
def tokenNames (state : ReadState source bound) : Attempt source bound (Onward state Unit) := do
  match ← state.eat '}' with
  | .yes _ state₁ h₁ => return ⟨(), state₁, Nat.le_of_lt h₁⟩
  | .no state₁ h₁ =>
    let ⟨token, state₂, h₂⟩ ← state₁.expectIdent .tokenName
    if token.isToken then
      let state₃ := state₂.update (·.addToken token)
      match ← state₃.eat ',' with
      | .yes _ state₄ h₄ =>
        have h₃ : state₃.remaining = state₂.remaining := rfl
        let ⟨(), state₅, h₅⟩ ← tokenNames state₄
        return ⟨(), state₅, by omega⟩
      | .no state₄ h₄ =>
        have h₃ : state₃.remaining = state₂.remaining := rfl
        let ⟨(), state₅, h₅⟩ ← state₄.expect '}'
        return ⟨(), state₅, by omega⟩
    else state₂.fail token.span (.lowercaseToken token.name)
termination_by state.remaining

/-- Reads the token list of a grammar. -/
def tokenList (state : ReadState source bound) : Attempt source bound (Ahead state Unit) := do
  let ⟨_, state₁, h₁⟩ ← state.expectIdent .tokenName
  let ⟨(), state₂, h₂⟩ ← state₁.expect '{'
  let ⟨(), state₃, h₃⟩ ← state₂.tokenNames
  return ⟨(), state₃, by omega⟩

/-- Reads Rust items that stand before the generated ones. -/
def prelude (state : ReadState source bound) : Attempt source bound (Ahead state Unit) := do
  let ⟨_, state₁, h₁⟩ ← state.expectIdent .item
  let ⟨(), state₂, h₂⟩ ← state₁.expect '{'
  let ⟨items, state₃, h₃⟩ ← state₂.fragment ['}'] false
  let ⟨(), state₄, h₄⟩ ← state₃.expect '}'
  return ⟨(), state₄.update fun grammar => { grammar with prelude := grammar.prelude ++ [items] },
    by rw [remaining_update]; omega⟩

/-- Reads text between parentheses, if an opening one comes next. -/
def parenthesized (state : ReadState source bound) :
    Attempt source bound (Onward state (Option Fragment)) := do
  match ← state.eat '(' with
  | .no state₁ h₁ => return ⟨none, state₁, h₁⟩
  | .yes _ state₁ h₁ =>
    let ⟨text, state₂, h₂⟩ ← state₁.fragment [')'] false
    let ⟨(), state₃, h₃⟩ ← state₂.expect ')'
    return ⟨some text, state₃, by omega⟩

/-- Reads an option of the grammar. -/
def option (state : ReadState source bound) : Attempt source bound (Ahead state Unit) := do
  let ⟨(), state₁, h₁⟩ ← state.expect '#'
  let ⟨(), state₂, h₂⟩ ← state₁.expect '!'
  let ⟨(), state₃, h₃⟩ ← state₂.expect '['
  let ⟨name, state₄, h₄⟩ ← state₃.expectIdent .optionName
  let ⟨args, state₅, h₅⟩ ← state₄.parenthesized
  let ⟨(), state₆, h₆⟩ ← state₅.expect ']'
  return ⟨(), state₆.update fun grammar =>
      { grammar with options := grammar.options ++ [⟨name, args⟩] },
    by rw [remaining_update]; omega⟩

/-- Reads the return value of a rule, if it declares one. -/
def returnValue (state : ReadState source bound) :
    Attempt source bound (Onward state (Option Attribute)) := do
  if state.keywordAhead "returns" '[' then
    let ⟨_, state₁, h₁⟩ ← state.expectIdent .ruleName
    let ⟨(), state₂, h₂⟩ ← state₁.expect '['
    let ⟨value, state₃, h₃⟩ ← state₂.attr
    let ⟨(), state₄, h₄⟩ ← state₃.expect ']'
    return ⟨some value, state₄, by omega⟩
  else return ⟨none, state, state.remaining_le_self⟩

/-- Reads what follows the name of a rule. -/
def ruleBody (name : Ident) (isPublic : Bool) (state : ReadState source bound) :
    Attempt source bound (Onward state Rule) := do
  let ⟨attributes, state₁, h₁⟩ : Onward state (List Attribute) ← do
    match ← state.eat '[' with
    | .yes _ next lt => pure ((← next.attributes).weaken (Nat.le_of_lt lt))
    | .no next le => pure ⟨[], next, le⟩
  let ⟨params, state₂, h₂⟩ ← state₁.parenthesized
  let ⟨returns, state₃, h₃⟩ ← state₂.returnValue
  let ⟨(), state₄, h₄⟩ ← state₃.expect ':'
  let ⟨alternatives, state₅, h₅⟩ ← alternatives ';' state₄
  let ⟨(), state₆, h₆⟩ ← state₅.expect ';'
  return ⟨{ name, isPublic, attributes, params, returns, alternatives }, state₆, by omega⟩

/-- Reads the name of a rule and whether it is public. -/
def ruleName (state : ReadState source bound) :
    Attempt source bound (Ahead state (Ident × Bool)) := do
  let ⟨name, state₁, h₁⟩ ← state.expectIdent .ruleName
  if name.name = "pub" then
    let ⟨name, state₂, h₂⟩ ← state₁.expectIdent .ruleName
    return ⟨(name, true), state₂, by omega⟩
  else return ⟨(name, false), state₁, h₁⟩

/-- Reads a rule. The name of a rule whose body is not well written is noted. -/
def rule (state : ReadState source bound) : Attempt source bound (Ahead state Unit) := do
  let ⟨(name, isPublic), state₁, h₁⟩ ← state.ruleName
  if name.isToken then state₁.fail name.span (.uppercaseRule name.name)
  else
    match ruleBody name isPublic state₁ with
    | .ok ⟨rule, state₂, h₂⟩ =>
      return ⟨(), state₂.update fun grammar => { grammar with rules := grammar.rules ++ [rule] },
        by rw [remaining_update]; omega⟩
    | .error (error, state₂) =>
      .error (error, state₂.update fun grammar =>
        { grammar with malformed := grammar.malformed ++ [name] })

/-- Reads an item. -/
def item (state : ReadState source bound) : Attempt source bound (Ahead state Unit) := do
  let ⟨c, state₁, h₁⟩ ← state.nextChar
  if c = some '#' then return (← state₁.option).weaken h₁
  else if state₁.keywordAhead "tokens" '{' then return (← state₁.tokenList).weaken h₁
  else if state₁.keywordAhead "prelude" '{' then return (← state₁.prelude).weaken h₁
  else if c.any isIdentStart then return (← state₁.rule).weaken h₁
  else state₁.failHere (.unexpected .item c)

/-- Reads the header of a grammar, if there is one. -/
def header (state : ReadState source bound) : Attempt source bound (Onward state Unit) := do
  match state.ident with
  | .error (error, _) => .error (error, state)
  | .ok (.no _ _) => return ⟨(), state, state.remaining_le_self⟩
  | .ok (.yes word state₁ h₁) =>
    if word.name = "tree" then
      let ⟨keyword, state₂, h₂⟩ ← state₁.expectIdent .grammarKeyword
      if keyword.name = "grammar" then
        let ⟨name, state₃, h₃⟩ ← state₂.expectIdent .grammarName
        let ⟨(), state₄, h₄⟩ ← (state₃.update fun grammar => { grammar with name }).expect ';'
        return ⟨(), state₄, by rw [remaining_update] at h₄; omega⟩
      else state₂.fail keyword.span (.wrongKeyword keyword.name)
    else return ⟨(), state, state.remaining_le_self⟩

/-- Reads items up to the end of the text. After a faulty item, reading goes on after the next
semicolon; a comment that is left open ends it. Yields the errors, and the grammar that has been
read. -/
def items {bound : Nat} (state : ReadState source bound) : List SyntaxError × SourceGrammar :=
  match state.nextChar with
  | .error (error, next) => ([error], next.grammar)
  | .ok ⟨_, state₁, _h₁⟩ =>
    if _hEnd : state₁.remaining = 0 then ([], state₁.grammar)
    else
      match item state₁.tighten with
      | .ok ⟨_, state₂, _h₂⟩ => items state₂
      | .error (error, state₂) =>
        let ⟨state₃, _h₃⟩ := recover 0 state₂
        let (errors, grammar) := items state₃
        (error :: errors, grammar)
termination_by state.remaining
decreasing_by
  · rw [remaining_tighten] at _h₂; omega
  · have := state₂.remaining_le; omega

end ReadState

/-- Reads a grammar text: its syntax errors in order, and the grammar that remains without the
faulty items. -/
def SourceGrammar.parse (source : List Char) : List SyntaxError × SourceGrammar :=
  let start : ReadState source source.length := ⟨.start source, {}, Nat.le_refl _⟩
  match start.header with
  | .ok ⟨_, state, _⟩ => state.items
  | .error (error, state) =>
    let (errors, grammar) := (state.recover 0).1.items
    (error :: errors, grammar)

end TreeGrammar
