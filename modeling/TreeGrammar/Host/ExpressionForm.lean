import TreeGrammar.Host.PatternForm

/-!
# Expressions and statements of Rust

An expression is a chain of operands with operators between them; how the operators bind does not
matter for what is an expression. In the head of a conditional or a loop, the brace after a path
starts a block and not the fields of a struct. Some operands are printed as they are written; the
attributes before a statement that starts with such an operand are not printed.

## Main definitions

* `Construct.expressionForm`, `Construct.operandForm`: expressions
* `Construct.statement`, `Construct.blockForm`: statements and blocks
* `Construct.itemStart`: the start of a statement that is an item
-/

namespace TreeGrammar.Host.Construct

open Pattern

/-! ### Operators between operands -/

/-- The operators that assign. -/
def assignments : Pattern :=
  ops ["+=", "-=", "*=", "/=", "%=", "^=", "&=", "|=", "<<=", ">>="]

/-- The operators that compare two values or compute a new one. -/
def calculations : Pattern :=
  ops ["<<", ">>", "==", "<=", "!=", ">=", "+", "-", "*", "/", "%", "^", "&", "|", "<", ">"]

/-- The operators that combine two values. -/
def combinations : Pattern := ops ["&&", "||"] <|> calculations

/-- The operator that assigns a value as it is. -/
def assignment : Pattern := opNot "=" ["==", "=>"]

/-- A point that is not part of a range. -/
def point : Pattern := opNot "." [".."]

/-- The start of what may stand after a value without an operator. -/
def suffixStart : Pattern := anyParens <|> point <|> anyBrackets <|> op "?"

/-- The operators before a type. -/
def castOperator : Pattern := word "as" <|> colon

/-- A type after an operator. Nothing that belongs to a value follows it. -/
def cast : Pattern :=
  (word "as" <|> op ":") ++ rule (.type false) ++ notAhead suffixStart

/-- No value follows. -/
def noValue (structs : Bool) : Pattern :=
  atEnd <|> ops [",", ";"] <|> if structs then never else anyBraces

/-- The start of an operator after an operand. -/
def linkStart : Pattern :=
  assignments <|> combinations <|> assignment <|> op ".." <|> castOperator

/-- An operator after an operand and what it takes. -/
def link (structs : Bool) : Pattern :=
  let operand := rule (.operand structs)
  branch assignments (assignments ++ operand)
    (branch combinations (combinations ++ operand)
      (branch assignment (assignment ++ operand)
        (branch (op "..")
          (rangeOperator ++ branch (noValue structs <|> point) nothing operand)
          cast)))

/-- The operators after an operand and what they take. -/
def links (structs : Bool) : Pattern := many linkStart (link structs)

/-- An expression. -/
def expressionForm (structs : Bool) : Pattern := rule (.operand structs) ++ links structs

/-! ### Parts of operands -/

/-- Generic arguments of a method. -/
def methodArguments : Pattern :=
  let argument :=
    branch literal literal (branch anyBraces constantBlock (rule (.type true)))
  op "::" ++ op "<" ++ listUntil (ahead (op ">")) argument ++ op ">"

/-- A field or a method of a value. -/
def member : Pattern :=
  branch identifier
    (identifier ++ given (op "::") (methodArguments ++ parens expressions))
    (fieldNumbers false false)

/-- What stands after a value: arguments, a field, an index or a question mark. -/
def suffix : Pattern :=
  let pair := fieldNumbers false true
  let isOpen := fieldNumbers true true
  branch anyParens (parens expressions)
    (branch point
      (op "." ++
        branch (word "await") (word "await")
          (branch pair pair (branch isOpen (isOpen ++ member) member)))
      (branch anyBrackets (brackets (rule (.expression true))) (op "?")))

/-- What stands after a value, as often as there is something. -/
def suffixes : Pattern := many suffixStart suffix

/-- A parameter of a closure. Its attributes are not printed before a pattern that is printed as it
is. -/
def closureParameter : Pattern :=
  let pattern := rule (.pattern false)
  let type := given (op ":") (op ":" ++ rule (.type true))
  branch (op "#")
    (branch (outerAttributes ++ verbatimPattern)
      (branch (outerAttributes ++ pattern ++ op ":") (outerAttributes ++ pattern ++ type)
        (omitted outerAttributes ++ pattern))
      (outerAttributes ++ pattern ++ type))
    (pattern ++ type)

/-- A closure. -/
def closure (structs : Bool) : Pattern :=
  opt (word "static") ++ opt (word "async") ++ opt (word "move") ++
    op "|" ++ listUntil (ahead (op "|")) closureParameter ++ op "|" ++
    branch (op "->") (op "->" ++ rule (.type true) ++ rule (.block false))
      (rule (.expression structs))

/-- The start of a closure for which no lifetimes are declared. -/
def closureStart : Pattern :=
  op "|" <|>
    word "async" ++ (op "|" <|> word "move" ++ op "|") <|>
    words ["static", "move"]

/-- The start of a closure for which lifetimes are declared. -/
def quantifiedStart : Pattern := word "for" ++ op "<" ++ (lifetime <|> op ">")

/-- The fields of a struct between braces. -/
def structFields : Pattern :=
  let value := rule (.expression true)
  let field :=
    outerAttributes ++
      branch identifier (identifier ++ given (op ":") (op ":" ++ value))
        (fieldNumbers false false ++ op ":" ++ value)
  braces
    (many (notAhead (atEnd <|> op "..")) (field ++ branch atEnd nothing (op ",")) ++
      given (op "..") (op ".." ++ branch atEnd nothing value))

/-- An operand that starts with a path: the call of a macro, a struct with its fields, or a name. -/
def pathOperand (structs : Bool) : Pattern :=
  let path :=
    if structs then
      branch (op "<") (extended expressionPath anyBraces structFields nothing)
        (expressionPath ++ given anyBraces structFields)
    else expressionPath
  branch (notAhead (op "<") ++ macroStart) macroCall path

/-! ### Blocks -/

/-- A conditional. -/
def conditionalForm : Pattern :=
  let block := rule (.block false)
  word "if" ++ rule (.expression false) ++ block ++
    given (word "else") (word "else" ++ branch (word "if") (rule .conditional) block)

/-- A loop. -/
def loop : Pattern :=
  let head := rule (.expression false)
  branch (word "while") (word "while" ++ head)
      (branch (word "for") (word "for" ++ rule (.pattern true) ++ word "in" ++ head)
        (word "loop")) ++
    rule (.block true)

/-- A loop or a block with a name. -/
def labelled : Pattern :=
  lifetime ++ op ":" ++ branch (words ["while", "for", "loop"]) loop (rule (.block true))

/-- The start of a block that runs asynchronously. -/
def asyncStart : Pattern := word "async" ++ (anyBraces <|> word "move" ++ anyBraces)

/-- The start of a block whose failures are its value. -/
def tryStart : Pattern := word "try" ++ anyBraces

/-- A block that runs asynchronously. -/
def asyncBlock : Pattern := word "async" ++ opt (word "move") ++ rule (.block false)

/-- The start of a loop that declares no lifetimes. -/
def loopStart : Pattern :=
  words ["while", "loop"] <|> word "for" ++ notAhead (op "<" ++ (lifetime <|> op ">"))

/-- An expression that ends with a block. -/
def blockLikeForm : Pattern :=
  let head := rule (.expression false)
  branch (word "if") (rule .conditional)
    (branch loopStart loop
      (branch (word "match")
        (word "match" ++ head ++ braces (innerAttributes ++ untilEnd (rule .arm)))
        (branch (word "unsafe") (word "unsafe" ++ rule (.block true))
          (branch tryStart (word "try" ++ rule (.block false)) (rule (.block true))))))

/-- The start of an expression that ends with a block. -/
def blockLikeStart : Pattern :=
  words ["if", "match", "unsafe"] <|> loopStart <|> tryStart <|> anyBraces

/-- An expression in a place where an expression that ends with a block ends there, unless a field
or a question mark follows. Then no mark is needed between it and what follows. -/
def separated (mark : String) : Pattern :=
  let stop := branch atEnd nothing (op mark)
  let free := opt (op mark)
  let continued := suffixes ++ links true ++ stop
  let isContinued := suffixStart <|> linkStart
  branch blockLikeStart (rule .blockLike ++ branch (point <|> op "?") continued free)
    (branch (word "const") (constantCode ++ branch (point <|> op "?") continued stop)
      (branch asyncStart (asyncBlock ++ branch isContinued continued free)
        (branch lifetime (labelled ++ branch isContinued continued free)
          (rule (.expression true) ++ stop))))

/-! ### Operands -/

/-- An operand that may go on as far as an expression. -/
def openEnded (structs : Bool) : Pattern :=
  let value := rule (.expression structs)
  branch closureStart (closure structs)
    (branch quantifiedStart (asWritten (forLifetimes ++ closure structs))
      (branch (word "break")
        (word "break" ++ opt lifetime ++ branch (noValue structs) nothing value)
        (branch (word "return") (word "return" ++ branch (noValue true) nothing value)
          (word "yield" ++ branch (noValue true) nothing (rule (.expression true))))))

/-- A condition that a value fits a pattern. -/
def letOperand : Pattern :=
  let operand := rule (.operand false)
  let calculation := notAhead (assignments <|> ops ["&&", "||"]) ++ calculations
  word "let" ++ rule (.pattern true) ++ op "=" ++ operand ++
    many (calculation <|> castOperator) (branch calculation (calculations ++ operand) cast)

/-- An operand without operators and suffixes that is no range. -/
def atom (structs : Bool) : Pattern :=
  let value := rule (.expression true)
  let array :=
    branch atEnd nothing
      (value ++ branch (op ";") (op ";" ++ value) (given (op ",") (op "," ++ expressions)))
  branch literal literal
    (branch asyncStart asyncBlock
      (branch (closureStart <|> quantifiedStart <|> words ["break", "return", "yield"])
        (openEnded structs)
        (branch (notAhead tryStart ++ pathStart) (pathOperand structs)
          (branch anyParens (parens expressions)
            (branch anyBrackets (brackets array)
              (branch (word "let") letOperand
                (branch blockLikeStart (rule .blockLike)
                  (branch (word "const") constantCode
                    (branch lifetime labelled
                      (word "continue" ++ opt lifetime <|> word "_"))))))))))

/-- The start of a reference to a value that may be invalid. -/
def rawStart : Pattern := op "&" ++ word "raw" ++ words ["mut", "const"]

/-- An operand with the operators before it. -/
def operandForm (structs : Bool) : Pattern :=
  let operand := rule (.operand structs)
  branch (outerAttributes ++ rawStart) (asWritten (outerAttributes ++ rawStart ++ operand))
    (outerAttributes ++
      branch (op "&") (op "&" ++ opt (word "mut") ++ operand)
        (branch (word "box") (word "box" ++ operand)
          (branch (ops ["*", "!", "-"]) (ops ["*", "!", "-"] ++ operand)
            (branch (op "..")
              (rangeOperator ++
                branch (noValue structs <|> point) nothing (rule (.expression structs)))
              (atom structs ++ suffixes)))))

/-- An operand that is printed as it is. -/
def verbatimOperand : Pattern :=
  branch rawStart (rawStart ++ rule (.operand true))
    (branch (word "const") constantCode
        (branch quantifiedStart (forLifetimes ++ closure true)
          (word "_" <|> ahead (op "<") ++ expressionPath ++ structFields)) ++
      notAhead suffixStart)

/-- A branch of a match. Attributes are not printed before an operand that is printed as it is. -/
def armForm : Pattern :=
  let body := separated ","
  outerAttributes ++ rule (.pattern true) ++
    given (word "if") (word "if" ++ rule (.expression true)) ++ op "=>" ++
    branch (op "#" ++ anyBrackets)
      (branch (outerAttributes ++ verbatimOperand) (omitted outerAttributes ++ body)
        (outerAttributes ++ body))
      body

/-! ### Parameters -/

/-- The value that a method is called on. -/
def receiver : Pattern :=
  given (op "&") (op "&" ++ opt lifetime) ++ opt (word "mut") ++ word "self"

/-- The value that a method is called on, without a type. -/
def plainReceiver : Pattern := receiver ++ notAhead (op ":")

/-- A parameter with its type, without its attributes. The pattern may be left out before a type
that starts with a name and generic arguments. -/
def typedParameter : Pattern :=
  let type := rule (.type true)
  let unnamed := printed nothing fun _ _ => .word "_" :: Token.operator ":"
  branch (identifier ++ op "<") (unnamed ++ type)
    (severalPatterns ++ op ":" ++ branch (op "...") (op "...") type)

/-- A parameter. -/
def parameterForm : Pattern :=
  outerAttributes ++ branch plainReceiver receiver typedParameter

/-! ### Statements -/

/-- The start of a statement that is the call of a macro, which needs no mark. -/
def macroStatementStart : Pattern :=
  simplePath ++ op "!" ++ (anyBraces ++ notAhead (ops [".", "?"]) <|> identifier)

/-- The call of a macro as a statement. -/
def macroStatement : Pattern :=
  simplePath ++ op "!" ++ opt identifier ++ anyGroup ++ opt (op ";")

/-- A declaration of variables. It is printed as it is if it says what happens to a value that does
not fit. -/
def letStatement : Pattern :=
  let value := op "=" ++ rule (.expression true)
  let head :=
    outerAttributes ++ word "let" ++ rule (.pattern true) ++
      given (op ":") (op ":" ++ rule (.type true)) ++
      branch (op "=") value (notAhead (word "else"))
  extended head (word "else") (word "else" ++ rule (.block false)) nothing ++ op ";"

/-- The start of a statement that is an item. -/
def itemStart : Pattern :=
  words ["pub", "extern", "use", "fn", "mod", "type", "struct", "enum", "trait", "impl"] <|>
    word "macro" <|>
    word "crate" ++ notAhead (op "::") <|>
    word "static" ++
      (word "mut" <|>
        notAhead (word "async" ++ (word "move" <|> op "|")) ++ identifier) <|>
    words ["const", "unsafe"] ++ notAhead anyBraces <|>
    word "async" ++ words ["unsafe", "extern", "fn"] <|>
    word "union" ++ identifier <|>
    word "auto" ++ word "trait" <|>
    word "default" ++ words ["unsafe", "impl"]

/-- An expression as a statement. -/
def expressionStatement : Pattern :=
  let body := separated ";"
  let dropped :=
    verbatimOperand ++ notAhead castOperator ++
      many (notAhead assignments ++ combinations <|> castOperator) (link true) ++
      notAhead (op "..")
  branch (op "#")
    (branch (outerAttributes ++ dropped) (omitted outerAttributes ++ body)
      (outerAttributes ++ body))
    body

/-- A statement. -/
def statement : Pattern :=
  let after (start : Pattern) : Pattern := outerAttributes ++ start
  branch (op ";") (op ";")
    (branch (after macroStatementStart) (outerAttributes ++ macroStatement)
      (branch (after (word "let")) letStatement
        (branch (after itemStart) (rule (.item true)) expressionStatement)))

/-- A block: statements between braces, before which attributes of the block may stand. -/
def blockForm (attributes : Bool) : Pattern :=
  braces ((if attributes then innerAttributes else nothing) ++ untilEnd statement)

end TreeGrammar.Host.Construct
