import TreeGrammar.Host.TypeForm

/-!
# Patterns of Rust

Patterns stand in declarations, in the branches of a match and before the types of parameters.
Ranges with one end are printed as they are written, and so are the fields of a qualified path.

## Main definitions

* `Construct.patternForm`, `Construct.topPatternForm`: patterns
* `Construct.verbatimPattern`: patterns that are printed as they are
-/

namespace TreeGrammar.Host.Construct

open Pattern

/-- The operators of ranges. -/
def rangeOperator : Pattern := op "..=" <|> opAs "..." "..=" <|> op ".."

/-- Code that runs when the program is compiled. -/
def constantCode : Pattern := asWritten (word "const" ++ constantBlock)

/-- The end of a range. -/
def rangeLimit : Pattern :=
  opt (op "-") ++
    branch literal literal
      (branch pathStart expressionPath (branch (word "const") constantCode never))

/-- The end of a range is left out. -/
def noLimit : Pattern := atEnd <|> ops ["|", "=", ",", ";"] <|> colon

/-- What may follow the start of a range, given the start: if the end is left out, both are printed
as they are, and else the rest follows where there is no range. -/
def rangeAfter (start rest : Pattern) : Pattern :=
  extended start (rangeOperator ++ noLimit) rangeOperator
    (branch (op "..") (rangeOperator ++ rangeLimit) rest)

/-- Patterns with commas between them. -/
def patterns : Pattern := commaList (rule (.pattern true))

/-- A pattern for a field of a struct, without its attributes. -/
def fieldPattern : Pattern :=
  let pattern := rule (.pattern true)
  let number := fieldNumbers false false
  branch (words ["box", "ref", "mut"])
    (opt (word "box") ++ opt (word "ref") ++ opt (word "mut") ++ identifier)
    (branch identifier (identifier ++ given (op ":") (op ":" ++ pattern))
      (number ++ op ":" ++ pattern))

/-- Patterns for the fields of a struct between braces. Two points stand for the other fields. -/
def fieldPatterns : Pattern :=
  let isField := outerAttributes ++ notAhead (op ".." <|> atEnd)
  braces
    (many isField (outerAttributes ++ fieldPattern ++ branch atEnd nothing (op ",")) ++
      given (notAhead atEnd) (outerAttributes ++ op ".."))

/-- A list of tokens ends with a group that ends with two points after attributes. -/
def restHasAttributes (tokens : List Token) : Bool :=
  match tokens.getLast? with
  | some (.group .brace inner) =>
    match inner.reverse with
    | .punct '.' _ :: .punct '.' _ :: .group .bracket _ :: .punct '#' _ :: _ => true
    | _ => false
  | _ => false

/-- A pattern that starts with a path. -/
def pathPattern : Pattern :=
  let unqualified :=
    rangeAfter expressionPath
      (branch anyBraces fieldPatterns (branch anyParens (parens patterns) nothing))
  branch (op "<")
    (extended expressionPath (anyBraces <|> anyParens <|> rangeOperator ++ noLimit)
      (branch anyBraces fieldPatterns (branch anyParens (parens patterns) rangeOperator))
      (given (op "..") (rangeOperator ++ rangeLimit)))
    (branch macroStart macroCall
      (printed unqualified fun source output =>
        if restHasAttributes source then source else output))

/-- The start of a pattern that starts with a path of more than a name, or with a name that
something follows. -/
def pathPatternStart : Pattern :=
  identifier ++
      (ops ["::", "!"] <|> anyBraces <|> anyParens <|>
        rangeOperator ++ notAhead (atEnd <|> op ",")) <|>
    word "self" ++ op "::" <|>
    ops ["::", "<"] <|>
    words ["Self", "super", "crate"]

/-- A pattern that starts with two points. -/
def restPattern : Pattern :=
  branch (op "..=" ++ noLimit) never
    (branch (opNot ".." ["..="] ++ noLimit) (op "..") (asWritten (rangeOperator ++ rangeLimit)))

/-- The start of a value in a pattern. -/
def valueStart : Pattern := op "-" <|> word "const" <|> literal

/-- A pattern. -/
def patternForm : Pattern :=
  let inner := rule (.pattern false)
  branch pathPatternStart pathPattern
    (branch (word "_") (word "_")
      (branch (word "box") (word "box" ++ inner)
        (branch valueStart (rangeAfter rangeLimit nothing)
          (branch (words ["ref", "mut", "self"] <|> identifier)
            (opt (word "ref") ++ opt (word "mut") ++ anyWord ++ given (op "@") (op "@" ++ inner))
            (branch (op "&") (op "&" ++ opt (word "mut") ++ inner)
              (branch anyParens (parens patterns)
                (branch anyBrackets (brackets patterns)
                  (branch (opNot ".." ["..."]) restPattern never))))))))

/-- A bar between patterns. -/
def patternBar : Pattern := opNot "|" ["||", "|="]

/-- Several patterns with bars between them. -/
def severalPatterns : Pattern :=
  let inner := rule (.pattern false)
  inner ++ many patternBar (op "|" ++ inner)

/-- Several patterns with bars between them, and maybe before them. -/
def topPatternForm : Pattern := opt (op "|") ++ severalPatterns

/-- A pattern that is printed as it is. -/
def verbatimPattern : Pattern :=
  let range := rangeOperator ++ noLimit
  branch pathPatternStart
    (branch (op "<") (expressionPath ++ (anyBraces <|> anyParens <|> range))
      (expressionPath ++
        (range <|> braces (many (notAhead (op "#" ++ anyBrackets ++ op "..")) anyToken ++
          op "#" ++ anyBrackets ++ op ".."))))
    (branch valueStart
      (branch (word "const") (constantCode ++ (range <|> notAhead (op ".."))) (rangeLimit ++ range))
      (opNot ".." ["..."] ++ notAhead noLimit <|> op "..=" ++ notAhead noLimit))

end TreeGrammar.Host.Construct
