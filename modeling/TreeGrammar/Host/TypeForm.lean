import TreeGrammar.Host.BasicForm

/-!
# Types and paths of Rust

In a type, generic arguments follow a name directly or after two colons, and those of a function
trait stand in parentheses. In an expression, generic arguments follow two colons.

## Main definitions

* `Construct.typeForm`, `Construct.boundForm`: types and the bounds of types
* `Construct.genericArgumentsForm`: generic arguments between angle brackets
* `Construct.expressionPath`: paths in expressions
-/

namespace TreeGrammar.Host.Construct

open Pattern

/-! ### Names in paths -/

/-- A word of a path that takes no arguments. -/
def plainWord : Pattern := words ["super", "self", "crate", "try"]

/-- A word of a path that may take arguments. -/
def argumentWord : Pattern := notAhead (word "try") ++ (word "Self" <|> identifier)

/-- The start of a path. -/
def pathStart : Pattern :=
  identifier <|> words ["super", "self", "Self", "crate"] <|> ops ["::", "<"]

/-- A path of words only. -/
def wordPath : Pattern :=
  let part := plainWord <|> argumentWord
  opt (op "::") ++ part ++ many (op "::") (op "::" ++ part)

/-- The call of a macro. -/
def macroCall : Pattern := wordPath ++ op "!" ++ anyGroup

/-- The start of the call of a macro. -/
def macroStart : Pattern := wordPath ++ macroMark

/-- The start of generic arguments after two colons. -/
def markedStart : Pattern := op "::" ++ op "<"

/-- The start of generic arguments in a type. -/
def argumentsStart : Pattern := opNot "<" ["<="] <|> markedStart

/-- Generic arguments, before which two colons may stand. -/
def arguments : Pattern := opt (op "::") ++ rule .genericArguments

/-- A name of a path with its generic arguments, given how these start. -/
def segment (start : Pattern) : Pattern :=
  branch plainWord plainWord (argumentWord ++ given start arguments)

/-- Two colons between names, not before parentheses. -/
def separator : Pattern := op "::" ++ notAhead anyParens

/-- Names with two colons between them. -/
def segments (part : Pattern) : Pattern := part ++ many separator (op "::" ++ part)

/-- A path that starts with a type, which a path to a trait may follow, between angle brackets. The
names after it are given. -/
def qualified (names : Pattern) : Pattern :=
  op "<" ++ rule (.type true) ++
    given (word "as") (word "as" ++ opt (op "::") ++ segments (segment argumentsStart)) ++
    op ">" ++ op "::" ++ names

/-- A path in an expression. -/
def expressionPath : Pattern :=
  let part := segment markedStart
  branch (op "<") (qualified (part ++ many (op "::") (op "::" ++ part)))
    (opt (op "::") ++ segments part)

/-! ### Function traits -/

/-- The result type of a function. -/
def resultType (plus : Bool) : Pattern := given (op "->") (op "->" ++ rule (.type plus))

/-- The argument types of a function trait. -/
def functionArguments : Pattern := parens (commaList (rule (.type true)))

/-- The result type of a function trait in the path of a type. A name may only follow one in
parentheses. -/
def segmentResult : Pattern :=
  let type := rule (.type true)
  branch (op "->" ++ anyParens ++ op "::")
    (op "->" ++ parens (notAhead (atEnd <|> op "?") ++ type))
    (given (op "->") (op "->" ++ rule (.type false) ++ notAhead (op "::")))

/-- A name of a path that takes arguments in parentheses, given how these start and what stands
after them; else a name with generic arguments. Empty generic arguments before parentheses and two
colons before them are not printed. -/
def calledSegment (start result : Pattern) : Pattern :=
  let called := omitted (opt (op "::")) ++ functionArguments ++ result
  let name := plainWord <|> argumentWord
  let empty := opt (op "::") ++ op "<" ++ op ">"
  branch (name ++ start) (name ++ called)
    (branch (argumentWord ++ empty ++ start) (argumentWord ++ omitted empty ++ called)
      (segment argumentsStart))

/-- The start of arguments in parentheses. -/
def callStart : Pattern := anyParens <|> op "::" ++ anyParens

/-- A name in the path of a type. -/
def typeSegment : Pattern := calledSegment callStart segmentResult

/-- More names in the path of a type. -/
def moreSegments : Pattern := many separator (op "::" ++ typeSegment)

/-- The names of a type that is not qualified. -/
def typeSegments : Pattern := typeSegment ++ moreSegments

/-- A qualified type. Two colons stand before parentheses only after such a name. -/
def qualifiedType : Pattern :=
  let part := calledSegment anyParens (segmentResult ++ moreSegments)
  qualified (part ++ many separator (op "::" ++ part))

/-! ### Bounds -/

/-- A bound by a trait. -/
def traitBound : Pattern :=
  let result := resultType false ++ notAhead (op "::")
  opt (op "~" ++ word "const") ++ opt (op "?") ++ given (word "for") forLifetimes ++
    opt (op "::") ++ segments (calledSegment callStart result)

/-- A bound of a type. -/
def boundForm : Pattern :=
  branch lifetime lifetime (branch anyParens (parens traitBound) traitBound)

/-- The start of a bound. -/
def boundStart : Pattern :=
  anyWord <|> ops ["::", "?", "~"] <|> lifetime <|> anyParens

/-- More bounds after the first one. The last plus sign may stand before something else. -/
def moreBounds (plus : Bool) : Pattern :=
  if plus then
    many (op "+") (op "+" ++ branch boundStart (rule .bound) (notAhead (op "+")))
  else nothing

/-- More bounds after a bound in parentheses, one after each plus sign. -/
def strictBounds : Pattern := many (op "+") (op "+" ++ rule .bound)

/-- Bounds with a trait among them; without plus, there is one bound. -/
def traitBounds (plus : Bool) : Pattern :=
  let lifetimes :=
    if plus then
      let more := op "+" ++ lifetime
      lifetime ++ many more more ++ notAhead (op "+" ++ boundStart)
    else lifetime
  notAhead lifetimes ++ rule .bound ++ moreBounds plus

/-! ### Generic arguments -/

/-- The bounds of an associated type. -/
def argumentBounds : Pattern := op ":" ++ plusList (ops [",", ">"]) (rule .bound)

/-- A generic argument that is no lifetime. An associated type that takes arguments is printed as it
is, together with what it is bound to. -/
def genericArgument : Pattern :=
  let type := rule (.type true)
  let name := notAhead (word "dyn") ++ argumentWord
  let called := opt (op "::") ++ op "<" ++ op ">" ++ callStart
  branch (identifier ++ op "=")
      (identifier ++ op "=" ++
        branch literal (asWritten literal) (branch anyBraces (asWritten constantBlock) type))
    (branch (identifier ++ colon) (identifier ++ argumentBounds)
      (branch literal literal
        (branch anyBraces constantBlock
          (branch (name ++ notAhead called ++ argumentsStart)
            (extended (name ++ arguments) (op "=" <|> colon)
              (branch (op "=") (op "=" ++ type) argumentBounds)
              (moreSegments ++ moreBounds true))
            type))))

/-- Generic arguments between angle brackets. Lifetimes are printed before the other ones. -/
def genericArgumentsForm : Pattern :=
  op "<" ++ sorted (lifetime ++ notAhead (op "+")) lifetime genericArgument ++ op ">"

/-! ### Types -/

/-- An argument of the type of a function. -/
def functionTypeArgument : Pattern :=
  given ((identifier <|> words ["_", "self"]) ++ colon) (anyWord ++ op ":") ++
    branch (op "...") (op "...") (rule (.type true))

/-- The arguments of the type of a function. -/
def functionTypeArguments : Pattern :=
  commaList
    (outerAttributes ++ branch (op "...") (op "..." ++ ahead atEnd) functionTypeArgument)

/-- The words for the value that a method is called on and that may be changed. -/
def changedSelf : Pattern := word "mut" ++ word "self"

/-- The start of an argument that is such a value. -/
def changedSelfStart : Pattern :=
  outerAttributes ++ opt ((identifier <|> words ["_", "self"]) ++ colon) ++ changedSelf

/-- An argument that is such a value. -/
def changedSelfArgument : Pattern :=
  branch (outerAttributes ++ changedSelf ++ colon)
    (outerAttributes ++ changedSelf ++ op ":" ++ rule (.type true)) changedSelfStart

/-- The arguments of the type of a function before the first one that is such a value. -/
def argumentsBeforeSelf : Pattern :=
  many (notAhead (atEnd <|> changedSelfStart))
    (outerAttributes ++ notAhead (op "...") ++ functionTypeArgument ++ op ",")

/-- The arguments of the type of a function, with such a value among them. Only one other argument
may follow it. -/
def changedSelfArguments : Pattern :=
  let other := outerAttributes ++ functionTypeArgument
  let selves := many (op "," ++ changedSelfStart) (op "," ++ changedSelfArgument)
  let isLast := opt (op ",") ++ atEnd
  argumentsBeforeSelf ++ changedSelfArgument ++ selves ++
    branch isLast (opt (op ","))
      (op "," ++
        branch (outerAttributes ++ op "...") (outerAttributes ++ op "...")
          (other ++ selves ++ branch isLast (opt (op ",")) (op "," ++ other ++ unreadable)))

/-- The type of a function after the lifetimes that are declared for it. It is printed as it is if
an argument is the value that a method is called on and that may be changed. -/
def functionType (lifetimes : Pattern) : Pattern :=
  let head := lifetimes ++ opt (word "unsafe") ++ given (word "extern") convention ++ word "fn"
  let mentionsSelf :=
    many (notAhead (atEnd <|> changedSelf)) anyToken ++ changedSelf ++ verbatim
  let plain := head ++ parens functionTypeArguments ++ resultType false
  branch (head ++ parens mentionsSelf)
    (branch (head ++ parens (argumentsBeforeSelf ++ changedSelfStart ++ verbatim))
      (asWritten (head ++ parens changedSelfArguments ++ resultType false)) plain)
    plain

/-- A type between parentheses, a tuple of types, or bounds of which the first one stands between
parentheses. -/
def parenthesizedType (plus : Bool) : Pattern :=
  let type := rule (.type true)
  let maybe := ahead (op "?") ++ traitBound
  let path :=
    notAhead (word "dyn" <|> op "<") ++
      branch (word "for") (forLifetimes ++ notAhead (word "dyn" <|> ops ["::", "<"])) nothing ++
      ahead pathStart ++ opt (op "::") ++ typeSegments
  let types := parens (type ++ given (op ",") (op "," ++ commaList type))
  let bounds :=
    branch (parens path ++ op "+") (parens type ++ strictBounds)
      (branch (parens (parens maybe) ++ op "+")
        (printed (parens (parens maybe)) (fun _ output => output.flatMap fun
          | .group _ tokens => tokens
          | token => [token]) ++ strictBounds)
        types)
  branch (parens atEnd) (parens atEnd)
    (branch (parens (lifetime ++ verbatim)) (parens type)
      (branch (parens (op "?" ++ verbatim)) (parens maybe ++ strictBounds)
        (if plus then branch (anyParens ++ op "+") bounds types else types)))

/-- A type for which lifetimes are declared. They are not printed before the call of a macro. -/
def quantifiedType (plus : Bool) : Pattern :=
  let name :=
    notAhead (word "dyn") ++ ahead (identifier <|> words ["super", "self", "Self", "crate"])
  branch (forLifetimes ++ words ["fn", "unsafe", "extern"]) (functionType forLifetimes)
    (branch (forLifetimes ++ name ++ macroStart) (omitted forLifetimes ++ macroCall)
      (forLifetimes ++ name ++ typeSegments ++ moreBounds plus))

/-- A type that starts like a path. -/
def namedType (plus : Bool) : Pattern :=
  branch (word "dyn")
    (branch (word "dyn" ++ op "*") (asWritten (word "dyn" ++ op "*" ++ traitBounds plus))
      (word "dyn" ++ traitBounds plus))
    (branch (op "<") qualifiedType
      (branch macroStart macroCall (opt (op "::") ++ typeSegments ++ moreBounds plus)))

/-- A type. -/
def typeForm (plus : Bool) : Pattern :=
  let inner := rule (.type false)
  branch (word "for") (quantifiedType plus)
    (branch anyParens (parenthesizedType plus)
      (branch (words ["fn", "unsafe", "extern"]) (functionType nothing)
        (branch pathStart (namedType plus)
          (branch anyBrackets
            (brackets (rule (.type true) ++ given (op ";") (op ";" ++ rule (.expression true))))
            (branch (op "*") (op "*" ++ words ["const", "mut"] ++ inner)
              (branch (op "&") (op "&" ++ opt lifetime ++ opt (word "mut") ++ inner)
                (branch (word "impl") (word "impl" ++ traitBounds plus)
                  (branch lifetime (traitBounds true) (op "!" <|> word "_")))))))))

end TreeGrammar.Host.Construct
