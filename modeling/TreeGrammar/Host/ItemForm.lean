import TreeGrammar.Host.ExpressionForm

/-!
# Items of Rust

Items are functions, types, traits and their implementations, constants, imports and modules. Items
that are not complete, or that are not usual in a place, are printed as they are written.

## Main definitions

* `Construct.itemForm`: an item
* `Construct.signature`: the part of a function before its body
* `Construct.visibility`: where an item can be named
-/

namespace TreeGrammar.Host.Construct

open Pattern

/-! ### Parts of items -/

/-- Something can be named elsewhere. -/
def visible : Pattern := word "pub" <|> word "crate" ++ notAhead (op "::")

/-- The part of the program in which an item can be named. -/
def restriction : Pattern :=
  let place := words ["crate", "self", "super"]
  branch (parens place) (parens place) (parens (word "in" ++ simplePath))

/-- Where an item can be named. -/
def visibility : Pattern :=
  let isRestricted := parens (words ["crate", "self", "super"]) <|> parens (word "in" ++ verbatim)
  branch (word "pub") (word "pub" ++ given isRestricted restriction)
    (given visible (word "crate"))

/-- A parameter that is a type. Its bounds are printed as they are if one of them holds for
constants only in some cases. -/
def typeParameter : Pattern :=
  let stop := ops [",", ">", "="]
  let maybe := op "~" ++ word "const"
  let initial := given (op "=") (op "=" ++ rule (.type true))
  let isMaybe :=
    op ":" ++ many (notAhead (stop <|> maybe)) (rule .bound ++ op "+") ++ maybe
  identifier ++
    branch isMaybe
      (op ":" ++ asWritten (plusList stop (opt maybe ++ rule .bound) ++ initial))
      (boundedBy stop (rule .bound) ++ initial)

/-- A parameter that is a constant. -/
def constantParameter : Pattern :=
  word "const" ++ identifier ++ op ":" ++ rule (.type true) ++
    given (op "=")
      (op "=" ++ branch literal literal (branch identifier identifier constantBlock))

/-- Generic parameters. Lifetimes are printed before the other ones, and empty lists not at all. -/
def genericParameters : Pattern :=
  let other :=
    outerAttributes ++
      branch identifier typeParameter (branch (word "const") constantParameter (word "_"))
  let isEmpty := op "<" ++ op ">"
  given (op "<")
    (branch isEmpty (omitted isEmpty)
      (op "<" ++ sorted (outerAttributes ++ lifetime) lifetimeParameter other ++ op ">"))

/-- The end of the conditions of generic parameters. -/
def conditionsEnd : Pattern := atEnd <|> anyBraces <|> ops [",", ";", "="] <|> colon

/-- A condition of generic parameters. -/
def condition : Pattern :=
  branch (lifetime ++ op ":")
    (lifetime ++ op ":" ++ plusList (conditionsEnd <|> op ":") lifetime)
    (given (word "for") forLifetimes ++ rule (.type true) ++ op ":" ++
      plusList conditionsEnd (rule .bound))

/-- The conditions of generic parameters. An empty list of conditions is not printed. -/
def conditions : Pattern :=
  given (word "where")
    (branch (word "where" ++ conditionsEnd) (omitted (word "where"))
      (word "where" ++ condition ++
        many (op ",") (op "," ++ branch conditionsEnd (notAhead (op ",")) condition)))

/-- Bounds with plus signs between them up to something, which may stand after a plus sign. -/
def boundsUntil (stop : Pattern) : Pattern :=
  many (notAhead stop) (rule .bound ++ branch stop nothing (op "+"))

/-- The bounds of a trait or an associated type, after a colon, up to something. The colon is not
printed without bounds. -/
def superBounds (stop : Pattern) : Pattern :=
  given (op ":") (branch (op ":" ++ stop) (omitted (op ":")) (op ":" ++ boundsUntil stop))

/-! ### Functions -/

/-- The start of a function. -/
def functionStart : Pattern :=
  opt (word "const") ++ opt (word "async") ++ opt (word "unsafe") ++
    given (word "extern") convention ++ word "fn"

/-- The parameters of a function. Only the first one may be the value a method is called on. -/
def parameters : Pattern :=
  let parameter (typed : Pattern) : Pattern :=
    outerAttributes ++ branch (op "...") (op "...") typed
  given (notAhead atEnd)
    (parameter (branch plainReceiver receiver typedParameter) ++
      given (notAhead atEnd)
        (op "," ++ commaList (parameter (notAhead plainReceiver ++ typedParameter))))

/-- The part of a function before its body. -/
def signature : Pattern :=
  functionStart ++ identifier ++ genericParameters ++ parens parameters ++ resultType true ++
    conditions

/-- A function, whose body may be left out. -/
def function : Pattern := signature ++ branch (op ";") (op ";") (rule (.block true))

/-! ### Constants and types -/

/-- A constant, whose value may be left out. -/
def constant : Pattern :=
  word "const" ++ (identifier <|> word "_") ++ op ":" ++ rule (.type true) ++
    given (op "=") (op "=" ++ rule (.expression true)) ++ op ";"

/-- A variable of the program up to its value. -/
def staticHead : Pattern :=
  word "static" ++ opt (word "mut") ++ identifier ++ op ":" ++ rule (.type true)

/-- A variable of the program, whose type or whose value may be left out. -/
def static : Pattern :=
  let value := op "=" ++ rule (.expression true)
  let untyped := word "static" ++ opt (word "mut") ++ identifier
  branch (untyped ++ op "=") (untyped ++ value) (staticHead ++ given (op "=") value) ++ op ";"

/-- The name of a type up to what it stands for. -/
def typeHead : Pattern :=
  word "type" ++ identifier ++ genericParameters ++ superBounds (word "where" <|> ops ["=", ";"])

/-- What the name of a type stands for. -/
def typeValue : Pattern := given (op "=") (op "=" ++ rule (.type true))

/-- The name of a type with conditions on its parameters. -/
def typeItem : Pattern := typeHead ++ conditions ++ typeValue ++ op ";"

/-- The name of a type that belongs to a trait. Conditions are printed after the type. -/
def associatedType : Pattern :=
  typeHead ++
    branch (word "where") (swapped conditions typeValue) (typeValue ++ conditions) ++ op ";"

/-- The fields of a struct or a variant with names. -/
def namedFields : Pattern :=
  braces (commaList
    (outerAttributes ++ visibility ++ (word "_" <|> identifier) ++ op ":" ++ rule (.type true)))

/-- The fields of a struct or a variant without names. -/
def unnamedFields : Pattern :=
  parens (commaList (outerAttributes ++ visibility ++ rule (.type true)))

/-- A type with fields. -/
def struct : Pattern :=
  word "struct" ++ identifier ++ genericParameters ++
    branch anyParens (unnamedFields ++ conditions ++ op ";")
      (conditions ++ branch anyBraces namedFields (op ";"))

/-- A type with variants. Where a variant can be named is not printed. -/
def enumeration : Pattern :=
  let variant :=
    outerAttributes ++ omitted visibility ++ identifier ++
      branch anyBraces namedFields (given anyParens unnamedFields) ++
      given (op "=") (op "=" ++ rule (.expression true))
  word "enum" ++ identifier ++ genericParameters ++ conditions ++ braces (commaList variant)

/-- A type whose fields share their place. -/
def union : Pattern :=
  word "union" ++ identifier ++ genericParameters ++ conditions ++ namedFields

/-! ### Traits and implementations -/

/-- The start of the call of a macro. -/
def macroItemStart : Pattern := identifier <|> words ["self", "super", "crate"] <|> op "::"

/-- The call of a macro after its name. -/
def macroRest : Pattern := branch anyBraces anyBraces (anyGroup ++ op ";")

/-- The call of a macro among other items. -/
def memberMacro : Pattern := ahead macroItemStart ++ simplePath ++ op "!" ++ macroRest

/-- An item of a trait. It is printed as it is if it can be named elsewhere. -/
def traitMember : Pattern :=
  let named :=
    branch functionStart function (branch (word "const") constant associatedType)
  branch (outerAttributes ++ (visible <|> word "default"))
    (asWritten (outerAttributes ++ visibility ++ opt (word "default") ++ named))
    (outerAttributes ++
      branch (functionStart <|> words ["const", "type"]) named memberMacro)

/-- The word for an implementation that others may replace. -/
def replaceable : Pattern := given (word "default" ++ notAhead (op "!")) (word "default")

/-- An item of an implementation. It is printed as it is if it is not complete. -/
def implementationMember : Pattern :=
  let head := outerAttributes ++ visibility ++ replaceable
  let constantHead :=
    word "const" ++ (identifier <|> word "_") ++ op ":" ++ rule (.type true)
  let bounded := word "type" ++ identifier ++ genericParameters ++ op ":"
  let valueless := typeHead ++ conditions ++ op ";"
  let incomplete :=
    notAhead functionStart ++ (constantHead ++ op ";" <|> bounded <|> valueless)
  let member :=
    branch (head ++ functionStart) (head ++ function)
      (branch (head ++ word "const") (head ++ constant)
        (branch (head ++ word "type") (head ++ associatedType)
          (outerAttributes ++ notAhead (visible <|> word "default" ++ notAhead (op "!")) ++
            memberMacro)))
  branch (head ++ incomplete) (asWritten member) member

/-- A trait, or a name for bounds. -/
def trait : Pattern :=
  let marks := opt (word "unsafe") ++ opt (word "auto")
  let head := word "trait" ++ identifier ++ genericParameters
  let stop := word "where" <|> anyBraces
  let aliasEnd := word "where" <|> op ";"
  branch (head ++ op "=")
    (head ++ op "=" ++ boundsUntil aliasEnd ++ conditions ++ op ";")
    (marks ++ head ++ superBounds stop ++ conditions ++
      braces (innerAttributes ++ untilEnd traitMember))

/-- The start of generic parameters of an implementation. -/
def implementationGenerics : Pattern :=
  op "<" ++
    (ops [">", "#"] <|> word "const" <|>
      (identifier <|> lifetime) ++ ops [":", ",", ">", "="])

/-- An implementation up to the type or the trait. -/
def implementationHead : Pattern :=
  opt (word "default") ++ opt (word "unsafe") ++ word "impl" ++
    given implementationGenerics genericParameters

/-- The mark of an implementation that holds for constants. -/
def constantMark : Pattern := opt (op "?") ++ word "const"

/-- The mark of an implementation that says what does not hold. -/
def negation : Pattern := op "!" ++ notAhead anyBraces

/-- An implementation. -/
def implementation : Pattern :=
  let type := rule (.type true)
  implementationHead ++ given constantMark constantMark ++
    branch (negation ++ type ++ notAhead (word "for")) (asWritten (op "!" ++ type))
      (given negation (op "!") ++ type ++ given (word "for") (word "for" ++ type)) ++
    conditions ++ braces (innerAttributes ++ untilEnd implementationMember)

/-- The head of an implementation that is printed as it is: it holds for constants, or it is not for
a trait. -/
def verbatimImplementation : Pattern :=
  let path :=
    notAhead (word "dyn" <|> op "<") ++ ahead pathStart ++ opt (op "::") ++ typeSegments
  implementationHead ++
    (constantMark <|>
      opt negation ++ notAhead (path ++ word "for") ++ rule (.type true) ++ word "for")

/-! ### Modules -/

/-- Names that are imported. -/
def useTreeForm : Pattern :=
  let name := identifier <|> words ["self", "super", "crate"]
  branch name
    (name ++
      branch (op "::") (op "::" ++ rule .useTree)
        (given (word "as") (word "as" ++ (identifier <|> word "_"))))
    (branch (op "*") (op "*") (braces (commaList (rule .useTree))))

/-- An import. -/
def use : Pattern := word "use" ++ opt (op "::") ++ rule .useTree ++ op ";"

/-- A module. -/
def moduleItem : Pattern :=
  word "mod" ++ identifier ++
    branch (op ";") (op ";") (braces (innerAttributes ++ untilEnd (rule (.item false))))

/-- An item of a foreign library. It is printed as it is if it says more than such an item does. -/
def foreignMember : Pattern :=
  let head := outerAttributes ++ visibility
  let plainType := word "type" ++ identifier ++ op ";"
  let type := branch plainType plainType associatedType
  let value := given (op "=") (op "=" ++ rule (.expression true))
  let foreignFunction := signature ++ branch anyBraces (rule (.block true)) (op ";")
  let member :=
    branch (head ++ functionStart) (head ++ foreignFunction)
      (branch (head ++ word "static") (head ++ staticHead ++ value ++ op ";")
        (branch (head ++ word "type") (head ++ type)
          (outerAttributes ++ notAhead visible ++ memberMacro)))
  let unusual :=
    signature ++ anyBraces <|> staticHead ++ op "=" <|> notAhead plainType ++ word "type"
  branch (head ++ unusual) (asWritten member) member

/-- The items of a foreign library. -/
def foreign : Pattern := convention ++ braces (innerAttributes ++ untilEnd foreignMember)

/-- An item of another crate. -/
def crateItem : Pattern :=
  word "extern" ++ word "crate" ++ (word "self" <|> identifier) ++
    given (word "as") (word "as" ++ (word "_" <|> identifier)) ++ op ";"

/-- A definition of a macro. -/
def macroDefinition : Pattern :=
  word "macro" ++ identifier ++ given anyParens anyParens ++ anyBraces

/-- The call of a macro as an item. -/
def macroItem : Pattern :=
  ahead macroItemStart ++ simplePath ++ op "!" ++ opt identifier ++ macroRest

/-- The start of an implementation. -/
def implementationStart : Pattern := word "impl" <|> word "default" ++ notAhead (op "!")

/-- An item without its attributes. -/
def plainItem : Pattern :=
  let item (start body rest : Pattern) : Pattern :=
    branch (visibility ++ start) (visibility ++ body) rest
  let unsafely := word "unsafe"
  item functionStart function
    (item (word "extern" ++ word "crate") crateItem
      (branch (visibility ++ word "extern") foreign
        (item (word "use") use
          (item (word "static") static
            (item (word "const") constant
              (item (unsafely ++ (word "trait" <|> word "auto" ++ word "trait")) trait
                (item (unsafely ++ word "impl") implementation
                  (item (unsafely ++ word "extern") (unsafely ++ foreign)
                    (item (unsafely ++ word "mod") (unsafely ++ moduleItem)
                      (item (word "mod") moduleItem
                        (item (word "type") typeItem
                          (item (word "struct") struct
                            (item (word "enum") enumeration
                              (item (word "union" ++ identifier) union
                                (item (word "trait" <|> word "auto" ++ word "trait") trait
                                  (item implementationStart implementation
                                    (item (word "macro") macroDefinition
                                      macroItem)))))))))))))))))

/-- The start of an item that is printed as it is, without its attributes. -/
def verbatimItemStart : Pattern :=
  let bounded := word "type" ++ identifier ++ genericParameters ++ op ":"
  visibility ++
      (signature ++ op ";" <|>
        word "static" ++ opt (word "mut") ++ identifier ++ op "=" <|>
        staticHead ++ op ";" <|>
        word "const" ++ (identifier <|> word "_") ++ op ":" ++ rule (.type true) ++ op ";" <|>
        notAhead functionStart ++ word "unsafe" ++ words ["extern", "mod"] <|>
        bounded <|>
        typeHead ++ conditions ++ op ";" <|>
        verbatimImplementation) <|>
    ahead visible ++ visibility ++ (implementationStart <|> word "unsafe" ++ word "impl")

/-- An item. In a block, attributes are not printed before an item that is printed as it is. -/
def itemForm (inBlock : Bool) : Pattern :=
  let attributes := if inBlock then omitted outerAttributes else outerAttributes
  branch (outerAttributes ++ verbatimItemStart) (attributes ++ asWritten plainItem)
    (outerAttributes ++ plainItem)

end TreeGrammar.Host.Construct
