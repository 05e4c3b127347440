import TreeGrammar.Host.Pattern

/-!
# Small constructs of Rust

Attributes, simple paths, lifetimes and other constructs that are parts of several larger ones.

## Main definitions

* `Construct.outerAttributes`, `Construct.innerAttributes`
* `Construct.simplePath`: paths without generic arguments
* `Construct.forLifetimes`: lifetimes that are declared for a type or a bound
* `Construct.boundedBy`: the bounds of what is declared
-/

namespace TreeGrammar.Host

namespace Construct

open Pattern

/-- A path without generic arguments. -/
def simplePath : Pattern :=
  let part := identifier <|> words ["super", "self", "Self", "crate"]
  opt (op "::") ++ part ++ many (op "::") (op "::" ++ part)

/-- Attributes before a construct. -/
def outerAttributes : Pattern := many (op "#") (op "#" ++ brackets (simplePath ++ verbatim))

/-- Attributes at the start of a construct. -/
def innerAttributes : Pattern :=
  many (op "#" ++ op "!") (op "#" ++ op "!" ++ brackets (simplePath ++ verbatim))

/-- A colon that is not part of a path. -/
def colon : Pattern := opNot ":" ["::"]

/-- The mark after the name of a macro. -/
def macroMark : Pattern := opNot "!" ["!="]

/-- The calling convention of a function. -/
def convention : Pattern := word "extern" ++ opt textLiteral

/-- The bounds of what is declared, after a colon, up to something. The colon is not printed without
bounds. -/
def boundedBy (stop bound : Pattern) : Pattern :=
  given (op ":")
    (branch (op ":" ++ stop) (omitted (op ":")) (op ":" ++ plusList stop bound))

/-- A lifetime that is declared. -/
def lifetimeParameter : Pattern :=
  outerAttributes ++ lifetime ++ boundedBy (ops [",", ">"]) lifetime

/-- Lifetimes that are declared for a type or a bound. -/
def forLifetimes : Pattern :=
  word "for" ++ op "<" ++ listUntil (ahead (op ">")) lifetimeParameter ++ op ">"

/-- Expressions between commas. -/
def expressions : Pattern := commaList (rule (.expression true))

/-- A block whose value is a constant. -/
def constantBlock : Pattern := rule (.block true)

end Construct

end TreeGrammar.Host
