import TreeGrammar.Grammar.Literal
import TreeGrammar.Text.Span

/-!
# Syntax errors

The ways in which a text fails to be a tree grammar.

## Main definitions

* `SyntaxError`: a cause and its position
* `SyntaxError.Cause.message`: the texts of the causes
-/

namespace TreeGrammar

/-- The text that names a literal which is left open. -/
def Literal.description : Literal → String
  | blockComment => "block comment"
  | string => "string literal"
  | rawString => "raw string literal"
  | character => "character literal"

namespace SyntaxError

/-- What the grammar language asks for at a place. -/
inductive Wanted where
  | char (c : Char)
  | grammarKeyword
  | grammarName
  | optionName
  | tokenName
  | ruleName
  | attributeName
  | nodeLabel
  | tokenOrRule
  | element
  | item
  deriving DecidableEq, Repr

/-- The name of what is asked for. -/
def Wanted.description : Wanted → String
  | char c => s!"`{String.singleton c}`"
  | grammarKeyword => "`grammar`"
  | grammarName => "the name of the grammar"
  | optionName => "the name of a grammar option"
  | tokenName => "a token name"
  | ruleName => "a rule name"
  | attributeName => "an attribute name"
  | nodeLabel => "the label of the node"
  | tokenOrRule => "a token or a rule"
  | element => "an element"
  | item => "a rule, `tokens`, `prelude` or a grammar option"

/-- Why a text is not a tree grammar. -/
inductive Cause where
  /-- A literal or comment is left open. -/
  | unterminated (literal : Literal)
  /-- Something else stands where something is wanted; nothing if the text ends. -/
  | unexpected (wanted : Wanted) (found : Option Char)
  /-- Another word stands where the word `grammar` is wanted. -/
  | wrongKeyword (found : String)
  | unclosedDelimiter (closing : Char)
  | mismatchedDelimiter (found : Char) (opened : Span) (closing : Char)
  | unbalancedDelimiter (found : Char)
  | lowercaseToken (name : String)
  | uppercaseRule (name : String)
  | untypedAttribute (name : String)
  | missingType (name : String)
  | missingInit (name : String)
  | emptyPredicate
  | emptyAction
  /-- A label on an element with a suffix, which stands at `suffix`. -/
  | repeatedLabel (label : String) (suffix : Span)
  | uppercaseLabel (label : String)
  | subruleLabel (label : String)
  | incompleteNodeMatch
  | lowercaseNode (name : String)
  | ungroupedAlternatives
  | unclosedNodeMatch
  deriving DecidableEq, Repr

/-- The name of what is found. -/
def foundText : Option Char → String
  | some c => s!"`{String.singleton c}`"
  | none => "end of grammar"

/-- The text of a cause. -/
def Cause.message : Cause → String
  | unterminated literal => s!"unterminated {literal.description}"
  | unexpected wanted found => s!"expected {wanted.description}, found {foundText found}"
  | wrongKeyword found => s!"expected `grammar`, found `{found}`"
  | unclosedDelimiter closing =>
    s!"unclosed delimiter, expected `{String.singleton closing}` before the end of grammar"
  | mismatchedDelimiter found opened closing =>
    s!"mismatched delimiter `{String.singleton found}`, the delimiter opened at " ++
      s!"{opened.toString} expects `{String.singleton closing}`"
  | unbalancedDelimiter found => s!"unbalanced delimiter `{String.singleton found}`"
  | lowercaseToken name => s!"token `{name}` must start with an uppercase letter"
  | uppercaseRule name =>
    s!"rule `{name}` must start with a lowercase letter or `_`, uppercase names denote tokens"
  | untypedAttribute name =>
    s!"attribute `{name}` needs a Rust type as in `[{name}: i32]`, it is stored in a typed " ++
      "field of the rule frame"
  | missingType name => s!"missing type of attribute `{name}`"
  | missingInit name => s!"missing initializer of attribute `{name}`"
  | emptyPredicate => "empty predicate"
  | emptyAction => "empty action"
  | repeatedLabel label suffix =>
    s!"label `{label}` cannot be attached to the repeated element ending at {suffix.toString}"
  | uppercaseLabel label => s!"label `{label}` must start with a lowercase letter or `_`"
  | subruleLabel label => s!"label `{label}` cannot be attached to a subrule"
  | incompleteNodeMatch => "expected `#(` to start a node match"
  | lowercaseNode name =>
    s!"node label `{name}` must be a token, it must start with an uppercase letter"
  | ungroupedAlternatives =>
    "alternatives in a node match must be grouped in a subrule `( .. | .. )`"
  | unclosedNodeMatch => "unclosed node match, expected `)`"

end SyntaxError

/-- A syntax error: what is wrong and where. -/
structure SyntaxError where
  span : Span
  cause : SyntaxError.Cause
  deriving DecidableEq, Repr

end TreeGrammar
