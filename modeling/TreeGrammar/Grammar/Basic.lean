import TreeGrammar.Text.Blank
import TreeGrammar.Text.Span
import TreeGrammar.Text.Uppercase

/-!
# Tree grammars

A tree grammar describes lists of sibling trees by rules. A rule has alternatives, an alternative is
a sequence of elements, and an element matches a node, calls a rule, groups or repeats alternatives,
or runs a piece of Rust code. Rules may declare attributes, parameters and a return value.

## Main definitions

* `Ident`, `Fragment`: names and pieces of Rust code with their positions
* `Expr`, `Alternative`: elements and sequences of elements
* `Rule`: rules
* `SourceGrammar`: a grammar as it is written
* `Rules`: the rules of a grammar and their numbers
-/

namespace TreeGrammar

/-- A name and the position of its first character. -/
structure Ident where
  name : String
  span : Span
  deriving DecidableEq, Repr

/-- Tokens start with an uppercase letter, all other names do not. -/
def Ident.isToken (ident : Ident) : Bool :=
  ident.name.toList.head?.any Text.isUppercase

/-- A piece of Rust code as it is written, and the position of its first character. -/
structure Fragment where
  text : String
  span : Span
  deriving DecidableEq, Repr

namespace Fragment

/-- The text without white space at its ends. -/
def trimmed (fragment : Fragment) : String :=
  String.ofList (Text.trimBlank fragment.text.toList)

/-- The text is white space. -/
def isBlank (fragment : Fragment) : Bool :=
  fragment.text.toList.all Text.isBlank

/-- The position after the first characters of the text. -/
def spanAfter (fragment : Fragment) (before : List Char) : Span :=
  fragment.span.advance before

end Fragment

/-- The words of a text, which white space separates. -/
def Text.words : List Char → List (List Char)
  | [] => []
  | c :: rest =>
    if isBlank c then words rest
    else match rest, words rest with
      | d :: _, word :: others =>
        if isBlank d then [c] :: word :: others else (c :: word) :: others
      | _, others => [c] :: others

/-- A type as it is compared and reported: its words with single spaces between them. -/
def normalizeType (text : String) : String :=
  " ".intercalate ((Text.words text.toList).map String.ofList)

/-- A typed name with an optional initial value: an attribute or a return value. -/
structure Attribute where
  name : Ident
  type : Fragment
  init : Option Fragment
  deriving DecidableEq, Repr

/-- The type of an attribute, normalized. -/
def Attribute.typeText (attr : Attribute) : String :=
  normalizeType attr.type.text

/-- How often a group of alternatives is matched. -/
inductive Repetition where
  /-- Exactly once. -/
  | once
  /-- At most once. -/
  | optional
  /-- Any number of times. -/
  | star
  /-- At least once. -/
  | plus
  deriving DecidableEq, Repr

/-- The group may be matched several times. -/
def Repetition.isRepeat : Repetition → Bool
  | star | plus => true
  | once | optional => false

/-- The suffix with which a repetition is written. -/
def Repetition.suffix : Repetition → String
  | once => ""
  | optional => "?"
  | star => "*"
  | plus => "+"

mutual

/-- An element of an alternative. Every element of a grammar has a number of its own, which is
smaller than the number of the element around it. A label binds the matched node or the value of
the called rule. -/
inductive Expr where
  /-- A node with the given label whose children match the given elements. -/
  | node (id : Nat) (span : Span) (label : Option Ident) (name : Ident) (children : List Expr)
  /-- A node with the given label. -/
  | token (id : Nat) (span : Span) (label : Option Ident) (name : Ident)
  /-- Any node. -/
  | wildcard (id : Nat) (span : Span) (label : Option Ident)
  /-- A call of a rule. -/
  | rule (id : Nat) (span : Span) (label : Option Ident) (name : Ident) (args : Option Fragment)
  /-- A group of alternatives. -/
  | subrule (id : Nat) (span : Span) (repetition : Repetition) (alternatives : List Alternative)
  /-- Code that is run. -/
  | action (id : Nat) (code : Fragment)
  /-- Code that must yield true. -/
  | predicate (id : Nat) (code : Fragment)

/-- A sequence of elements, entered only where its guard holds if it has one. -/
inductive Alternative where
  | mk (guard : Option Fragment) (elements : List Expr) (span : Span)

end

namespace Alternative

/-- The guard of an alternative. -/
def guard : Alternative → Option Fragment
  | mk guard _ _ => guard

/-- The elements of an alternative, in order. -/
def elements : Alternative → List Expr
  | mk _ elements _ => elements

/-- The position of an alternative. -/
def span : Alternative → Span
  | mk _ _ span => span

/-- The alternative has a guard. -/
def isGuarded (alternative : Alternative) : Bool := alternative.guard.isSome

end Alternative

namespace Expr

instance : Inhabited Expr := ⟨action 0 ⟨"", Span.start⟩⟩

/-- The number of an element. -/
def id : Expr → Nat
  | node id .. | token id .. | wildcard id .. | rule id .. | subrule id .. => id
  | action id _ | predicate id _ => id

/-- The position of an element; for code, of its first character. -/
def span : Expr → Span
  | node _ span .. | token _ span .. | wildcard _ span _ | rule _ span .. => span
  | subrule _ span .. => span
  | action _ code | predicate _ code => code.span

/-- The label of an element. -/
def label : Expr → Option Ident
  | node _ _ label .. | token _ _ label _ | wildcard _ _ label | rule _ _ label .. => label
  | subrule .. | action .. | predicate .. => none

mutual

/-- An element with all elements inside it, each after those inside it. -/
def postorder : Expr → List Expr
  | node id span label name children =>
    postorderList children ++ [node id span label name children]
  | subrule id span repetition alternatives =>
    postorderAlternatives alternatives ++ [subrule id span repetition alternatives]
  | token id span label name => [token id span label name]
  | wildcard id span label => [wildcard id span label]
  | rule id span label name args => [rule id span label name args]
  | action id code => [action id code]
  | predicate id code => [predicate id code]

/-- The elements of a sequence with all elements inside them. -/
def postorderList : List Expr → List Expr
  | [] => []
  | expr :: exprs => expr.postorder ++ postorderList exprs

/-- The elements of alternatives with all elements inside them. -/
def postorderAlternatives : List Alternative → List Expr
  | [] => []
  | .mk _ elements _ :: alternatives => postorderList elements ++ postorderAlternatives alternatives

end

end Expr

/-- A rule. -/
structure Rule where
  name : Ident
  isPublic : Bool
  attributes : List Attribute
  /-- The parameters of the rule as they stand between the parentheses of a Rust function. -/
  params : Option Fragment
  returns : Option Attribute
  alternatives : List Alternative

namespace Rule

/-- The attribute with the given name. -/
def attribute? (rule : Rule) (name : String) : Option Attribute :=
  rule.attributes.find? (·.name.name = name)

/-- The rule declares an attribute of the given name. -/
def declares (rule : Rule) (name : String) : Bool :=
  (rule.attribute? name).isSome

/-- All elements of a rule, each after those inside it. -/
def exprs (rule : Rule) : List Expr := Expr.postorderAlternatives rule.alternatives

end Rule

/-- The rules of a grammar, in order. -/
abbrev Rules := List Rule

/-- An option of a grammar, with the text between its parentheses. -/
structure GrammarOption where
  name : Ident
  args : Option Fragment
  deriving DecidableEq, Repr

/-- What is noted about an element besides what it matches. -/
structure ElementInfo where
  span : Span
  label : Option Ident
  deriving DecidableEq, Repr

/-- A grammar as it is written. -/
structure SourceGrammar where
  name : Ident := ⟨"tree_grammar", Span.start⟩
  options : List GrammarOption := []
  tokens : List Ident := []
  prelude : List Fragment := []
  rules : Rules := []
  /-- The names of the rules that are not well written and therefore left out of `rules`. -/
  malformed : List Ident := []
  /-- The elements in the order in which they end, those of malformed rules included. -/
  elements : List Expr := []
  /-- What is noted about the elements, in the same order. -/
  infos : List ElementInfo := []

namespace SourceGrammar

/-- The number of elements written, those of malformed rules included. It is the number of the next
element. -/
def exprCount (grammar : SourceGrammar) : Nat := grammar.elements.length

/-- The labels of elements in the order in which the elements end, those of malformed rules
included. -/
def labels (grammar : SourceGrammar) : List Ident := grammar.infos.filterMap ElementInfo.label

/-- One more element with its label. -/
def addElement (grammar : SourceGrammar) (label : Option Ident) (expr : Expr) : SourceGrammar :=
  { grammar with
    elements := grammar.elements ++ [expr]
    infos := grammar.infos ++ [⟨expr.span, label⟩] }

/-- Another element in the place of the one with its number. -/
def replaceElement (grammar : SourceGrammar) (expr : Expr) : SourceGrammar :=
  { grammar with elements := grammar.elements.set expr.id expr }

/-- Declares a token, once. -/
def addToken (grammar : SourceGrammar) (token : Ident) : SourceGrammar :=
  if grammar.tokens.any (·.name = token.name) then grammar
  else { grammar with tokens := grammar.tokens ++ [token] }

end SourceGrammar

namespace Rules

/-- The number of the first rule with the given name. -/
def index? (rules : Rules) (name : String) : Option Nat :=
  rules.findIdx? (·.name.name = name)

/-- The name of a rule given by its number. -/
def nameOf (rules : Rules) (index : Nat) : String :=
  (rules[index]?.map (·.name.name)).getD ""

/-- The rule of the given number declares an attribute of the given name. -/
def declares (rules : Rules) (index : Nat) (name : String) : Bool :=
  rules[index]?.any (·.declares name)

/-- The numbers of the rules at which walks start: the public rules, or the first rule if there is
none. -/
def entries (rules : Rules) : List Nat :=
  match (List.range rules.length).filter fun i => rules[i]?.any Rule.isPublic with
  | [] => if rules.isEmpty then [] else [0]
  | entries => entries

/-- All elements of the rules, each after those inside it. -/
def exprs (rules : Rules) : List Expr := rules.flatMap Rule.exprs

end Rules

end TreeGrammar
