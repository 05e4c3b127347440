import TreeGrammar.Grammar.Basic

/-!
# Outlines of grammars

An outline is what an author has in mind when writing a grammar: items in an order, rules with
alternatives, elements with labels and suffixes, but neither numbers nor positions. The same
grammar may have several outlines: an element under a suffix may also be put into a group of its
own, tokens may be declared in one list or in several ones, and the order of items of different
kinds does not matter. What is left of an outline are its contents, and a grammar that has been read
has contents, too.

## Main definitions

* `Outline`: a grammar as an author has it in mind
* `Outline.contents`: what an outline says
* `SourceGrammar.contents`: what a grammar says that has been read
-/

namespace TreeGrammar

/-! ### Outlines -/

namespace Outline

/-- A typed name with an optional initial value. -/
structure Declaration where
  name : String
  type : String
  init : Option String

mutual

/-- An element without its label and its suffix. -/
inductive Primary where
  /-- A node with children. -/
  | node (name : String) (children : List Element)
  /-- A node of which only the label counts. -/
  | token (name : String)
  /-- Any node. -/
  | wildcard
  /-- A call of a rule, maybe with arguments. -/
  | call (name : String) (args : Option String)
  /-- Alternatives in parentheses. -/
  | group (alternatives : List Alternative)

/-- An element of an alternative. -/
inductive Element where
  /-- An element that matches something; `once` stands for no suffix. -/
  | primary (label : Option String) (primary : Primary) (repetition : Repetition)
  /-- Code that is run. -/
  | action (code : String)
  /-- Code that must yield true. -/
  | predicate (code : String)

/-- A sequence of elements, maybe with a guard in front. -/
inductive Alternative where
  | mk (guard : Option String) (elements : List Element)

end

/-- A rule. -/
structure Rule where
  name : String
  isPublic : Bool
  attributes : List Declaration
  params : Option String
  returns : Option Declaration
  alternatives : List Alternative

/-- An item of a grammar. -/
inductive Item where
  | option (name : String) (args : Option String)
  | tokens (names : List String)
  | prelude (code : String)
  | rule (rule : Rule)

end Outline

/-- A grammar as an author has it in mind: a name, if there is a header, and items. -/
structure Outline where
  header : Option String
  items : List Outline.Item

/-- What a grammar says, each kind of items for itself. -/
structure Contents where
  name : String := "tree_grammar"
  options : List (String × Option String) := []
  tokens : List String := []
  prelude : List String := []
  rules : List Outline.Rule := []

/-! ### The contents of outlines -/

namespace Outline

/-- The primary is a group of alternatives. -/
def Primary.isGroup : Primary → Bool
  | group _ => true
  | _ => false

/-- An element under a suffix: a group is repeated itself, anything else is put into a group. -/
def Primary.repeated (label : Option String) (primary : Primary) : Repetition → Element
  | .once => .primary label primary .once
  | repetition =>
    if primary.isGroup then .primary none primary repetition
    else .primary none (.group [.mk none [.primary none primary .once]]) repetition

mutual

/-- The primary with groups inside it for all that is repeated. -/
def Primary.grouped : Primary → Primary
  | .node name children => .node name (groupedElements children)
  | .group alternatives => .group (groupedAlternatives alternatives)
  | .token name => .token name
  | .wildcard => .wildcard
  | .call name args => .call name args

/-- The element with groups for all that is repeated. -/
def Element.grouped : Element → Element
  | .primary label primary repetition => primary.grouped.repeated label repetition
  | .action code => .action code
  | .predicate code => .predicate code

/-- The elements with groups for all that is repeated. -/
def groupedElements : List Element → List Element
  | [] => []
  | element :: elements => element.grouped :: groupedElements elements

/-- The alternative with groups for all that is repeated. -/
def Alternative.grouped : Alternative → Alternative
  | .mk guard elements => .mk guard (groupedElements elements)

/-- The alternatives with groups for all that is repeated. -/
def groupedAlternatives : List Alternative → List Alternative
  | [] => []
  | alternative :: alternatives => alternative.grouped :: groupedAlternatives alternatives

end

/-- The rule with groups for all that is repeated. -/
def Rule.grouped (rule : Rule) : Rule :=
  { rule with alternatives := groupedAlternatives rule.alternatives }

end Outline

/-- The contents with one more token, unless it is among them. -/
def Contents.addToken (contents : Contents) (name : String) : Contents :=
  if name ∈ contents.tokens then contents
  else { contents with tokens := contents.tokens ++ [name] }

/-- The contents with one more item. -/
def Contents.add (contents : Contents) : Outline.Item → Contents
  | .option name args => { contents with options := contents.options ++ [(name, args)] }
  | .tokens names => names.foldl addToken contents
  | .prelude code => { contents with prelude := contents.prelude ++ [code] }
  | .rule rule => { contents with rules := contents.rules ++ [rule.grouped] }

/-- The contents of an outline. A grammar without a header has a name of its own. -/
def Outline.contents (outline : Outline) : Contents :=
  outline.items.foldl Contents.add { name := outline.header.getD "tree_grammar" }

/-! ### The contents of grammars -/

/-- A declaration without its positions. -/
def Attribute.outline (attr : Attribute) : Outline.Declaration :=
  ⟨attr.name.name, attr.type.text, attr.init.map Fragment.text⟩

mutual

/-- An element without its number and its positions. -/
def Expr.outline : Expr → Outline.Element
  | .node _ _ label name children =>
    .primary (label.map Ident.name) (.node name.name (Expr.outlines children)) .once
  | .token _ _ label name => .primary (label.map Ident.name) (.token name.name) .once
  | .wildcard _ _ label => .primary (label.map Ident.name) .wildcard .once
  | .rule _ _ label name args =>
    .primary (label.map Ident.name) (.call name.name (args.map Fragment.text)) .once
  | .subrule _ _ repetition alternatives =>
    .primary none (.group (Alternative.outlines alternatives)) repetition
  | .action _ code => .action code.text
  | .predicate _ code => .predicate code.text

/-- Elements without their numbers and positions. -/
def Expr.outlines : List Expr → List Outline.Element
  | [] => []
  | expr :: exprs => expr.outline :: Expr.outlines exprs

/-- An alternative without its positions. -/
def Alternative.outline : Alternative → Outline.Alternative
  | .mk guard elements _ => .mk (guard.map Fragment.text) (Expr.outlines elements)

/-- Alternatives without their positions. -/
def Alternative.outlines : List Alternative → List Outline.Alternative
  | [] => []
  | alternative :: alternatives => alternative.outline :: Alternative.outlines alternatives

end

/-- A rule without its positions. -/
def Rule.outline (rule : Rule) : Outline.Rule where
  name := rule.name.name
  isPublic := rule.isPublic
  attributes := rule.attributes.map Attribute.outline
  params := rule.params.map Fragment.text
  returns := rule.returns.map Attribute.outline
  alternatives := Alternative.outlines rule.alternatives

/-- What a grammar says that has been read, without numbers and positions. -/
def SourceGrammar.contents (grammar : SourceGrammar) : Contents where
  name := grammar.name.name
  options := grammar.options.map fun option => (option.name.name, option.args.map Fragment.text)
  tokens := grammar.tokens.map Ident.name
  prelude := grammar.prelude.map Fragment.text
  rules := grammar.rules.map Rule.outline

end TreeGrammar
