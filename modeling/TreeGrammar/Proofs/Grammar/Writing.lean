import TreeGrammar.Grammar.Lexical
import TreeGrammar.Proofs.Grammar.Outline

/-!
# How grammars are written

The notation of grammars, without a parser: what it means that some part of an outline is written at
a place in a text. A place is given by the text that begins there; a part is written between two
places, from its first character to its last one. There may be white space and comments in front of
every word and every mark, except where the notation is tight: in front of the parenthesis of a node
match and of the arguments of a call. Code reaches from the character after its opening delimiter to
the closing one, and where it ends is what the reading of code says.

## Main definitions

* `Gap`: white space and comments
* `IsWord`, `IsCode`: names and code
* `Outline.Primary.IsWritten`, `Outline.Element.IsWritten`: elements
* `Outline.Rule.IsWritten`, `Outline.Item.IsWritten`: rules and other items
* `Outline.IsWritten`: whole texts
-/

namespace TreeGrammar

open Text

/-! ### White space and comments -/

/-- The rest of block comments inside each other, of which `depth` are open. -/
inductive CommentRest : Nat → List Char → List Char → Prop where
  | last (rest : List Char) : CommentRest 1 ('*' :: '/' :: rest) rest
  | closing {depth : Nat} {text rest : List Char} (h : CommentRest (depth + 1) text rest) :
      CommentRest (depth + 2) ('*' :: '/' :: text) rest
  | opening {depth : Nat} {text rest : List Char} (h : CommentRest (depth + 1) text rest) :
      CommentRest depth ('/' :: '*' :: text) rest
  | char {depth : Nat} {c : Char} {text rest : List Char}
      (hOpening : c = '/' → text.head? ≠ some '*') (hClosing : c = '*' → text.head? ≠ some '/')
      (h : CommentRest depth text rest) : CommentRest depth (c :: text) rest

/-- White space and comments. -/
inductive Gap : List Char → List Char → Prop where
  | none (rest : List Char) : Gap rest rest
  | blank {c : Char} {text rest : List Char} (hBlank : isBlank c) (h : Gap text rest) :
      Gap (c :: text) rest
  /-- A comment up to the end of the line or the text. -/
  | line {comment text rest : List Char} (hComment : '\n' ∉ comment)
      (hEnd : ∀ c ∈ text.head?, c = '\n') (h : Gap text rest) :
      Gap ('/' :: '/' :: (comment ++ text)) rest
  /-- A comment with comments inside. -/
  | block {comment text rest : List Char} (hComment : CommentRest 1 comment text)
      (h : Gap text rest) : Gap ('/' :: '*' :: comment) rest

/-! ### Words, marks and code -/

/-- A mark with a gap in front of it. -/
def IsMark (c : Char) (text rest : List Char) : Prop := Gap text (c :: rest)

/-- A name with a gap in front of it. What follows does not prolong the name. -/
structure IsWord (name : String) (text rest : List Char) : Prop where
  gap : Gap text (name.toList ++ rest)
  start : ∃ c ∈ name.toList.head?, isIdentStart c
  chars : ∀ c ∈ name.toList, isIdentChar c
  stop : ∀ c ∈ rest.head?, ¬ isIdentChar c

/-- At the start of a text, all of it is left to read. -/
theorem Reader.length_rest_start (text : List Char) :
    (Reader.start text).rest.length ≤ text.length :=
  Nat.le_refl _

/-- A text as the state of a parser that has not read anything. -/
def ReadState.ofText (text : List Char) : ReadState text text.length :=
  ⟨.start text, {}, Reader.length_rest_start text⟩

/-- Code up to one of the characters `stops`: reading it from its place on gives it back. -/
def IsCode (stops : List Char) (angle : Bool) (code : String) (text rest : List Char) : Prop :=
  ∃ result, (ReadState.ofText text).fragment stops angle = .ok result ∧
    result.value.text = code ∧ result.state.rest = rest

/-- The name starts like the names of tokens. -/
def IsTokenName (name : String) : Prop := ∃ c ∈ name.toList.head?, isUppercase c

instance (name : String) : Decidable (IsTokenName name) :=
  decidable_of_iff (name.toList.head?.any isUppercase = true) (Option.any_eq_true ..)

/-- The code is white space. -/
def IsBlankCode (code : String) : Prop := ∀ c ∈ code.toList, isBlank c

/-- Code between a mark and another one, without gaps around it. -/
inductive IsEnclosed (opening closing : Char) (code : String) : List Char → List Char → Prop where
  | intro {text text₁ rest : List Char} (hOpening : IsMark opening text text₁)
      (hCode : IsCode [closing] false code text₁ (closing :: rest)) :
      IsEnclosed opening closing code text rest

/-- Items with commas between them and a mark at the end. A comma may stand after the last item. -/
inductive IsListed {α : Type} (isItem : α → List Char → List Char → Prop) (closing : Char) :
    List α → List Char → List Char → Prop where
  | nil {text rest : List Char} (hEnd : IsMark closing text rest) :
      IsListed isItem closing [] text rest
  | last {item : α} {text text₁ rest : List Char} (hItem : isItem item text text₁)
      (hEnd : IsMark closing text₁ rest) : IsListed isItem closing [item] text rest
  | cons {item : α} {items : List α} {text text₁ text₂ rest : List Char}
      (hItem : isItem item text text₁) (hComma : IsMark ',' text₁ text₂)
      (hItems : IsListed isItem closing items text₂ rest) :
      IsListed isItem closing (item :: items) text rest

namespace Outline

/-! ### Elements -/

/-- A suffix; nothing if there is none. -/
inductive IsSuffix : Repetition → List Char → List Char → Prop where
  | once (rest : List Char) : IsSuffix .once rest rest
  | optional {text rest : List Char} (h : IsMark '?' text rest) : IsSuffix .optional text rest
  | star {text rest : List Char} (h : IsMark '*' text rest) : IsSuffix .star text rest
  | plus {text rest : List Char} (h : IsMark '+' text rest) : IsSuffix .plus text rest

mutual

/-- An element without its label and its suffix. -/
inductive Primary.IsWritten : Primary → List Char → List Char → Prop where
  /-- No gap stands between the two marks of a node match. -/
  | node {name : String} {children : List Element} {text text₁ text₂ text₃ rest : List Char}
      (hOpening : Gap text ('#' :: '(' :: text₁)) (hName : IsWord name text₁ text₂)
      (hToken : IsTokenName name) (hChildren : AreWritten children text₂ text₃)
      (hClosing : IsMark ')' text₃ rest) : Primary.IsWritten (.node name children) text rest
  | token {name : String} {text rest : List Char} (hName : IsWord name text rest)
      (hToken : IsTokenName name) : Primary.IsWritten (.token name) text rest
  | wildcard {text rest : List Char} (h : IsMark '.' text rest) :
      Primary.IsWritten .wildcard text rest
  | call {name : String} {text rest : List Char} (hName : IsWord name text rest)
      (hRule : ¬ IsTokenName name) : Primary.IsWritten (.call name none) text rest
  /-- No gap stands in front of the arguments of a call. -/
  | callWith {name args : String} {text text₁ rest : List Char}
      (hName : IsWord name text ('[' :: text₁)) (hRule : ¬ IsTokenName name)
      (hArgs : IsCode [']'] false args text₁ (']' :: rest)) :
      Primary.IsWritten (.call name (some args)) text rest
  | group {alternatives : List Alternative} {text text₁ text₂ rest : List Char}
      (hOpening : IsMark '(' text text₁) (hAlternatives : AreChoices alternatives text₁ text₂)
      (hClosing : IsMark ')' text₂ rest) : Primary.IsWritten (.group alternatives) text rest

/-- An element. -/
inductive Element.IsWritten : Element → List Char → List Char → Prop where
  | plain {primary : Primary} {repetition : Repetition} {text text₁ rest : List Char}
      (hPrimary : primary.IsWritten text text₁) (hSuffix : IsSuffix repetition text₁ rest) :
      Element.IsWritten (.primary none primary repetition) text rest
  /-- Groups and elements with a suffix have no label. -/
  | labelled {label : String} {primary : Primary} {text text₁ text₂ rest : List Char}
      (hLabel : IsWord label text text₁) (hLower : ¬ IsTokenName label)
      (hEquals : IsMark '=' text₁ text₂) (hPrimary : primary.IsWritten text₂ rest)
      (hGroup : primary.isGroup = false) :
      Element.IsWritten (.primary (some label) primary .once) text rest
  | action {code : String} {text rest : List Char} (hCode : IsEnclosed '{' '}' code text rest)
      (hBlank : ¬ IsBlankCode code) : Element.IsWritten (.action code) text rest
  | predicate {code : String} {text text₁ rest : List Char}
      (hCode : IsEnclosed '{' '}' code text text₁) (hBlank : ¬ IsBlankCode code)
      (hMark : IsMark '?' text₁ rest) : Element.IsWritten (.predicate code) text rest

/-- Elements one after the other. -/
inductive AreWritten : List Element → List Char → List Char → Prop where
  | nil (rest : List Char) : AreWritten [] rest rest
  | cons {element : Element} {elements : List Element} {text text₁ rest : List Char}
      (hElement : element.IsWritten text text₁) (hElements : AreWritten elements text₁ rest) :
      AreWritten (element :: elements) text rest

/-- An alternative. A predicate at its beginning is its guard. -/
inductive Alternative.IsWritten : Alternative → List Char → List Char → Prop where
  | plain {elements : List Element} {text rest : List Char}
      (hElements : AreWritten elements text rest)
      (hFirst : ∀ code, elements.head? ≠ some (.predicate code)) :
      Alternative.IsWritten (.mk none elements) text rest
  | guarded {code : String} {elements : List Element} {text text₁ text₂ rest : List Char}
      (hCode : IsEnclosed '{' '}' code text text₁) (hBlank : ¬ IsBlankCode code)
      (hMark : IsMark '?' text₁ text₂) (hElements : AreWritten elements text₂ rest) :
      Alternative.IsWritten (.mk (some code) elements) text rest

/-- One or more alternatives with bars between them. -/
inductive AreChoices : List Alternative → List Char → List Char → Prop where
  | last {alternative : Alternative} {text rest : List Char}
      (hAlternative : alternative.IsWritten text rest) : AreChoices [alternative] text rest
  | cons {alternative : Alternative} {alternatives : List Alternative}
      {text text₁ text₂ rest : List Char} (hAlternative : alternative.IsWritten text text₁)
      (hBar : IsMark '|' text₁ text₂) (hAlternatives : AreChoices alternatives text₂ rest) :
      AreChoices (alternative :: alternatives) text rest

end

/-! ### Rules -/

/-- The initial value of a declaration, up to a comma or a closing bracket. It follows the type
without a gap, which would belong to the type. -/
inductive IsInit : Option String → List Char → List Char → Prop where
  | none (rest : List Char) : IsInit none rest rest
  | some {init : String} {text rest : List Char} (hCode : IsCode [',', ']'] false init text rest)
      (hBlank : ¬ IsBlankCode init) : IsInit (some init) ('=' :: text) rest

/-- A declaration. Its type ends before a comma, an equals sign or a closing bracket outside of
angle brackets. -/
inductive Declaration.IsWritten (declaration : Declaration) : List Char → List Char → Prop where
  | intro {text text₁ text₂ text₃ rest : List Char} (hName : IsWord declaration.name text text₁)
      (hColon : IsMark ':' text₁ text₂)
      (hType : IsCode [',', '=', ']'] true declaration.type text₂ text₃)
      (hBlank : ¬ IsBlankCode declaration.type) (hInit : IsInit declaration.init text₃ rest) :
      Declaration.IsWritten declaration text rest

/-- Code in parentheses; nothing if there is none. -/
inductive IsParenthesized : Option String → List Char → List Char → Prop where
  | none (rest : List Char) : IsParenthesized none rest rest
  | some {code : String} {text rest : List Char} (h : IsEnclosed '(' ')' code text rest) :
      IsParenthesized (some code) text rest

/-- The attributes of a rule. Brackets need not stand there if there are none. -/
inductive AreAttributes : List Declaration → List Char → List Char → Prop where
  | none (rest : List Char) : AreAttributes [] rest rest
  | some {declarations : List Declaration} {text text₁ rest : List Char}
      (hOpening : IsMark '[' text text₁)
      (hDeclarations : IsListed Declaration.IsWritten ']' declarations text₁ rest) :
      AreAttributes declarations text rest

/-- The return value of a rule; nothing if there is none. -/
inductive IsReturn : Option Declaration → List Char → List Char → Prop where
  | none (rest : List Char) : IsReturn none rest rest
  | some {declaration : Declaration} {text text₁ text₂ text₃ rest : List Char}
      (hWord : IsWord "returns" text text₁) (hOpening : IsMark '[' text₁ text₂)
      (hDeclaration : declaration.IsWritten text₂ text₃) (hClosing : IsMark ']' text₃ rest) :
      IsReturn (some declaration) text rest

/-- The name of a rule, after the word `pub` if the rule is public. -/
inductive IsRuleName (name : String) : Bool → List Char → List Char → Prop where
  | plain {text rest : List Char} (hName : IsWord name text rest) (hPub : name ≠ "pub") :
      IsRuleName name false text rest
  | pub {text text₁ rest : List Char} (hWord : IsWord "pub" text text₁)
      (hName : IsWord name text₁ rest) : IsRuleName name true text rest

/-- A rule. -/
inductive Rule.IsWritten (rule : Rule) : List Char → List Char → Prop where
  | intro {text text₁ text₂ text₃ text₄ text₅ text₆ rest : List Char}
      (hName : IsRuleName rule.name rule.isPublic text text₁) (hRule : ¬ IsTokenName rule.name)
      (hAttributes : AreAttributes rule.attributes text₁ text₂)
      (hParams : IsParenthesized rule.params text₂ text₃)
      (hReturns : IsReturn rule.returns text₃ text₄) (hColon : IsMark ':' text₄ text₅)
      (hAlternatives : AreChoices rule.alternatives text₅ text₆) (hEnd : IsMark ';' text₆ rest) :
      Rule.IsWritten rule text rest

/-! ### Grammars -/

/-- The name of a token. -/
def IsTokenWord (name : String) (text rest : List Char) : Prop :=
  IsWord name text rest ∧ IsTokenName name

/-- An item. -/
inductive Item.IsWritten : Item → List Char → List Char → Prop where
  | option {name : String} {args : Option String}
      {text text₁ text₂ text₃ text₄ text₅ rest : List Char} (hHash : IsMark '#' text text₁)
      (hMark : IsMark '!' text₁ text₂) (hOpening : IsMark '[' text₂ text₃)
      (hName : IsWord name text₃ text₄) (hArgs : IsParenthesized args text₄ text₅)
      (hClosing : IsMark ']' text₅ rest) : Item.IsWritten (.option name args) text rest
  | tokens {names : List String} {text text₁ text₂ rest : List Char}
      (hWord : IsWord "tokens" text text₁) (hOpening : IsMark '{' text₁ text₂)
      (hNames : IsListed IsTokenWord '}' names text₂ rest) :
      Item.IsWritten (.tokens names) text rest
  | prelude {code : String} {text text₁ rest : List Char} (hWord : IsWord "prelude" text text₁)
      (hCode : IsEnclosed '{' '}' code text₁ rest) : Item.IsWritten (.prelude code) text rest
  | rule {rule : Rule} {text rest : List Char} (h : rule.IsWritten text rest) :
      Item.IsWritten (.rule rule) text rest

/-- Items one after the other, with a gap after the last one, up to the end of a text. -/
inductive AreItems : List Item → List Char → Prop where
  | nil {text : List Char} (hEnd : Gap text []) : AreItems [] text
  | cons {item : Item} {items : List Item} {text rest : List Char}
      (hItem : item.IsWritten text rest) (hItems : AreItems items rest) :
      AreItems (item :: items) text

/-- The item would be taken for a header. -/
def Item.IsHeaderLike : Item → Prop
  | .rule first => first.name = "tree" ∧ first.isPublic = false
  | _ => False

/-- A text is written as the outline has it. Without a header, the first item must not look like
one. -/
inductive IsWritten : Outline → List Char → Prop where
  | plain {items : List Item} {text : List Char} (hItems : AreItems items text)
      (hFirst : ∀ item ∈ items.head?, ¬ item.IsHeaderLike) : IsWritten ⟨none, items⟩ text
  | header {name : String} {items : List Item} {text text₁ text₂ text₃ text₄ : List Char}
      (hTree : IsWord "tree" text text₁) (hGrammar : IsWord "grammar" text₁ text₂)
      (hName : IsWord name text₂ text₃) (hEnd : IsMark ';' text₃ text₄)
      (hItems : AreItems items text₄) : IsWritten ⟨some name, items⟩ text

end Outline

end TreeGrammar
