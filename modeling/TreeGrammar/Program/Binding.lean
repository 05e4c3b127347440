import TreeGrammar.Analysis.Verdict

/-!
# Code with variables in the place of references

A reference to an attribute becomes a variable, which holds a borrowed attribute. The code has to
consist of tokens then, and the arguments of a call have to be expressions.

## Main definitions

* `Fragment.boundText`: code with variables in the place of references
* `Fragment.attributeNames`: the attributes to which code refers
* `Grammar.lexicalErrors`: code that is not what it stands for
* `Grammar.isReadable`: no check of arguments stops
-/

namespace TreeGrammar

/-- The variable to which a reference to an attribute is bound. -/
def attributeVariable (name : String) : String := "__attr_" ++ name

/-- The text that stands for a reference to an attribute. -/
def attributeText (name : List Char) : List Char :=
  "(*".toList ++ (attributeVariable (String.ofList name)).toList ++ ")".toList

namespace Fragment

/-- A piece of code with variables in the place of references. -/
def boundText (fragment : Fragment) : List Char := fragment.substituted attributeText

/-- The names of the attributes to which a piece of code refers, by first reference. -/
def attributeNames (fragment : Fragment) : List String :=
  (fragment.references.map Ident.name).eraseDups

/-- A piece of code does not consist of tokens. -/
def lexicalError? (fragment : Fragment) (text : List Char) : Option Diagnostic :=
  if (Host.lex text).isSome then none else some ⟨fragment.span, .notTokens fragment.trimmed⟩

/-- A piece of code does not consist of tokens when its references are replaced. -/
def boundError? (fragment : Fragment) : Option Diagnostic :=
  fragment.lexicalError? fragment.boundText

end Fragment

/-- What is wrong with the guards of alternatives. -/
def Alternative.guardErrors (alternatives : List Alternative) : List Diagnostic :=
  (Alternative.guards alternatives).filterMap Fragment.boundError?

/-- What is wrong with the code of an element, apart from the elements inside it. -/
def Expr.lexicalErrors : Expr → List Diagnostic
  | .rule _ _ _ name (some args) =>
    if (Host.readArguments args.boundText).isOk then []
    else [⟨args.span, .invalidArguments name.name⟩]
  | .action _ code | .predicate _ code => code.boundError?.toList
  | .subrule _ _ _ alternatives => Alternative.guardErrors alternatives
  | _ => []

/-- The check of the arguments of an element does not stop. -/
def Expr.isReadable : Expr → Bool
  | .rule _ _ _ _ (some args) => !Host.isUnreadable (Host.readArguments args.boundText)
  | _ => true

/-- What is wrong with the code of a rule. -/
def Rule.lexicalErrors (rule : Rule) : List Diagnostic :=
  Alternative.guardErrors rule.alternatives ++ rule.exprs.flatMap Expr.lexicalErrors

/-- What is wrong with the code of a grammar. -/
def Grammar.lexicalErrors (grammar : Grammar) : List Diagnostic :=
  (grammar.prelude.filterMap fun prelude => prelude.lexicalError? prelude.text.toList) ++
    grammar.rules.flatMap Rule.lexicalErrors

/-- No check of arguments stops. -/
def Grammar.isReadable (grammar : Grammar) : Bool :=
  grammar.rules.all fun rule => rule.exprs.all Expr.isReadable

end TreeGrammar
