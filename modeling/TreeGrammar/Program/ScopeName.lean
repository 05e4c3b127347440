import TreeGrammar.Grammar.Basic
import TreeGrammar.Host.Literal
import TreeGrammar.Text.UppercaseMapping

/-!
# Names of scopes

The attributes of a rule are held by a variant of a type of scopes, which is named for the rule. The
words of the rule's name start with uppercase letters and stand without underscores. If the name is
taken, the number of the rule is added.

## Main definitions

* `camelCase`: a name without underscores
* `Rules.scopeNames`: the variants of the rules
* `isVariantName`: a name can be the name of a variant
-/

namespace TreeGrammar

/-- The text without underscores; letters at its start and after underscores become uppercase. -/
def capitalizeWords (atStart : Bool) : List Char → List Char
  | [] => []
  | c :: rest =>
    if c = '_' then capitalizeWords true rest
    else if atStart then Text.toUppercase c ++ capitalizeWords false rest
    else c :: capitalizeWords false rest

/-- The name of a rule as the name of a variant, which is not empty. -/
def camelCase (name : String) : String :=
  match capitalizeWords true name.toList with
  | [] => "R"
  | camel => String.ofList camel

/-- The variant of the scope that is open where a walk starts. -/
def rootVariant : String := "Root"

/-- The variants of rules, of which the first one has the given number, where some names are
taken. -/
def scopeNamesFrom (taken : List String) (index : Nat) : Rules → List (Option String)
  | [] => []
  | rule :: rules =>
    if rule.attributes.isEmpty then none :: scopeNamesFrom taken (index + 1) rules
    else
      let camel := camelCase rule.name.name
      let name := if camel ∈ taken then camel ++ toString index else camel
      some name :: scopeNamesFrom (name :: taken) (index + 1) rules

/-- For each rule that declares attributes, the variant that holds them. -/
def Rules.scopeNames (rules : Rules) : List (Option String) :=
  scopeNamesFrom [rootVariant] 0 rules

/-- A name can be the name of a variant: it is one word. -/
def isVariantName (name : String) : Bool :=
  !name.toList.isEmpty && Host.wordLength name.toList = name.toList.length

end TreeGrammar
