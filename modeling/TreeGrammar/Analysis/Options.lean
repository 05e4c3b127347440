import TreeGrammar.Diagnostic
import TreeGrammar.Options

/-!
# Options of a grammar

A grammar may ask for its decisions and its code to be printed, and it may set the state type.
Options that are unknown or incomplete are left out with a warning.

## Main definitions

* `GrammarOption.apply`: options with one more option of a grammar
* `SourceGrammar.mergedOptions`: the options of a caller together with those of a grammar
* `SourceGrammar.optionWarnings`: the options that are left out
-/

namespace TreeGrammar

namespace GrammarOption

/-- What an option asks to print: the level, and code rather than decisions. -/
def printing? (option : GrammarOption) : Option (PrintLevel × Bool) :=
  match option.name.name with
  | "debug_code" => some (.debug, true)
  | "debug_decisions" => some (.debug, false)
  | "show_code" => some (.shown, true)
  | "show_decisions" => some (.shown, false)
  | _ => none

/-- The type that an option sets for the state. -/
def stateType? (option : GrammarOption) : Option String :=
  option.args.bind fun args => if args.isBlank then none else some (normalizeType args.text)

/-- The options of a caller with an option of a grammar. -/
def apply (options : Options) (option : GrammarOption) : Options :=
  if option.name.name = "state" then
    match option.stateType? with
    | some type => { options with stateType := some type }
    | none => options
  else match option.printing? with
    | some (level, true) => { options with printCode := options.printCode.merge level }
    | some (level, false) => { options with printDecisions := options.printDecisions.merge level }
    | none => options

/-- What is left out of an option. -/
def warning? (option : GrammarOption) : Option Diagnostic :=
  let name := option.name
  if name.name = "state" then
    if option.stateType?.isSome then none else some ⟨name.span, .stateWithoutType⟩
  else if option.printing?.isSome then
    option.args.map fun args => ⟨args.span, .uselessArguments name.name⟩
  else some ⟨name.span, .unknownOption name.name⟩

end GrammarOption

namespace SourceGrammar

/-- The options of a caller together with those of a grammar. -/
def mergedOptions (grammar : SourceGrammar) (options : Options) : Options :=
  grammar.options.foldl GrammarOption.apply options

/-- The options of a grammar that are left out. -/
def optionWarnings (grammar : SourceGrammar) : List Diagnostic :=
  grammar.options.filterMap GrammarOption.warning?

end SourceGrammar

end TreeGrammar
