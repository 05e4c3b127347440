import TreeGrammar.Program.Build
import TreeGrammar.Program.Render
import TreeGrammar.Host.Check

/-!
# Compilation

A grammar that the analysis accepts is compiled to a Rust module, unless its code turns out not to
consist of tokens. The options may ask for the module or its public functions to be printed.

## Main definitions

* `Compilation`: the code of a grammar with what there is to say about it
* `compile`: the compilation of a text
-/

namespace TreeGrammar

/-- What the compilation of a text gives. -/
structure Compilation where
  code : Option String
  /-- What there is to say, in the order in which it is found. -/
  diagnostics : List Diagnostic
  /-- What the options ask to print. -/
  logs : List String

/-- Why a grammar that is accepted cannot be compiled at all. -/
inductive CompileFailure where
  /-- The name of the variant for the attributes of a rule is no identifier. -/
  | illegalVariant (name : String)
  /-- A check of the code stops. -/
  | unreadableCode
  deriving DecidableEq, Repr

/-- The public functions of the module of a program as they are printed. -/
def Program.readInterface (program : Program) : Except Host.Refusal String :=
  (Host.readSignatures program.itemTokens).map fun signatures =>
    s!"pub mod {program.name} \x7b\n" ++
      String.join (signatures.map fun signature => s!"  pub {Host.Token.print signature};\n") ++
      "\x7d"

/-- What is printed about the code of a program. -/
def Program.describe (program : Program) (code : String) :
    PrintLevel → Except CompileFailure (List String)
  | .nothing => .ok []
  | .shown =>
    match program.readInterface with
    | .ok interface => .ok ["generated API:\n" ++ interface]
    | .error .mismatch => .ok ["generated module cannot be printed"]
    | .error .unreadable => .error .unreadableCode
  | .debug => .ok ["generated code:\n" ++ code]

/-- The compilation of an accepted grammar. -/
def Grammar.compile (grammar : Grammar) (analysis : Analysis) :
    Except CompileFailure Compilation := do
  let program := grammar.program
  match (program.procedures.filterMap Procedure.variant).find? (!isVariantName ·) with
  | some name => throw (.illegalVariant name)
  | none =>
    if !grammar.isReadable then throw .unreadableCode
    match grammar.lexicalErrors with
    | [] =>
      let code := Host.Token.print program.moduleTokens
      let printed ← program.describe code grammar.options.printCode
      return {
        code := some code
        diagnostics := analysis.diagnostics
        logs := analysis.logs ++ printed }
    | errors =>
      return {
        code := none
        diagnostics := analysis.diagnostics ++ errors
        logs := analysis.logs }

/-- The compilation of a text with the options of a caller. -/
def compile (source : List Char) (options : Options) : Except CompileFailure Compilation :=
  let analysis := analyse source options
  if !analysis.isReadable then .error .unreadableCode
  else match analysis.accepted? with
    | some grammar => grammar.compile analysis
    | none => .ok { code := none, diagnostics := analysis.diagnostics, logs := analysis.logs }

end TreeGrammar
