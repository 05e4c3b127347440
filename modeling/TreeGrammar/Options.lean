/-!
# Compilation options

A caller gives options to the compiler and a grammar may add its own. Of two print levels the more
talkative one counts, and the state type of a grammar replaces the caller's.

## Main definitions

* `PrintLevel`, `PrintLevel.merge`: how much is printed
* `Options`: the options of a compilation
-/

namespace TreeGrammar

/-- How much of a result is printed. -/
inductive PrintLevel where
  | nothing
  | shown
  | debug
  deriving DecidableEq, Repr

namespace PrintLevel

/-- The more talkative of two levels. -/
def merge : PrintLevel → PrintLevel → PrintLevel
  | debug, _ => debug
  | _, debug => debug
  | shown, _ => shown
  | _, shown => shown
  | nothing, nothing => nothing

end PrintLevel

/-- The options of a compilation. -/
structure Options where
  printCode : PrintLevel := .nothing
  printDecisions : PrintLevel := .nothing
  /-- The Rust type of the host state that a walk threads through; `()` if there is none. -/
  stateType : Option String := none
  deriving DecidableEq, Repr

end TreeGrammar
