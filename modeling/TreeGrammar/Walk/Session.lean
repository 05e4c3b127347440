import TreeGrammar.Walk.Frame
import TreeGrammar.Walk.Walker

/-!
# Walking sessions

A session drives cursors, frames and a walker by single commands, as the procedures of a grammar
do. It holds a stack of cursors, a chain of frames whose scopes bind names to integers, one walker,
and the node that a command has passed last.

## Main definitions

* `Session`: the state
* `Session.Command`, `Session.Answer`: the commands and what they yield
* `Session.run`: the effect of one command
-/

namespace TreeGrammar

/-- A scope that binds names to integers. -/
abbrev Bindings := List (String × Int)

/-- A scope in which a bound name is given another value; none if the name is not bound. -/
def Bindings.assign? (name : String) (value : Int) (bindings : Bindings) : Option Bindings :=
  match bindings.lookup name with
  | some _ => some (bindings.map fun (other, old) =>
      if other = name then (other, value) else (other, old))
  | none => none

/-- The state of a session. The current cursor lies on a stack of outer ones. -/
structure Session where
  cursor : Cursor
  outer : List Cursor := []
  frame : Frame Bindings := .root []
  walker : Walker := {}
  last : Option Tree := none

namespace Session

/-- The commands of a session. -/
inductive Command where
  | enter (rule : String)
  | exit
  | expect (rule label : String)
  | wildcard (rule : String)
  | expectEnd (rule : String)
  | mismatch (rule : String) (expected : List String)
  | noViableAlternative (rule : String) (decision : Nat)
  | failedPredicate (rule predicate : String)
  | peek
  | peekLabel
  | bump
  | atEnd
  | remaining
  | parent
  | position
  /-- Descend to the children of the last node. -/
  | down
  /-- Return to the cursor above. -/
  | up
  | push (scope : Bindings)
  | pop
  | get (name : String)
  | set (name : String) (value : Int)
  | scope
  | frameParent
  | ancestors

/-- What a command yields. -/
inductive Answer where
  | none
  | node (tree : Tree)
  | nodes (trees : List Tree)
  | text (text : String)
  | truth (value : Bool)
  | count (value : Nat)
  | value (value : Int)
  | position (position : Position)
  | scope (scope : Bindings)
  | scopes (scopes : List Bindings)

/-- The answer of a command that may have no node to give. -/
def Answer.ofNode? : Option Tree → Answer
  | some tree => .node tree
  | Option.none => .none

/-- The session after the walker has done something that yields no node. -/
def settle (session : Session) : Except Failure Unit × Walker → Except Failure Answer × Session
  | (result, walker) => (result.map fun _ => .none, { session with walker })

/-- The session after the walker has tried to pass a node. -/
def settleNode (session : Session) :
    Except Failure (Tree × Cursor) × Walker → Except Failure Answer × Session
  | (.ok (node, cursor), walker) =>
    (.ok (.node node), { session with walker, cursor, last := node })
  | (.error failure, walker) => (.error failure, { session with walker })

/-- The effect of a command, and what it yields. -/
def run (session : Session) (command : Command) : Except Failure Answer × Session :=
  let walker := session.walker
  let cursor := session.cursor
  match command with
  | .enter rule => session.settle (walker.enter rule)
  | .exit => (.ok .none, { session with walker := walker.exit })
  | .expect rule label => session.settleNode (walker.expect cursor rule label)
  | .wildcard rule => session.settleNode (walker.wildcard cursor rule)
  | .expectEnd rule => session.settle (walker.expectEnd cursor rule)
  | .mismatch rule expected => session.settle (walker.mismatch cursor rule expected)
  | .noViableAlternative rule decision =>
    session.settle (walker.noViableAlternative cursor rule decision)
  | .failedPredicate rule predicate => session.settle (walker.failedPredicate cursor rule predicate)
  | .peek => (.ok (.ofNode? cursor.peek?), session)
  | .peekLabel =>
    match cursor.peekLabel? with
    | some label => (.ok (.text label), session)
    | none => (.ok .none, session)
  | .bump =>
    match cursor.advance? with
    | some (node, cursor) => (.ok (.node node), { session with cursor, last := node })
    | none => (.ok .none, session)
  | .atEnd => (.ok (.truth cursor.atEnd), session)
  | .remaining => (.ok (.nodes cursor.remaining), session)
  | .parent => (.ok (.ofNode? cursor.parent), session)
  | .position => (.ok (.position cursor.position), session)
  | .down =>
    match session.last with
    | some node =>
      (.ok (.count node.children.length),
        { session with cursor := .children node, outer := cursor :: session.outer })
    | none => (.ok .none, session)
  | .up =>
    match session.outer with
    | cursor :: outer => (.ok (.count (outer.length + 1)), { session with cursor, outer })
    | [] => (.ok (.count 1), session)
  | .push scope => (.ok .none, { session with frame := .push scope session.frame })
  | .pop => (.ok .none, { session with frame := session.frame.parent?.getD session.frame })
  | .get name =>
    match session.frame.attribute? (·.lookup name) with
    | some value => (.ok (.value value), session)
    | none => (.error (.unboundAttribute name), session)
  | .set name value =>
    match session.frame.update? (·.assign? name value) with
    | some frame => (.ok .none, { session with frame })
    | none => (.error (.unboundAttribute name), session)
  | .scope => (.ok (.scope session.frame.scope), session)
  | .frameParent =>
    match session.frame.parent? with
    | some caller => (.ok (.scope caller.scope), session)
    | none => (.ok .none, session)
  | .ancestors => (.ok (.scopes session.frame.scopes), session)

/-- The answers to a list of commands, each with the session after it. -/
def runAll (session : Session) : List Command → List (Except Failure Answer × Session)
  | [] => []
  | command :: commands =>
    let step := session.run command
    step :: step.2.runAll commands

end Session

end TreeGrammar
