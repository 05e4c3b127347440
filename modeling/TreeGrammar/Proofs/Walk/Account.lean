import Mathlib.Data.List.Basic
import TreeGrammar.Walk.Session

/-!
# What a session accounts for

The commands of a session that do not move to another list of siblings work on one cursor and on the
walker. After any number of them, in whatever order and however many of them have failed, no node of
the list is lost or repeated: the nodes that have been passed are those in front of the cursor. The
depth is the number of calls that are entered and not left, and what the walker has reported are the
failures, one after the other.

## Main definitions

* `Session.Stage`: a command with what it yields and with the sessions before and after it
* `Session.trace`: the stages of a list of commands
* `Session.Stage.HasEffect`: what a command can do to the cursor and the walker
* `Session.Accounts`: how a session depends on the stages that have led to it

## Main results

* `Session.hasEffect_stage`: all that a command can do
* `Session.Accounts.concat`: the account is kept by every command
* `Session.trace_accounts`: the account of a session after every stage of a run
-/

namespace TreeGrammar

namespace Session

/-! ### Stages of a run -/

/-- A command with the session in which it is given, what it yields, and the session after it. -/
structure Stage where
  before : Session
  command : Command
  answer : Except Failure Answer
  after : Session

/-- The stage of a command that is given in a session. -/
def stage (session : Session) (command : Command) : Stage :=
  ⟨session, command, (session.run command).1, (session.run command).2⟩

/-- The stages of commands that are given one after the other. -/
def trace (session : Session) : List Command → List Stage
  | [] => []
  | command :: commands => session.stage command :: (session.run command).2.trace commands

/-- The answers of a run are those of its stages. -/
theorem runAll_eq_map_trace (session : Session) (commands : List Command) :
    session.runAll commands = (session.trace commands).map fun stage =>
      (stage.answer, stage.after) := by
  induction commands generalizing session with
  | nil => rfl
  | cons command commands ih =>
    rw [runAll, trace, List.map_cons, ih]
    rfl

/-- The command works on the cursor and on the walker, and stays on the list of siblings. -/
def Command.isLocal : Command → Bool
  | enter _ | exit | expect .. | wildcard _ | expectEnd _ => true
  | mismatch .. | noViableAlternative .. | failedPredicate .. => true
  | peek | peekLabel | bump | atEnd | remaining | parent | position => true
  | down | up | push _ | pop | get _ | set .. | scope | frameParent | ancestors => false

namespace Stage

/-- The node that a command has passed: the one that it yields, if the command is one of those that
move the cursor. -/
def passed? (stage : Stage) : Option Tree :=
  match stage.command, stage.answer with
  | .bump, .ok (.node tree) => some tree
  | .expect .., .ok (.node tree) => some tree
  | .wildcard _, .ok (.node tree) => some tree
  | _, _ => none

/-- The failure that a command has yielded. -/
def failure? (stage : Stage) : Option Failure :=
  match stage.answer with
  | .error failure => some failure
  | .ok _ => none

/-- A call has been entered. -/
def hasEntered (stage : Stage) : Bool :=
  match stage.command, stage.answer with
  | .enter _, .ok _ => true
  | _, _ => false

/-- A call has been left. -/
def hasLeft (stage : Stage) : Bool :=
  match stage.command with
  | .exit => true
  | _ => false

end Stage

/-! ### The effect of a command -/

/-- What a command can do to the cursor and to the walker, with what it yields then. -/
inductive Stage.HasEffect (stage : Stage) : Prop where
  /-- Nothing is changed. -/
  | nothing (hCursor : stage.after.cursor = stage.before.cursor)
      (hWalker : stage.after.walker = stage.before.walker) (hPassed : stage.passed? = none)
      (hFailure : stage.failure? = none) (hEntered : stage.hasEntered = false)
      (hLeft : stage.hasLeft = false)
  /-- The current node is passed. -/
  | passes (node : Tree) (hCursor : stage.before.cursor.advance? = some (node, stage.after.cursor))
      (hWalker : stage.after.walker = stage.before.walker) (hPassed : stage.passed? = some node)
      (hFailure : stage.failure? = none) (hEntered : stage.hasEntered = false)
      (hLeft : stage.hasLeft = false)
  /-- A failure is reported. -/
  | fails (failure : Failure) (hCursor : stage.after.cursor = stage.before.cursor)
      (hWalker : stage.after.walker = stage.before.walker.report failure)
      (hPassed : stage.passed? = none) (hFailure : stage.failure? = some failure)
      (hEntered : stage.hasEntered = false) (hLeft : stage.hasLeft = false)
  /-- A call is entered, which the limit allows. -/
  | enters (hLimit : ∀ limit, stage.before.walker.depthLimit = some limit →
        stage.before.walker.depth < limit)
      (hCursor : stage.after.cursor = stage.before.cursor)
      (hWalker : stage.after.walker =
        { stage.before.walker with depth := stage.before.walker.depth + 1 })
      (hPassed : stage.passed? = none) (hFailure : stage.failure? = none)
      (hEntered : stage.hasEntered = true) (hLeft : stage.hasLeft = false)
  /-- A call is left. -/
  | leaves (hCommand : stage.command = .exit) (hCursor : stage.after.cursor = stage.before.cursor)
      (hWalker : stage.after.walker = stage.before.walker.exit) (hPassed : stage.passed? = none)
      (hFailure : stage.failure? = none) (hEntered : stage.hasEntered = false)
      (hLeft : stage.hasLeft = true)

variable {session : Session} {command : Command} {failure : Failure} {node : Tree} {next : Cursor}

/-- A command that only reports a failure. -/
theorem hasEffect_of_fail (hCommand : command ≠ .exit)
    (hRun : session.run command =
      (.error failure, { session with walker := session.walker.report failure })) :
    (session.stage command).HasEffect := by
  rw [stage, hRun]
  refine .fails failure rfl rfl ?passed rfl ?entered ?left
  case passed => cases command <;> rfl
  case entered => cases command <;> rfl
  case left => cases command <;> first | rfl | exact absurd rfl hCommand

/-- All that a command can do on a list of siblings. -/
theorem hasEffect_stage (hLocal : command.isLocal) : (session.stage command).HasEffect := by
  -- a command passes a node, reports a failure, enters or leaves a rule, or does none of these
  cases command with
  | peek | atEnd | remaining | parent | position => exact .nothing rfl rfl rfl rfl rfl rfl
  | peekLabel =>
    have hRun : ∃ answer, session.run .peekLabel = (.ok answer, session) := by
      rw [run]
      split <;> exact ⟨_, rfl⟩
    obtain ⟨answer, hRun⟩ := hRun
    rw [stage, hRun]
    exact .nothing rfl rfl rfl rfl rfl rfl
  | mismatch | noViableAlternative | failedPredicate => exact .fails _ rfl rfl rfl rfl rfl rfl
  | exit => exact .leaves rfl rfl rfl rfl rfl rfl rfl
  | enter rule =>
    have hCommand : Command.enter rule ≠ .exit := by simp
    have hRun : session.run (.enter rule) = session.settle (session.walker.enter rule) := rfl
    rw [Walker.enter] at hRun
    split at hRun
    · next limit hLimit =>
      split at hRun
      · exact hasEffect_of_fail hCommand hRun
      · next hBelow =>
        rw [stage, hRun]
        refine .enters (fun other hOther => ?_) rfl rfl rfl rfl rfl rfl
        obtain rfl : limit = other := Option.some.inj (hLimit.symm.trans hOther)
        exact Nat.lt_of_not_le hBelow
    · next hLimit =>
      rw [stage, hRun]
      refine .enters (fun other hOther => ?_) rfl rfl rfl rfl rfl rfl
      simp [hLimit] at hOther
  | expect rule label =>
    have hCommand : Command.expect rule label ≠ .exit := by simp
    have hRun : session.run (.expect rule label) =
      session.settleNode (session.walker.expect session.cursor rule label) := rfl
    rw [Walker.expect] at hRun
    split at hRun
    · next node next hNext =>
      split at hRun
      · rw [stage, hRun]
        exact .passes node hNext rfl rfl rfl rfl rfl
      · exact hasEffect_of_fail hCommand hRun
    · exact hasEffect_of_fail hCommand hRun
  | wildcard rule =>
    have hCommand : Command.wildcard rule ≠ .exit := by simp
    have hRun : session.run (.wildcard rule) =
      session.settleNode (session.walker.wildcard session.cursor rule) := rfl
    rw [Walker.wildcard] at hRun
    split at hRun
    · next step hNext =>
      rw [stage, hRun]
      exact .passes step.1 hNext rfl rfl rfl rfl rfl
    · exact hasEffect_of_fail hCommand hRun
  | expectEnd rule =>
    have hCommand : Command.expectEnd rule ≠ .exit := by simp
    have hRun : session.run (.expectEnd rule) =
      session.settle (session.walker.expectEnd session.cursor rule) := rfl
    rw [Walker.expectEnd] at hRun
    split at hRun
    · rw [stage, hRun]
      exact .nothing rfl rfl rfl rfl rfl rfl
    · exact hasEffect_of_fail hCommand hRun
  | bump =>
    rw [stage, run]
    split
    · next node next hNext => exact .passes node hNext rfl rfl rfl rfl rfl
    · exact .nothing rfl rfl rfl rfl rfl rfl
  | down | up | push | pop | get | set | scope | frameParent | ancestors => cases hLocal

theorem eq_of_advance? {cursor : Cursor} (h : cursor.advance? = some (node, next)) :
    cursor.remaining = node :: next.remaining ∧ next.index = cursor.index + 1 := by
  rw [Cursor.advance?] at h
  split at h
  · cases h
  · next hRemaining =>
    obtain ⟨rfl, rfl⟩ := Prod.mk.inj (Option.some.inj h)
    exact ⟨hRemaining, rfl⟩

/-- A call cannot be entered exactly if the depth has reached the limit. -/
theorem stage_enter_fails_iff (session : Session) (rule : String) :
    (∃ failure, (session.stage (.enter rule)).answer = .error failure) ↔
      ∃ limit, session.walker.depthLimit = some limit ∧ limit ≤ session.walker.depth := by
  have hAnswer : (session.stage (.enter rule)).answer =
    (session.settle (session.walker.enter rule)).1 := rfl
  rw [hAnswer, Walker.enter]
  split
  · next limit hLimit =>
    split
    · next hReached => exact ⟨fun _ => ⟨limit, hLimit, hReached⟩, fun _ => ⟨_, rfl⟩⟩
    · next hBelow =>
      constructor
      · rintro ⟨_, hError⟩
        cases hError
      · rintro ⟨other, hOther, hReached⟩
        obtain rfl : limit = other := Option.some.inj (hLimit.symm.trans hOther)
        exact absurd hReached hBelow
  · next hLimit =>
    constructor
    · rintro ⟨_, hError⟩
      cases hError
    · rintro ⟨other, hOther, -⟩
      simp [hLimit] at hOther

namespace Stage.HasEffect

variable {stage : Stage}

/-- The nodes in front of which the cursor stands are those that remain later, and before them the
one that is passed. -/
theorem nodes (h : stage.HasEffect) :
    stage.passed?.toList ++ stage.after.cursor.remaining = stage.before.cursor.remaining := by
  cases h with
  | passes node hCursor hWalker hPassed =>
    rw [hPassed]
    exact (eq_of_advance? hCursor).1.symm
  | nothing hCursor hWalker hPassed | fails failure hCursor hWalker hPassed
  | enters hLimit hCursor hWalker hPassed | leaves hCommand hCursor hWalker hPassed =>
    rw [hPassed, hCursor]
    rfl

theorem index (h : stage.HasEffect) :
    stage.after.cursor.index = stage.before.cursor.index + stage.passed?.toList.length := by
  cases h with
  | passes node hCursor hWalker hPassed =>
    rw [hPassed]
    exact (eq_of_advance? hCursor).2
  | nothing hCursor hWalker hPassed | fails failure hCursor hWalker hPassed
  | enters hLimit hCursor hWalker hPassed | leaves hCommand hCursor hWalker hPassed =>
    rw [hPassed, hCursor]
    rfl

theorem reported (h : stage.HasEffect) :
    stage.after.walker.reported = stage.before.walker.reported ++ stage.failure?.toList := by
  cases h with
  | fails failure hCursor hWalker hPassed hFailure =>
    rw [hFailure, hWalker]
    rfl
  | nothing hCursor hWalker hPassed hFailure | passes node hCursor hWalker hPassed hFailure
  | enters hLimit hCursor hWalker hPassed hFailure
  | leaves hCommand hCursor hWalker hPassed hFailure =>
    rw [hFailure, hWalker]
    exact (List.append_nil _).symm

theorem depthLimit (h : stage.HasEffect) :
    stage.after.walker.depthLimit = stage.before.walker.depthLimit := by
  cases h with
  | nothing hCursor hWalker | passes node hCursor hWalker | fails failure hCursor hWalker
  | enters hLimit hCursor hWalker | leaves hCommand hCursor hWalker => exact hWalker ▸ rfl

/-- A call adds to the depth when it is entered, and takes this from it when it is left. -/
theorem depth (h : stage.HasEffect)
    (hExit : stage.command = .exit → 0 < stage.before.walker.depth) :
    stage.after.walker.depth + stage.hasLeft.toNat =
      stage.before.walker.depth + stage.hasEntered.toNat := by
  cases h with
  | nothing hCursor hWalker hPassed hFailure hEntered hLeft
  | passes node hCursor hWalker hPassed hFailure hEntered hLeft
  | fails failure hCursor hWalker hPassed hFailure hEntered hLeft
  | enters hLimit hCursor hWalker hPassed hFailure hEntered hLeft =>
    simp only [hWalker, hEntered, hLeft, Bool.toNat_true, Bool.toNat_false, Nat.add_zero,
      Walker.report]
  | leaves hCommand hCursor hWalker hPassed hFailure hEntered hLeft =>
    rw [hWalker, hEntered, hLeft]
    exact Nat.sub_add_cancel (hExit hCommand)

theorem bounded (h : stage.HasEffect) {most : Nat}
    (hLimit : stage.before.walker.depthLimit = some most)
    (hBounded : stage.before.walker.depth ≤ most) : stage.after.walker.depth ≤ most := by
  cases h with
  | nothing hCursor hWalker | passes node hCursor hWalker | fails failure hCursor hWalker =>
    rw [hWalker]
    exact hBounded
  | enters hBelow hCursor hWalker =>
    rw [hWalker]
    exact hBelow most hLimit
  | leaves hCommand hCursor hWalker =>
    rw [hWalker]
    exact Nat.le_trans (Nat.sub_le ..) hBounded

/-- A command that fails leaves the cursor and the depth as they are. -/
theorem unchanged (h : stage.HasEffect) {failure : Failure}
    (hAnswer : stage.answer = .error failure) : stage.after.cursor = stage.before.cursor ∧
      stage.after.walker.depth = stage.before.walker.depth := by
  have hFails : stage.failure? = some failure := by rw [failure?, hAnswer]
  cases h with
  | fails _ hCursor hWalker => exact ⟨hCursor, hWalker ▸ rfl⟩
  | nothing _ _ _ hFailure | passes _ _ _ _ hFailure | enters _ _ _ _ hFailure
  | leaves _ _ _ _ hFailure => exact absurd (hFailure.symm.trans hFails) nofun

end Stage.HasEffect

/-! ### The account of a run -/

section Tallies

variable (stages : List Stage) (stage : Stage)

/-- The nodes that have been passed, in order. -/
def passedNodes : List Tree := stages.filterMap Stage.passed?

/-- The failures, in order. -/
def failures : List Failure := stages.filterMap Stage.failure?

/-- The number of calls that have been entered. -/
def entered : Nat := stages.countP Stage.hasEntered

/-- The number of calls that have been left. -/
def left : Nat := stages.countP Stage.hasLeft

theorem passedNodes_concat :
    passedNodes (stages ++ [stage]) = passedNodes stages ++ stage.passed?.toList := by
  simp only [passedNodes, List.filterMap_append, List.filterMap_cons, List.filterMap_nil]
  cases stage.passed? <;> rfl

theorem failures_concat :
    failures (stages ++ [stage]) = failures stages ++ stage.failure?.toList := by
  simp only [failures, List.filterMap_append, List.filterMap_cons, List.filterMap_nil]
  cases stage.failure? <;> rfl

theorem entered_concat : entered (stages ++ [stage]) = entered stages + stage.hasEntered.toNat := by
  rw [entered, List.countP_append, List.countP_singleton]
  cases stage.hasEntered <;> rfl

theorem left_concat : left (stages ++ [stage]) = left stages + stage.hasLeft.toNat := by
  rw [left, List.countP_append, List.countP_singleton]
  cases stage.hasLeft <;> rfl

end Tallies

/-- How a session depends on the stages that have led to it, if it has started in front of a list of
siblings with a limit of the depth. -/
structure Accounts (siblings : List Tree) (limit : Option Nat) (stages : List Stage)
    (session : Session) : Prop where
  /-- The nodes that have been passed are followed by those that remain. -/
  nodes : passedNodes stages ++ session.cursor.remaining = siblings
  /-- The cursor counts the nodes that have been passed. -/
  index : session.cursor.position.index = (passedNodes stages).length
  /-- The cursor is at the end if no node remains. -/
  atEnd : session.cursor.atEnd = true ↔ session.cursor.remaining = []
  /-- A call that has been entered has been left, or adds to the depth. -/
  depth : session.walker.depth + left stages = entered stages
  /-- The limit does not change. -/
  depthLimit : session.walker.depthLimit = limit
  /-- The depth does not exceed the limit. -/
  bounded : ∀ most, limit = some most → session.walker.depth ≤ most
  /-- What has been reported are the failures, once each and in order. -/
  reported : session.walker.reported = failures stages

/-- The session in front of a list of siblings. -/
def onList (parent : Option Tree) (siblings : List Tree) (limit : Option Nat) : Session :=
  { cursor := ⟨parent, 0, siblings⟩, walker := { depthLimit := limit } }

section Accounts

variable {siblings : List Tree} {limit : Option Nat} {stages earlier later : List Stage}
  {commands : List Command} {stage : Stage}

theorem onList_accounts (parent : Option Tree) (siblings : List Tree) (limit : Option Nat) :
    Accounts siblings limit [] (onList parent siblings limit) where
  nodes := rfl
  index := rfl
  atEnd := List.isEmpty_iff
  depth := rfl
  depthLimit := rfl
  bounded _ _ := Nat.zero_le _
  reported := rfl

/-- The account is kept by every stage with a known effect, unless it leaves a call that has not
been entered. -/
theorem Accounts.concat (h : Accounts siblings limit stages stage.before)
    (hEffect : stage.HasEffect)
    (hExit : stage.command = .exit → 0 < stage.before.walker.depth) :
    Accounts siblings limit (stages ++ [stage]) stage.after where
  nodes := by rw [passedNodes_concat, List.append_assoc, hEffect.nodes, h.nodes]
  index := by
    have hIndex : stage.before.cursor.index = (passedNodes stages).length := h.index
    rw [passedNodes_concat, List.length_append, ← hIndex]
    exact hEffect.index
  atEnd := List.isEmpty_iff
  depth := by
    have hBefore := h.depth
    have hDepth := hEffect.depth hExit
    rw [left_concat, entered_concat]
    omega
  depthLimit := hEffect.depthLimit.trans h.depthLimit
  bounded most hMost :=
    hEffect.bounded (h.depthLimit.trans hMost) (h.bounded most hMost)
  reported := by rw [failures_concat, ← h.reported, hEffect.reported]

/-- Every stage of a run starts with a session that accounts for the stages before it. -/
theorem Accounts.of_trace (h : Accounts siblings limit stages session)
    (hLocal : ∀ command ∈ commands, command.isLocal)
    (hExits : ∀ stage ∈ session.trace commands,
      stage.command = .exit → 0 < stage.before.walker.depth)
    (hTrace : session.trace commands = earlier ++ stage :: later) :
    Accounts siblings limit (stages ++ earlier) stage.before ∧ stage.HasEffect ∧
      stage = stage.before.stage stage.command := by
  induction commands generalizing session stages earlier with
  | nil => exact absurd hTrace (by simp [trace])
  | cons command commands ih =>
    obtain ⟨hCommand, hCommands⟩ := List.forall_mem_cons.1 hLocal
    obtain ⟨hExit, hLaterExits⟩ := List.forall_mem_cons.1 hExits
    have hEffect : (session.stage command).HasEffect := hasEffect_stage hCommand
    cases earlier with
    | nil =>
      obtain ⟨rfl, -⟩ := List.cons.inj hTrace
      rw [List.append_nil]
      exact ⟨h, hEffect, rfl⟩
    | cons head earlier =>
      obtain ⟨rfl, hLater⟩ := List.cons.inj hTrace
      rw [List.append_cons]
      exact ih (Accounts.concat h hEffect hExit) hCommands hLaterExits hLater

/-- Commands are given in front of a list of siblings, and leave no call that has not been entered.
After each of them the nodes that have been passed are followed by those that remain, the position
counts the former, and the depth is the number of calls that have been entered and not left, which
does not exceed the limit. What has been reported are the failures, once each and in order. A
command that fails leaves the cursor and the depth as they are, and a call cannot be entered exactly
if the depth has reached the limit. -/
theorem trace_accounts {parent : Option Tree}
    (hLocal : ∀ command ∈ commands, command.isLocal)
    (hExits : ∀ stage ∈ (onList parent siblings limit).trace commands,
      stage.command = .exit → 0 < stage.before.walker.depth)
    (hTrace : (onList parent siblings limit).trace commands = earlier ++ stage :: later) :
    Accounts siblings limit (earlier ++ [stage]) stage.after ∧
      (∀ failure, stage.answer = .error failure →
        stage.after.cursor = stage.before.cursor ∧
          stage.after.walker.depth = stage.before.walker.depth) ∧
      ∀ rule, stage.command = .enter rule →
        ((∃ failure, stage.answer = .error failure) ↔ limit = some stage.before.walker.depth) := by
  obtain ⟨hBefore, hEffect, hStage⟩ :=
    (onList_accounts parent siblings limit).of_trace hLocal hExits hTrace
  have hMem : stage ∈ (onList parent siblings limit).trace commands :=
    hTrace ▸ List.mem_append_right _ List.mem_cons_self
  refine ⟨hBefore.concat hEffect (hExits stage hMem), fun failure => hEffect.unchanged, ?_⟩
  intro rule hCommand
  rw [hCommand] at hStage
  rw [hStage, stage_enter_fails_iff, hBefore.depthLimit]
  constructor
  · rintro ⟨most, hMost, hReached⟩
    rw [hMost, Nat.le_antisymm hReached (hBefore.bounded most hMost)]
    rfl
  · exact fun hMost => ⟨_, hMost, Nat.le_refl _⟩

end Accounts

namespace Sample

/-- Two leaves, which are passed with calls of two rules. -/
def siblings : List Tree := [.leaf "A" "", .leaf "B" ""]

/-- Commands of which the second one fails, and the fourth one if a single call may be active. -/
def commands : List Command :=
  [.enter "s", .expect "s" "B", .bump, .enter "t", .exit, .wildcard "s", .expectEnd "s"]

/-- The stages of a run with a limit. -/
def stages : List Stage := (onList none siblings (some 1)).trace commands

/-- The account after the command that meets the limit. -/
theorem trace_accounts_limited :
    Accounts siblings (some 1) (stages.take 3 ++ [stages[3]]) stages[3].after ∧
      (∀ failure, stages[3].answer = .error failure →
        stages[3].after.cursor = stages[3].before.cursor ∧
          stages[3].after.walker.depth = stages[3].before.walker.depth) ∧
      ∀ rule, stages[3].command = .enter rule →
        ((∃ failure, stages[3].answer = .error failure) ↔
          some 1 = some stages[3].before.walker.depth) := by
  have hLocal : ∀ command ∈ commands, command.isLocal := by decide
  have hLeft : ∀ stage ∈ stages, stage.hasLeft = true → 0 < stage.before.walker.depth := by decide
  have hExits : ∀ stage ∈ stages, stage.command = .exit → 0 < stage.before.walker.depth := by
    intro stage hStage hExit
    refine hLeft stage hStage ?_
    rw [Stage.hasLeft, hExit]
  have hSplit : stages = stages.take 3 ++ stages[3] :: stages.drop 4 := rfl
  exact trace_accounts hLocal hExits hSplit

end Sample

end Session

end TreeGrammar
