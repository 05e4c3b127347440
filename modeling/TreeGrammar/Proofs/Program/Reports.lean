import TreeGrammar.Proofs.Program.Bound
import TreeGrammar.Proofs.Program.Termination

/-!
# Reports of a walk

A failure is reported where it arises, by the operation of the walker that fails, and is then passed
on through all the procedures that are active. Each of them is left once, so that the walker is in
the end as it was, apart from one report if the walk fails. Code that misses an attribute would fail
without a report, but no walk of an accepted grammar does.

## Main definitions

* `Outcome.Reports`: what a part of a walk does to the walker

## Main results

* `Program.run_reports`: steps that fail report their failure once, and leave the depth as it is
* `Grammar.walk_restores_depth`: a walk leaves the depth as it is, and reports nothing but the
  failure with which it ends
-/

namespace TreeGrammar

namespace Outcome

variable {α β : Type} {a : Outcome α} {before : Walker} {next : α → Walk → Outcome β}

/-- A part of a walk that is finished leaves the walker as it has been before. One that fails only
adds the report of its failure. Attributes that are not bound are not reported. -/
def Reports (before : Walker) : Outcome α → Prop
  | finished _ walk => walk.walker = before
  | failed failure walk => failure.IsBound → walk.walker = before.report failure
  | unfinished => True

/-- A part of a walk and what comes after it, which starts with the walker as it was. -/
theorem Reports.andThen (h : a.Reports before)
    (hNext : ∀ value walk, walk.walker = before → (next value walk).Reports before) :
    (a.andThen next).Reports before := by
  cases a with
  | finished value walk => exact hNext value walk h
  | failed failure walk => exact h
  | unfinished => trivial

/-- What comes next starts with the walker as it was. -/
theorem Reports.trans {walker : Walker} (h : a.Reports walker) (hWalker : walker = before) :
    a.Reports before :=
  hWalker ▸ h

/-- What has been entered is left, whether or not something fails in between. -/
theorem Reports.leave (h : a.Reports { before with depth := before.depth + 1 }) :
    a.leave.Reports before := by
  cases a with
  | finished value walk =>
    have hWalker : walk.walker = { before with depth := before.depth + 1 } := h
    show walk.walker.exit = before
    rw [hWalker]
    rfl
  | failed failure walk =>
    intro hBound
    have hWalker := h hBound
    show walk.walker.exit = before.report failure
    rw [hWalker]
    rfl
  | unfinished => trivial

end Outcome

/-! ### Operations of the walker -/

section Walker

variable {α : Type} (walk : Walk) (cursor : Cursor) (rule name : String)

theorem Walker.fail_reports (failure : Failure) :
    (Outcome.ofWalker (α := α) walk (walk.walker.fail failure)).Reports walk.walker :=
  fun _ => rfl

theorem Walker.expect_reports :
    (Outcome.ofWalker walk (walk.walker.expect cursor rule name)).Reports walk.walker := by
  rw [Walker.expect]
  split
  · split
    · rfl
    · exact fail_reports walk _
  · exact fail_reports walk _

theorem Walker.wildcard_reports :
    (Outcome.ofWalker walk (walk.walker.wildcard cursor rule)).Reports walk.walker := by
  rw [Walker.wildcard]
  split
  · rfl
  · exact fail_reports walk _

theorem Walker.expectEnd_reports :
    (Outcome.ofWalker walk (walk.walker.expectEnd cursor rule)).Reports walk.walker := by
  rw [Walker.expectEnd]
  split
  · rfl
  · exact fail_reports walk _

theorem Decision.reject_reports (decision : Decision) :
    (decision.reject (α := α) rule cursor walk).Reports walk.walker := by
  rw [Decision.reject]
  split
  · exact Walker.fail_reports walk _
  · exact Walker.fail_reports walk _

/-- A procedure that cannot be entered does not change the depth, and reports this. -/
theorem Walker.enter_cases :
    Outcome.ofWalker walk (walk.walker.enter rule) =
        .finished () { walk with walker.depth := walk.walker.depth + 1 } ∨
      ∃ failure, Outcome.ofWalker walk (walk.walker.enter rule) =
        .failed failure { walk with walker := walk.walker.report failure } := by
  rw [Walker.enter]
  split
  · split
    · exact .inr ⟨_, rfl⟩
    · exact .inl rfl
  · exact .inl rfl

end Walker

/-! ### Code and choices -/

theorem bindAttributes_reports (frame : Frame Scope) (walk : Walk)
    (accesses : List AttributeAccess) :
    (bindAttributes frame walk accesses).Reports walk.walker := by
  induction accesses with
  | nil => rfl
  | cons access accesses ih =>
    rw [bindAttributes]
    split
    · exact ih
    · exact fun hBound => absurd rfl (hBound access.name)

theorem Code.test_reports (oracle : Oracle) (frame : Frame Scope) (walk : Walk) (code : Code) :
    (code.test oracle frame walk).Reports walk.walker :=
  (bindAttributes_reports frame walk code.accesses).andThen fun _ _ hAfter => hAfter

theorem Arm.select_reports (oracle : Oracle) (frame : Frame Scope) (next : Option String)
    (walk : Walk) (arms : List Arm) :
    (select oracle frame next walk arms).Reports walk.walker := by
  induction arms generalizing walk with
  | nil => rfl
  | cons arm arms ih =>
    obtain ⟨prediction, guard, steps⟩ := arm
    unfold select
    split
    case isFalse => exact ih walk
    case isTrue =>
      cases guard with
      | none => rfl
      | some code =>
        refine (code.test_reports oracle frame walk).andThen fun holds after hAfter => ?_
        split
        · exact hAfter
        · exact (ih after).trans hAfter

/-! ### Steps -/

/-- Steps report their failure once, and leave the walker as it is apart from that. -/
def Runner.Reports (run : Runner) : Prop :=
  ∀ activation steps cursors walk, (run activation steps cursors walk).Reports walk.walker

section Reports

variable {program : Program} {oracle : Oracle} {run : Runner}

/-- A call reports nothing of its own but that it exceeds the limit, and is left only if it has been
entered. -/
theorem Program.enter_reports (h : run.Reports) (frame : Frame Scope) (active : List Invocation)
    (number : Nat) (cursor : Cursor) (walk : Walk) :
    (program.enter run frame active number cursor walk).Reports walk.walker := by
  rw [Program.enter]
  split
  · trivial
  · next procedure _ =>
    rcases Walker.enter_cases walk procedure.name with hEntered | ⟨failure, hExceeded⟩
    · rw [hEntered]
      exact Outcome.Reports.leave <| (h ..).andThen fun _ _ hAfter => hAfter
    · rw [hExceeded]
      exact fun _ => rfl

theorem Step.perform_reports (h : run.Reports) (activation : Activation) (step : Step)
    (cursors : Cursors) (walk : Walk) :
    (step.perform program oracle run activation cursors walk).Reports walk.walker := by
  cases step with
  | token cursor label name =>
    exact (Walker.expect_reports ..).andThen fun _ _ hAfter => hAfter
  | wildcard cursor label =>
    exact (Walker.wildcard_reports ..).andThen fun _ _ hAfter => hAfter
  | node cursor label name node children steps =>
    refine (Walker.expect_reports ..).andThen fun ⟨tree, next⟩ middle hMiddle => ?_
    refine Outcome.Reports.andThen ((h ..).trans hMiddle) fun cursors inner hInner => ?_
    exact ((Walker.expectEnd_reports ..).trans hInner).andThen fun _ _ hAfter => hAfter
  | call cursor label rule arguments =>
    refine (bindAttributes_reports ..).andThen fun _ middle hMiddle => ?_
    split
    · trivial
    · exact ((Program.enter_reports h ..).trans hMiddle).andThen fun _ _ hAfter => hAfter
  | action code => exact (bindAttributes_reports ..).andThen fun _ _ hAfter => hAfter
  | predicate cursor code text =>
    refine (Code.test_reports ..).andThen fun holds after hAfter => ?_
    split
    · exact hAfter
    · exact (Walker.fail_reports after _).trans hAfter
  | block steps => exact (h ..).andThen fun _ _ hAfter => hAfter
  | choice cursor kind decision arms =>
    refine (Arm.select_reports ..).andThen fun chosen middle hMiddle => ?_
    cases chosen with
    | none =>
      dsimp only
      split
      · exact hMiddle
      · exact (Decision.reject_reports ..).trans hMiddle
    | some steps =>
      refine Outcome.Reports.andThen ((h ..).trans hMiddle) fun next inner hInner => ?_
      split
      · exact hInner
      · exact hInner

/-- Steps report their failure once, and leave the walker as it is apart from that. -/
theorem Program.run_reports (fuel : Nat) : Runner.Reports (program.run oracle fuel) := by
  induction fuel with
  | zero => exact fun _ _ _ _ => trivial
  | succ fuel ih =>
    intro activation steps cursors walk
    cases steps with
    | nil => rfl
    | cons step steps =>
      refine (Step.perform_reports ih ..).andThen fun ⟨again, middle⟩ inner hInner => ?_
      exact (ih ..).trans hInner

/-- A whole walk reports its failure once, and leaves the depth as it is. -/
theorem Program.walk_reports (fuel : Nat) (walker : Walker) (number : Nat) (tree : Tree) :
    (program.walk oracle fuel walker number tree).Reports walker := by
  rw [Program.walk]
  split
  · trivial
  · refine (Program.enter_reports (Program.run_reports fuel) ..).andThen
      fun cursor after hAfter => ?_
    exact (Walker.expectEnd_reports ..).trans hAfter

end Reports

/-- In an accepted grammar, the walk from an entry comes to an end on every tree, whatever guards
and predicates yield and whatever limit there is on the depth of calls. In the end the depth is what it
was before, whether or not the walk fails. If it does not fail, nothing has been reported during the
walk, and if it fails, its failure has been reported once and nothing else has. -/
theorem Grammar.walk_restores_depth {source : List Char} {options : Options} {grammar : Grammar}
    (hAccepted : (analyse source options).accepted? = some grammar) {entry : Nat}
    (hEntry : entry ∈ grammar.rules.entries) (oracle : Oracle) (walker : Walker) (tree : Tree) :
    (∃ fuel, grammar.program.walk oracle fuel walker entry tree ≠ .unfinished) ∧
      (∀ (fuel : Nat) (walk : Walk),
        grammar.program.walk oracle fuel walker entry tree = .finished () walk →
          walk.walker.depth = walker.depth ∧ walk.walker.reported = walker.reported) ∧
      ∀ (fuel : Nat) (failure : Failure) (walk : Walk),
        grammar.program.walk oracle fuel walker entry tree = .failed failure walk →
          walk.walker.depth = walker.depth ∧
            walk.walker.reported = walker.reported ++ [failure] := by
  have hChecked := checked_of_accepted hAccepted
  have hReports : ∀ fuel, (grammar.program.walk oracle fuel walker entry tree).Reports walker :=
    fun fuel => Program.walk_reports fuel walker entry tree
  refine ⟨?ends, fun fuel walk hFinished => ?finished, fun fuel failure walk hFailed => ?failed⟩
  case ends =>
    have hRule : grammar.rules[entry]? = some _ :=
      List.getElem?_eq_getElem (Rules.lt_length_of_mem_entries hEntry)
    obtain ⟨fuel, hSettles⟩ := Program.walk_settles hChecked hRule oracle walker tree
    exact ⟨fuel, hSettles.ne_unfinished⟩
  case finished =>
    have hWalker := hReports fuel
    rw [hFinished] at hWalker
    have hSame : walk.walker = walker := hWalker
    rw [hSame]
    exact ⟨rfl, rfl⟩
  case failed =>
    have hBound := Program.walk_isBound hChecked hEntry oracle fuel walker tree
    have hWalker := hReports fuel
    rw [hFailed] at hWalker
    have hOnce : walk.walker = walker.report failure := hWalker (hBound.of_failed hFailed)
    rw [hOnce]
    exact ⟨rfl, rfl⟩

namespace Sample

/-- The walk of the small grammar over a node, with a limit that does not let the rule `s` call the
rule `t`. -/
theorem walk_restores_depth_limited :
    (∃ fuel, grammar.program.walk (fun _ _ => true) fuel { depthLimit := some 1 } 0
        (.leaf "a" "") ≠ .unfinished) ∧
      (∀ (fuel : Nat) (walk : Walk),
        grammar.program.walk (fun _ _ => true) fuel { depthLimit := some 1 } 0 (.leaf "a" "") =
          .finished () walk → walk.walker.depth = 0 ∧ walk.walker.reported = []) ∧
      ∀ (fuel : Nat) (failure : Failure) (walk : Walk),
        grammar.program.walk (fun _ _ => true) fuel { depthLimit := some 1 } 0 (.leaf "a" "") =
          .failed failure walk → walk.walker.depth = 0 ∧ walk.walker.reported = [failure] :=
  have hEntry : 0 ∈ grammar.rules.entries := by decide
  Grammar.walk_restores_depth accepted hEntry (fun _ _ => true) { depthLimit := some 1 }
    (.leaf "a" "")

end Sample

end TreeGrammar
