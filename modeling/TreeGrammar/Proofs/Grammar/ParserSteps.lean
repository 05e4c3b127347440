import TreeGrammar.Grammar.Parser

/-!
# What the steps of the parser keep

The steps that read marks, names and code, and those that read everything but the bodies of rules,
leave the rules and the elements as they are, whether they succeed or fail.

## Main definitions

* `Attempt.Ensures`: what holds after a step, and what holds if it fails
* `Attempt.KeepsRules`: a step leaves the rules and the elements as they are

## Main results

* `ReadState.fragment_keeps`, `ReadState.recover_keeps`: steps over code
* `ReadState.option_keeps`, `ReadState.tokenList_keeps`, `ReadState.prelude_keeps`: items that are
  no rules
-/

namespace TreeGrammar

variable {source : List Char} {bound : Nat} {α β : Type}

/-! ### Steps of the parser -/

/-- The result of a step has a property, or the step fails in a state that has another one. -/
def Attempt.Ensures (onOk : α → Prop) (onError : ReadState source bound → Prop) :
    Attempt source bound α → Prop
  | .ok result => onOk result
  | .error (_, state) => onError state

namespace Attempt

variable {p q : α → Prop} {r : β → Prop} {e f : ReadState source bound → Prop}
  {attempt : Attempt source bound α} {next : α → Attempt source bound β}

theorem Ensures.mono (h : attempt.Ensures p e) (hOk : ∀ a, p a → q a) (hError : ∀ s, e s → f s) :
    attempt.Ensures q f := by
  cases attempt with
  | ok result => exact hOk result h
  | error failure => exact hError failure.2 h

/-- A step and another one after it. -/
theorem Ensures.bind (h : attempt.Ensures p e) (hError : ∀ s, e s → f s)
    (hNext : ∀ a, p a → (next a).Ensures r f) : (attempt >>= next).Ensures r f := by
  cases attempt with
  | ok result => exact hNext result h
  | error failure => exact hError failure.2 h

end Attempt

/-! ### What a step leaves as it is -/

/-- Two stages of a grammar have the same rules and the same elements. -/
structure SourceGrammar.SameRules (a b : SourceGrammar) : Prop where
  rules : b.rules = a.rules
  malformed : b.malformed = a.malformed
  elements : b.elements = a.elements
  infos : b.infos = a.infos

theorem SourceGrammar.SameRules.refl (a : SourceGrammar) : a.SameRules a := ⟨rfl, rfl, rfl, rfl⟩

theorem SourceGrammar.SameRules.trans {a b c : SourceGrammar} (hab : a.SameRules b)
    (hbc : b.SameRules c) : a.SameRules c :=
  ⟨hbc.rules.trans hab.rules, hbc.malformed.trans hab.malformed, hbc.elements.trans hab.elements,
    hbc.infos.trans hab.infos⟩

theorem SourceGrammar.SameRules.count {a b : SourceGrammar} (h : a.SameRules b) :
    b.exprCount = a.exprCount :=
  congrArg List.length h.elements

theorem SourceGrammar.addToken_sameRules (grammar : SourceGrammar) (token : Ident) :
    grammar.SameRules (grammar.addToken token) := by
  -- a token that has been declared before is not added
  rw [addToken]
  split
  · exact .refl _
  · exact ⟨rfl, rfl, rfl, rfl⟩

/-- The state after something has been looked for. -/
def Found.state {origin : ReadState source bound} : Found origin α → ReadState source bound
  | .yes _ state _ | .no state _ => state

/-- A step leaves the rules and the elements as they are. -/
def Attempt.KeepsRules (grammar : SourceGrammar) (state : α → ReadState source bound)
    (attempt : Attempt source bound α) : Prop :=
  attempt.Ensures (fun result => grammar.SameRules (state result).grammar)
    (fun failed => grammar.SameRules failed.grammar)

namespace Attempt.KeepsRules

variable {a b : SourceGrammar} {state : α → ReadState source bound}
  {state' : β → ReadState source bound} {attempt : Attempt source bound α}
  {next : α → Attempt source bound β}

/-- What is kept by a step is kept from any earlier stage with the same rules on. -/
theorem since (h : attempt.KeepsRules b state) (hab : a.SameRules b) : attempt.KeepsRules a state :=
  h.mono (fun _ hb => hab.trans hb) fun _ hb => hab.trans hb

/-- A step and another one after it. -/
theorem bind (h : attempt.KeepsRules a state)
    (hNext : ∀ result, a.SameRules (state result).grammar → (next result).KeepsRules a state') :
    (attempt >>= next).KeepsRules a state' :=
  Attempt.Ensures.bind h (fun _ hFailed => hFailed) hNext

end Attempt.KeepsRules

namespace ReadState

variable (state : ReadState source bound)

/-! ### Marks, names and code -/

theorem skipTrivia_keeps : state.skipTrivia.KeepsRules state.grammar Onward.state := by
  rw [skipTrivia]
  split
  · exact .refl _
  · exact .refl _

theorem nextChar_keeps : state.nextChar.KeepsRules state.grammar Onward.state :=
  state.skipTrivia_keeps.bind fun _ h => h

theorem eat_keeps (c : Char) : (state.eat c).KeepsRules state.grammar Found.state := by
  refine state.skipTrivia_keeps.bind fun ⟨_, next, _⟩ h => ?_
  dsimp only
  split
  · exact h
  · exact h

theorem expect_keeps (c : Char) : (state.expect c).KeepsRules state.grammar Ahead.state := by
  refine (state.eat_keeps c).bind fun found h => ?_
  cases found with
  | yes _ next _ => exact h
  | no next _ => exact h

theorem ident_keeps : state.ident.KeepsRules state.grammar Found.state := by
  refine state.skipTrivia_keeps.bind fun ⟨_, next, _⟩ h => ?_
  dsimp only
  split
  · exact h
  · exact h

theorem expectIdent_keeps (wanted : SyntaxError.Wanted) :
    (state.expectIdent wanted).KeepsRules state.grammar Ahead.state := by
  refine state.ident_keeps.bind fun found h => ?_
  cases found with
  | yes ident next _ => exact h
  | no next _ => exact h

theorem skipCode_keeps (stops : List Char) (angle : Bool) (start : Span) (nesting : Nesting) :
    (skipCode stops angle start nesting state).KeepsRules state.grammar Onward.state := by
  fun_induction skipCode stops angle start nesting state with
  | case1 | case2 | case4 | case5 => exact .refl _
  | case3 _ _ _ _ _ _ _ _ _ ih => exact ih.bind fun _ h => h
  | case6 _ _ _ _ _ _ _ _ _ _ _ _ ih => exact ih.bind fun _ h => h

theorem fragment_keeps (stops : List Char) (angle : Bool) :
    (state.fragment stops angle).KeepsRules state.grammar Onward.state :=
  (state.skipCode_keeps stops angle state.span {}).bind fun _ h => h

theorem recover_keeps (depth : Nat) :
    state.grammar.SameRules (state.recover depth).1.grammar := by
  fun_induction recover depth state with
  | case1 => exact .refl _
  | case3 => exact .refl _
  | case2 _ _ _ _ _ _ _ _ _ _ _ hNext ih => rwa [hNext] at ih
  | case4 _ _ _ _ _ _ _ _ _ _ hNext _ ih => rwa [hNext] at ih

theorem codeBlock_keeps : state.codeBlock.KeepsRules state.grammar Ahead.state := by
  refine (state.expect_keeps '{').bind fun ⟨_, state₁, _⟩ h => ?_
  refine ((state₁.fragment_keeps ['}'] false).since h).bind fun ⟨code, state₂, _⟩ h => ?_
  refine ((state₂.expect_keeps '}').since h).bind fun ⟨_, state₃, _⟩ h => ?_
  refine ((state₃.eat_keeps '?').since h).bind fun found h => ?_
  cases found with
  | yes _ state₄ _ =>
    by_cases hBlank : code.isBlank
    · simp only [hBlank]; exact h
    · simp only [hBlank]; exact h
  | no state₄ _ =>
    by_cases hBlank : code.isBlank
    · simp only [hBlank]; exact h
    · simp only [hBlank]; exact h

theorem label_keeps : state.label.KeepsRules state.grammar Onward.state := by
  have hIdent := state.ident_keeps
  rw [label]
  -- a name that is no label is given back, so that the first state counts again
  cases hFound : state.ident with
  | error failure => exact .refl _
  | ok found =>
    rw [hFound] at hIdent
    cases found with
    | no next le => exact .refl _
    | yes ident next lt =>
      have hMark := (next.eat_keeps '=').since hIdent
      cases hEat : next.eat '=' with
      | error failure => simp only [bind, Except.bind, hEat]; exact .refl _
      | ok mark =>
        rw [hEat] at hMark
        cases mark with
        | no next' le' => simp only [bind, Except.bind, hEat]; exact .refl _
        | yes _ next' lt' =>
          simp only [bind, Except.bind, hEat, pure, Except.pure]
          split
          · exact hMark
          · exact hMark

theorem attr_keeps : state.attr.KeepsRules state.grammar Ahead.state := by
  refine (state.expectIdent_keeps _).bind fun ⟨name, state₁, _⟩ h => ?_
  refine ((state₁.eat_keeps ':').since h).bind fun found h => ?_
  cases found with
  | no state₂ _ => exact h
  | yes _ state₂ _ =>
    refine ((state₂.fragment_keeps [',', '=', ']'] true).since h).bind
      fun ⟨type, state₃, _⟩ h => ?_
    dsimp only
    split
    · exact h
    · refine ((state₃.eat_keeps '=').since h).bind fun found h => ?_
      cases found with
      | no state₄ _ => exact h
      | yes _ state₄ _ =>
        refine ((state₄.fragment_keeps [',', ']'] false).since h).bind
          fun ⟨init, state₅, _⟩ h => ?_
        dsimp only
        split
        · exact h
        · exact h

theorem attributes_keeps : state.attributes.KeepsRules state.grammar Onward.state := by
  fun_induction attributes state with
  | case1 state ih =>
    refine (state.eat_keeps ']').bind fun found h => ?_
    cases found with
    | yes _ state₁ _ => exact h
    | no state₁ h₁ =>
      refine (state₁.attr_keeps.since h).bind fun ⟨first, state₂, h₂⟩ h => ?_
      refine ((state₂.eat_keeps ',').since h).bind fun found h => ?_
      cases found with
      | yes _ state₃ h₃ =>
        exact ((ih state₁ h₁ state₂ h₂ state₃ h₃).since h).bind fun _ h => h
      | no state₃ _ => exact ((state₃.expect_keeps ']').since h).bind fun _ h => h

theorem tokenNames_keeps : state.tokenNames.KeepsRules state.grammar Onward.state := by
  fun_induction tokenNames state with
  | case1 state ih =>
    refine (state.eat_keeps '}').bind fun found h => ?_
    cases found with
    | yes _ state₁ _ => exact h
    | no state₁ h₁ =>
      refine ((state₁.expectIdent_keeps _).since h).bind fun ⟨token, state₂, h₂⟩ h => ?_
      have hToken : state.grammar.SameRules (state₂.update (·.addToken token)).grammar :=
        h.trans (state₂.grammar.addToken_sameRules token)
      dsimp only
      split
      · refine ((eat_keeps _ ',').since hToken).bind fun found h => ?_
        cases found with
        | yes _ state₄ h₄ =>
          exact ((ih state₁ h₁ token state₂ h₂ state₄ h₄).since h).bind fun _ h => h
        | no state₄ _ => exact ((state₄.expect_keeps '}').since h).bind fun _ h => h
      · exact h

theorem tokenList_keeps : state.tokenList.KeepsRules state.grammar Ahead.state := by
  refine (state.expectIdent_keeps _).bind fun ⟨_, state₁, _⟩ h => ?_
  refine ((state₁.expect_keeps '{').since h).bind fun ⟨_, state₂, _⟩ h => ?_
  exact (state₂.tokenNames_keeps.since h).bind fun _ h => h

theorem prelude_keeps : state.prelude.KeepsRules state.grammar Ahead.state := by
  refine (state.expectIdent_keeps _).bind fun ⟨_, state₁, _⟩ h => ?_
  refine ((state₁.expect_keeps '{').since h).bind fun ⟨_, state₂, _⟩ h => ?_
  refine ((state₂.fragment_keeps ['}'] false).since h).bind fun ⟨items, state₃, _⟩ h => ?_
  exact ((state₃.expect_keeps '}').since h).bind fun _ h => ⟨h.rules, h.malformed, h.elements, h.infos⟩

theorem parenthesized_keeps : state.parenthesized.KeepsRules state.grammar Onward.state := by
  refine (state.eat_keeps '(').bind fun found h => ?_
  cases found with
  | no state₁ _ => exact h
  | yes _ state₁ _ =>
    refine ((state₁.fragment_keeps [')'] false).since h).bind fun ⟨text, state₂, _⟩ h => ?_
    exact ((state₂.expect_keeps ')').since h).bind fun _ h => h

theorem option_keeps : state.option.KeepsRules state.grammar Ahead.state := by
  refine (state.expect_keeps '#').bind fun ⟨_, state₁, _⟩ h => ?_
  refine ((state₁.expect_keeps '!').since h).bind fun ⟨_, state₂, _⟩ h => ?_
  refine ((state₂.expect_keeps '[').since h).bind fun ⟨_, state₃, _⟩ h => ?_
  refine ((state₃.expectIdent_keeps _).since h).bind fun ⟨name, state₄, _⟩ h => ?_
  refine (state₄.parenthesized_keeps.since h).bind fun ⟨args, state₅, _⟩ h => ?_
  exact ((state₅.expect_keeps ']').since h).bind fun _ h => ⟨h.rules, h.malformed, h.elements, h.infos⟩

theorem returnValue_keeps : state.returnValue.KeepsRules state.grammar Onward.state := by
  rw [returnValue]
  split
  · refine (state.expectIdent_keeps _).bind fun ⟨_, state₁, _⟩ h => ?_
    refine ((state₁.expect_keeps '[').since h).bind fun ⟨_, state₂, _⟩ h => ?_
    refine (state₂.attr_keeps.since h).bind fun ⟨value, state₃, _⟩ h => ?_
    exact ((state₃.expect_keeps ']').since h).bind fun _ h => h
  · exact .refl _

theorem ruleName_keeps : state.ruleName.KeepsRules state.grammar Ahead.state := by
  refine (state.expectIdent_keeps _).bind fun ⟨name, state₁, _⟩ h => ?_
  dsimp only
  split
  · exact ((state₁.expectIdent_keeps _).since h).bind fun _ h => h
  · exact h

theorem header_keeps : state.header.KeepsRules state.grammar Onward.state := by
  have hIdent := state.ident_keeps
  rw [header]
  -- a word that starts no header is given back
  cases hFound : state.ident with
  | error failure => exact .refl _
  | ok found =>
    rw [hFound] at hIdent
    cases found with
    | no next le => exact .refl _
    | yes word state₁ _ =>
      dsimp only
      split
      · refine ((state₁.expectIdent_keeps _).since hIdent).bind fun ⟨keyword, state₂, _⟩ h => ?_
        dsimp only
        split
        · refine ((state₂.expectIdent_keeps _).since h).bind fun ⟨name, state₃, _⟩ h => ?_
          have hName : state.grammar.SameRules
              (state₃.update fun grammar => { grammar with name }).grammar :=
            ⟨h.rules, h.malformed, h.elements, h.infos⟩
          exact ((expect_keeps _ ';').since hName).bind fun _ h => h
        · exact h
      · exact .refl _

end ReadState

end TreeGrammar
