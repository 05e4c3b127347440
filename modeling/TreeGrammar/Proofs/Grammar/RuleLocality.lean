import TreeGrammar.Proofs.Grammar.Locality

/-!
# Rules are read independently

The elements of rules and what stands around them are read in the same way within a longer text. An
element, an alternative or an attribute leaves the delimiters around it open; a rule ends where its
item does.

## Main results

* `ReadState.alternatives_mirrors` .. `ReadState.children_mirrors`: the bodies of rules
* `ReadState.ruleBody_mirrors`: what follows the name of a rule, up to the semicolon
-/

namespace TreeGrammar

variable {source source' : List Char} {bound bound' : Nat} {around : Surroundings}
  {opened : List Enclosure}

namespace ReadState

section Elements

variable {state : ReadState source bound} {other : ReadState source' bound'}

/-! ### Elements -/

/-- An element that ends has the next number in both texts. -/
theorem Mirrors.finish {p : List Char → List Char → Prop} (h : state.Mirrors around p other)
    (label label' : Option Ident) {build build' : Nat → Expr}
    (hBuild : ∀ id, build' (around.shift.count + id) = around.shift.expr (build id)) :
    Onward.Mirrors around around.shift.expr p (state.finish label build)
      (other.finish label' build') := by
  have hCount : ∀ (grammar : SourceGrammar) (label : Option Ident) (expr : Expr),
      (grammar.addElement label expr).exprCount = grammar.exprCount + 1 := fun _ _ _ =>
    List.length_append
  have hValue : build' other.grammar.exprCount =
      around.shift.expr (build state.grammar.exprCount) := by
    rw [h.count, hBuild]
  refine ⟨hValue, { h with count := ?_ }⟩
  show (other.grammar.addElement label' _).exprCount =
    around.shift.count + (state.grammar.addElement label _).exprCount
  rw [hCount, hCount, h.count, Nat.add_assoc]

/-- A step that ends an element. -/
theorem Mirrors.finish_ahead {p : List Char → List Char → Prop}
    {origin : ReadState source bound} {origin' : ReadState source' bound'}
    (h : state.Mirrors around p other) (label label' : Option Ident) {build build' : Nat → Expr}
    (hBuild : ∀ id, build' (around.shift.count + id) = around.shift.expr (build id))
    {lt : state.remaining < origin.remaining} {lt' : other.remaining < origin'.remaining} :
    (pure ((state.finish label build).ahead lt) : Attempt source bound _).Mirrors around
      (Ahead.Mirrors around around.shift.expr p)
      (pure ((other.finish label' build').ahead lt') : Attempt source' bound' _) :=
  h.finish label label' hBuild

/-- A block of code is the same in both texts. -/
theorem codeBlock_mirrors (h : state.Mirrors around (Remains opened) other)
    (hCode : .code ∉ opened) :
    state.codeBlock.Mirrors around
      (Ahead.Mirrors around (fun value => (around.shift.fragment value.1, value.2))
        (Remains opened))
      other.codeBlock := by
  refine (expect_mirrors h hCode fun _ _ => Remains.of_opening .code nofun).ahead
    fun _ state₁ _ state₁' _ h₁ => ?_
  refine (fragment_mirrors .code ['}'] false h₁ (List.mem_singleton_self _) nofun).onward
    fun code state₂ _ state₂' _ h₂ => ?_
  refine (close_mirrors .code h₂).ahead fun _ state₃ _ state₃' _ h₃ => ?_
  refine (eat_mirrors h₃ hCode fun _ _ hRest => hRest.of_plain hCode (by decide)).found ?_ ?_
  -- the block is the same with and without a question mark, but for the error
  · intro _ state₄ _ state₄' _ h₄
    exact Attempt.Mirrors.ite (fun _ => h₄.fail hCode rfl rfl) fun _ => ⟨rfl, h₄⟩
  · intro state₄ _ state₄' _ h₄
    exact Attempt.Mirrors.ite (fun _ => h₄.fail hCode rfl rfl) fun _ => ⟨rfl, h₄⟩

theorem codeElement_mirrors (h : state.Mirrors around (Remains opened) other)
    (hCode : .code ∉ opened) :
    state.codeElement.Mirrors around (Ahead.Mirrors around around.shift.expr (Remains opened))
      other.codeElement := by
  refine (codeBlock_mirrors h hCode).ahead fun ⟨code, isPredicate⟩ next _ next' _ hNext => ?_
  cases isPredicate with
  | true => exact hNext.finish_ahead none none fun _ => rfl
  | false => exact hNext.finish_ahead none none fun _ => rfl

theorem label_mirrors (h : state.Mirrors around (Remains opened) other) (hCode : .code ∉ opened) :
    state.label.Mirrors around
      (Onward.Mirrors around (Option.map around.shift.ident) (Remains opened)) other.label := by
  rw [label, label]
  -- a name that is no label is given back, so that the first places count again
  obtain ⟨found, found', hIdent, hIdent', hFound⟩ | ⟨error, _, _, _, hIdent, hIdent', -⟩ :=
    (ident_mirrors h hCode).ok_or_error
  case inr =>
    rw [hIdent, hIdent']
    exact ⟨rfl, opened, hCode, h⟩
  obtain ⟨ident, next, _, next', _, rfl, rfl, hNext⟩ | ⟨next, _, next', _, rfl, rfl, hNext⟩ :=
    hFound.yes_or_no
  case inr =>
    rw [hIdent, hIdent']
    exact ⟨rfl, h⟩
  have hEat := eat_mirrors hNext hCode fun _ _ hRest =>
    hRest.of_plain (c := '=') hCode (by decide)
  obtain ⟨mark, mark', hEat, hEat', hMark⟩ | ⟨error, _, _, _, hEat, hEat', -⟩ := hEat.ok_or_error
  case inr =>
    simp only [bind, Except.bind, hIdent, hIdent', hEat, hEat']
    exact ⟨rfl, opened, hCode, h⟩
  obtain ⟨_, later, _, later', _, rfl, rfl, hLater⟩ | ⟨later, _, later', _, rfl, rfl, hLater⟩ :=
    hMark.yes_or_no
  case inr =>
    simp only [bind, Except.bind, hIdent, hIdent', hEat, hEat']
    exact ⟨rfl, h⟩
  simp only [bind, Except.bind, hIdent, hIdent', hEat, hEat', pure, Except.pure]
  exact Attempt.Mirrors.ite (fun _ => hLater.fail hCode rfl rfl) fun _ => ⟨rfl, hLater⟩

theorem reference_mirrors (h : state.Mirrors around (Remains opened) other)
    (hCode : .code ∉ opened) (span : Span) (label : Option Ident) :
    (reference span label state).Mirrors around
      (Ahead.Mirrors around around.shift.expr (Remains opened))
      (reference (around.shift.span span) (label.map around.shift.ident) other) := by
  refine (expectIdent_mirrors h hCode _).ahead fun name state₁ _ state₁' _ h₁ => ?_
  refine Attempt.Mirrors.ite (fun _ => h₁.finish_ahead _ _ fun _ => rfl) fun _ => ?_
  rw [h₁.peek?_eq h₁.here.ne_nil]
  refine Attempt.Mirrors.ite (fun hArgs => ?_) fun _ => h₁.finish_ahead _ _ fun _ => rfl
  · have hInside := h₁.drop_one hArgs fun _ _ => Remains.of_opening .brackets nofun
    refine (fragment_mirrors .brackets [']'] false hInside (List.mem_singleton_self _) nofun).onward
      fun args state₂ _ state₂' _ h₂ => ?_
    refine (close_mirrors .brackets h₂).ahead fun _ state₃ _ state₃' _ h₃ => ?_
    exact h₃.finish_ahead _ _ fun _ => rfl

/-- An element is put under a repetition in both texts. -/
theorem repeatExpr_mirrors {p : List Char → List Char → Prop} (h : state.Mirrors around p other)
    (span : Span) (repetition : Repetition) (expr : Expr) :
    Onward.Mirrors around around.shift.expr p (repeatExpr span repetition expr state)
      (repeatExpr (around.shift.span span) repetition (around.shift.expr expr) other) := by
  have hGroup : ∀ expr, Onward.Mirrors around around.shift.expr p
      (state.finish none fun id => .subrule id span repetition [.mk none [expr] span])
      (other.finish none fun id => .subrule id (around.shift.span span) repetition
        [.mk none [around.shift.expr expr] (around.shift.span span)]) := fun expr =>
    h.finish none none fun _ => rfl
  cases expr with
  | subrule id place previous alternatives =>
    cases previous with
    | once =>
      -- the group keeps its number, so that as many elements have been read as before
      have hCount : ∀ (grammar : SourceGrammar) (expr : Expr),
          (grammar.replaceElement expr).exprCount = grammar.exprCount := fun _ _ =>
        List.length_set
      refine ⟨rfl, { h with count := ?_ }⟩
      exact (hCount ..).trans (h.count.trans (congrArg _ (hCount ..).symm))
    | optional | star | plus => exact hGroup _
  | node | token | wildcard | rule | action | predicate => exact hGroup _

/-- The characters that stand for repetitions are no delimiters. -/
theorem plain_of_suffix? {c : Char} {repetition : Repetition}
    (h : suffix? (some c) = some repetition) : isDelimiter c = false ∧ c ≠ ';' ∧ c ≠ '/' := by
  unfold suffix? at h
  split at h <;> simp_all <;> decide

theorem suffixed_mirrors (h : state.Mirrors around (Remains opened) other)
    (hCode : .code ∉ opened) (span : Span) (label : Option Ident) (expr : Expr) :
    (suffixed span label expr state).Mirrors around
      (Onward.Mirrors around around.shift.expr (Remains opened))
      (suffixed (around.shift.span span) (label.map around.shift.ident) (around.shift.expr expr)
        other) := by
  refine nextChar_bind_mirrors h hCode fun c state₁ _ state₁' _ hPeek h₁ => ?_
  cases hSuffix : suffix? (some c) with
  | none =>
    simp only [hSuffix]
    exact ⟨rfl, h₁⟩
  | some repetition =>
    simp only [hSuffix]
    have h₂ := h₁.drop_one hPeek fun _ _ hRest => hRest.of_plain hCode (plain_of_suffix? hSuffix)
    cases label with
    | some label => exact h₂.fail hCode rfl (by rw [h₁.span_eq]; rfl)
    | none => exact repeatExpr_mirrors h₂ span repetition expr

end Elements

mutual

theorem alternatives_mirrors {opened : List Enclosure} (close : Char)
    (state : ReadState source bound) (other : ReadState source' bound')
    (h : state.Mirrors around (Remains opened) other) (hCode : .code ∉ opened) :
    (alternatives close state).Mirrors around
      (Onward.Mirrors around around.shift.alternatives (Remains opened))
      (alternatives close other) := by
  rw [alternatives, alternatives]
  refine (alternative_mirrors close state other h hCode).onward
    fun first state₁ h₁ state₁' _ hState₁ => ?_
  refine (eat_mirrors hState₁ hCode fun _ _ hRest => hRest.of_plain hCode (by decide)).found ?_ ?_
  · intro _ state₂ h₂ state₂' _ hState₂
    refine (alternatives_mirrors close state₂ state₂' hState₂ hCode).onward
      fun others state₃ _ state₃' _ hState₃ => ?_
    exact ⟨(around.shift.alternatives_cons ..).symm, hState₃⟩
  · intro state₂ _ state₂' _ hState₂
    exact ⟨by simp, hState₂⟩
termination_by 6 * state.remaining + 5

theorem alternative_mirrors {opened : List Enclosure} (close : Char)
    (state : ReadState source bound) (other : ReadState source' bound')
    (h : state.Mirrors around (Remains opened) other) (hCode : .code ∉ opened) :
    (alternative close state).Mirrors around
      (Onward.Mirrors around around.shift.alternative (Remains opened))
      (alternative close other) := by
  rw [alternative, alternative]
  refine (skipTrivia_mirrors h hCode).onward fun _ state₁ h₁ state₁' _ hState₁ => ?_
  dsimp only
  rw [hState₁.span_eq, hState₁.peek?_eq hState₁.here.ne_nil]
  refine Attempt.Mirrors.ite (fun _ => ?_) fun _ => ?_
  · refine (codeBlock_mirrors hState₁ hCode).ahead
      fun ⟨code, isPredicate⟩ state₂ h₂ state₂' _ hState₂ => ?_
    cases isPredicate with
    | true =>
      refine (elements_mirrors close state₂ state₂' hState₂ hCode).onward
        fun elements state₃ _ state₃' _ hState₃ => ?_
      exact ⟨rfl, hState₃⟩
    | false =>
      -- the action becomes the first element of the alternative
      have hAction : Onward.Mirrors around around.shift.expr (Remains opened)
          (state₂.finish none (.action · code))
          (state₂'.finish none (.action · (around.shift.fragment code))) :=
        hState₂.finish none none fun _ => rfl
      have hRemaining : (state₂.finish none (.action · code)).state.remaining = state₂.remaining :=
        rfl
      refine (elements_mirrors close _ _ hAction.2 hCode).onward
        fun elements state₃ _ state₃' _ hState₃ => ?_
      refine ⟨?_, hState₃⟩
      rw [Shift.alternative, Shift.exprs_cons, ← hAction.1]
      rfl
  · refine (elements_mirrors close state₁ state₁' hState₁ hCode).onward
      fun elements state₂ _ state₂' _ hState₂ => ?_
    exact ⟨rfl, hState₂⟩
termination_by 6 * state.remaining + 4

theorem elements_mirrors {opened : List Enclosure} (close : Char)
    (state : ReadState source bound) (other : ReadState source' bound')
    (h : state.Mirrors around (Remains opened) other) (hCode : .code ∉ opened) :
    (elements close state).Mirrors around
      (Onward.Mirrors around around.shift.exprs (Remains opened)) (elements close other) := by
  rw [elements, elements]
  refine nextChar_bind_mirrors h hCode fun c state₁ h₁ state₁' _ _ hState₁ => ?_
  dsimp only
  refine Attempt.Mirrors.ite (fun _ => ⟨around.shift.exprs_nil.symm, hState₁⟩) fun _ => ?_
  refine Attempt.Mirrors.ite (fun _ => ?_) fun _ => ?_
  · refine (codeElement_mirrors hState₁ hCode).ahead fun expr state₂ h₂ state₂' _ hState₂ => ?_
    refine (elements_mirrors close state₂ state₂' hState₂ hCode).onward
      fun others state₃ _ state₃' _ hState₃ => ?_
    exact ⟨(around.shift.exprs_cons ..).symm, hState₃⟩
  · refine (element_mirrors state₁ state₁' hState₁ hCode).ahead
      fun expr state₂ h₂ state₂' _ hState₂ => ?_
    refine (elements_mirrors close state₂ state₂' hState₂ hCode).onward
      fun others state₃ _ state₃' _ hState₃ => ?_
    exact ⟨(around.shift.exprs_cons ..).symm, hState₃⟩
termination_by 6 * state.remaining + 3

theorem element_mirrors {opened : List Enclosure}
    (state : ReadState source bound) (other : ReadState source' bound')
    (h : state.Mirrors around (Remains opened) other) (hCode : .code ∉ opened) :
    (element state).Mirrors around (Ahead.Mirrors around around.shift.expr (Remains opened))
      (element other) := by
  rw [element, element]
  refine (skipTrivia_mirrors h hCode).onward fun _ state₁ h₁ state₁' _ hState₁ => ?_
  dsimp only
  rw [hState₁.span_eq]
  refine (label_mirrors hState₁ hCode).onward fun label state₂ h₂ state₂' _ hState₂ => ?_
  refine (primary_mirrors state₁.span label state₂ state₂' hState₂ hCode).ahead
    fun expr state₃ _ state₃' _ hState₃ => ?_
  refine (suffixed_mirrors hState₃ hCode state₁.span label expr).onward
    fun expr state₄ _ state₄' _ hState₄ => ?_
  exact ⟨rfl, hState₄⟩
termination_by 6 * state.remaining + 2

theorem primary_mirrors {opened : List Enclosure} (span : Span) (label : Option Ident)
    (state : ReadState source bound) (other : ReadState source' bound')
    (h : state.Mirrors around (Remains opened) other) (hCode : .code ∉ opened) :
    (primary span label state).Mirrors around
      (Ahead.Mirrors around around.shift.expr (Remains opened))
      (primary (around.shift.span span) (label.map around.shift.ident) other) := by
  have hParens : .code ∉ Enclosure.parens :: opened := by simp [hCode]
  rw [primary, primary]
  refine (skipTrivia_mirrors h hCode).onward fun ⟨⟩ state₁ h₁ state₁' _ hState₁ => ?_
  have hSame := hState₁.peek?_eq hState₁.here.ne_nil
  have hDrop := state₁.remaining_drop 1
  have hDrop₂ := (state₁.drop 1).remaining_drop 1
  dsimp only [id]
  -- the same character decides in both texts
  refine Attempt.Mirrors.of_eq fun left hLeft => ?_
  split
  · next hPeek =>
    rw [hSame] at hPeek
    have hPos := remaining_pos_of_peek hPeek
    have hMark := hState₁.drop_one hPeek fun _ _ hRest => hRest.of_plain hCode (by decide)
    split at hLeft
    case h_1 =>
      subst hLeft
      rw [hMark.peek?_eq hMark.here.ne_nil]
      refine Attempt.Mirrors.ite (fun hOpening => ?_) fun _ =>
        hMark.fail hCode hState₁.span_eq rfl
      have hInside := hMark.drop_one hOpening fun _ _ => Remains.of_opening .parens nofun
      refine (expectIdent_mirrors hInside hParens _).ahead
        fun name state₃ h₃ state₃' _ hState₃ => ?_
      refine Attempt.Mirrors.ite (fun _ => ?_) fun _ => hState₃.fail hParens rfl rfl
      refine (children_mirrors state₃ state₃' hState₃ hCode).onward
        fun children state₄ _ state₄' _ hState₄ => ?_
      exact hState₄.finish_ahead _ _ fun _ => rfl
    all_goals simp_all
  · next hPeek =>
    rw [hSame] at hPeek
    have hMark := hState₁.drop_one hPeek fun _ _ hRest => hRest.of_plain hCode (by decide)
    split at hLeft
    case h_2 =>
      subst hLeft
      exact hMark.finish_ahead _ _ fun _ => rfl
    all_goals simp_all
  · next hPeek =>
    rw [hSame] at hPeek
    have hPos := remaining_pos_of_peek hPeek
    have hInside := hState₁.drop_one hPeek fun _ _ => Remains.of_opening .parens nofun
    split at hLeft
    case h_3 =>
      subst hLeft
      cases label with
      | some label => exact hInside.fail hParens rfl rfl
      | none =>
        refine (alternatives_mirrors ')' (state₁.drop 1) (state₁'.drop 1) hInside hParens).onward
          fun alternatives state₃ _ state₃' _ hState₃ => ?_
        refine (expect_mirrors hState₃ hParens fun _ _ => Remains.of_closing .parens).ahead
          fun _ state₄ _ state₄' _ hState₄ => ?_
        exact hState₄.finish_ahead _ _ fun _ => rfl
    all_goals simp_all
  · next hNode hWildcard hGroup =>
    split at hLeft
    case h_4 =>
      subst hLeft
      rw [hSame]
      refine Attempt.Mirrors.ite (fun _ => ?_) fun _ => hState₁.failHere hCode rfl
      refine (reference_mirrors hState₁ hCode span label).ahead fun expr next _ next' _ hNext => ?_
      exact ⟨rfl, hNext⟩
    all_goals simp_all
termination_by 6 * state.remaining + 1

theorem children_mirrors {opened : List Enclosure}
    (state : ReadState source bound) (other : ReadState source' bound')
    (h : state.Mirrors around (Remains (.parens :: opened)) other) (hCode : .code ∉ opened) :
    (children state).Mirrors around
      (Onward.Mirrors around around.shift.exprs (Remains opened)) (children other) := by
  have hParens : .code ∉ Enclosure.parens :: opened := by simp [hCode]
  rw [children, children]
  refine nextChar_bind_mirrors h hParens fun c state₁ h₁ state₁' _ hPeek hState₁ => ?_
  dsimp only
  refine Attempt.Mirrors.ite ?_ fun _ => ?_
  · rintro rfl
    exact ⟨around.shift.exprs_nil.symm,
      hState₁.drop_one hPeek fun _ _ => Remains.of_closing .parens⟩
  refine Attempt.Mirrors.ite (fun _ => hState₁.failHere hParens rfl) fun _ => ?_
  refine Attempt.Mirrors.ite (fun _ => ?_) fun _ => ?_
  · refine (codeElement_mirrors hState₁ hParens).ahead fun expr state₂ h₂ state₂' _ hState₂ => ?_
    refine (children_mirrors state₂ state₂' hState₂ hCode).onward
      fun others state₃ _ state₃' _ hState₃ => ?_
    exact ⟨(around.shift.exprs_cons ..).symm, hState₃⟩
  · refine (element_mirrors state₁ state₁' hState₁ hParens).ahead
      fun expr state₂ h₂ state₂' _ hState₂ => ?_
    refine (children_mirrors state₂ state₂' hState₂ hCode).onward
      fun others state₃ _ state₃' _ hState₃ => ?_
    exact ⟨(around.shift.exprs_cons ..).symm, hState₃⟩
termination_by 6 * state.remaining + 3

end

/-! ### Rules -/

section Rules

variable {state : ReadState source bound} {other : ReadState source' bound'}

/-- An attribute or a return value between brackets is the same in both texts. -/
theorem attr_mirrors (h : state.Mirrors around (Remains (.brackets :: opened)) other)
    (hCode : .code ∉ Enclosure.brackets :: opened) :
    state.attr.Mirrors around
      (Ahead.Mirrors around around.shift.attr (Remains (.brackets :: opened))) other.attr := by
  refine (expectIdent_mirrors h hCode _).ahead fun name state₁ _ state₁' _ h₁ => ?_
  refine (eat_mirrors h₁ hCode fun _ _ hRest => hRest.of_plain hCode (by decide)).found ?_ ?_
  case refine_2 => exact fun state₂ _ state₂' _ h₂ => h₂.failHere hCode rfl
  intro _ state₂ _ state₂' _ h₂
  refine (fragment_mirrors .brackets [',', '=', ']'] true h₂ (by decide) fun _ => hCode).onward
    fun type state₃ _ state₃' _ h₃ => ?_
  have hType := h₃.mono h₃.here.1
  refine Attempt.Mirrors.ite (fun _ => hType.fail hCode rfl rfl) fun _ => ?_
  refine (eat_mirrors hType hCode fun _ _ hRest => hRest.of_plain hCode (by decide)).found ?_ ?_
  case refine_2 => exact fun state₄ _ state₄' _ h₄ => ⟨rfl, h₄⟩
  intro _ state₄ _ state₄' _ h₄
  refine (fragment_mirrors .brackets [',', ']'] false h₄ (by decide) nofun).onward
    fun init state₅ _ state₅' _ h₅ => ?_
  have hInit := h₅.mono h₅.here.1
  exact Attempt.Mirrors.ite (fun _ => hInit.fail hCode rfl rfl) fun _ => ⟨rfl, hInit⟩

theorem attributes_mirrors {state : ReadState source bound} {other : ReadState source' bound'}
    (h : state.Mirrors around (Remains (.brackets :: opened)) other)
    (hCode : .code ∉ Enclosure.brackets :: opened) :
    state.attributes.Mirrors around
      (Onward.Mirrors around (List.map around.shift.attr) (Remains opened)) other.attributes := by
  fun_induction attributes state generalizing other with
  | case1 state ih =>
    rw [attributes]
    refine (eat_mirrors h hCode fun _ _ => Remains.of_closing .brackets).found ?_ ?_
    · exact fun _ state₁ _ state₁' _ h₁ => ⟨rfl, h₁⟩
    intro state₁ le₁ state₁' _ h₁
    refine (attr_mirrors h₁ hCode).ahead fun first state₂ lt₂ state₂' _ h₂ => ?_
    refine (eat_mirrors h₂ hCode fun _ _ hRest => hRest.of_plain hCode (by decide)).found ?_ ?_
    · intro _ state₃ lt₃ state₃' _ h₃
      refine (ih state₁ le₁ state₂ lt₂ state₃ lt₃ h₃).onward fun others state₄ _ state₄' _ h₄ => ?_
      exact ⟨rfl, h₄⟩
    · intro state₃ _ state₃' _ h₃
      refine (expect_mirrors h₃ hCode fun _ _ => Remains.of_closing .brackets).ahead
        fun _ state₄ _ state₄' _ h₄ => ?_
      exact ⟨rfl, h₄⟩

/-- Text between parentheses is the same in both texts. -/
theorem parenthesized_mirrors (h : state.Mirrors around (Remains opened) other)
    (hCode : .code ∉ opened) :
    state.parenthesized.Mirrors around
      (Onward.Mirrors around (Option.map around.shift.fragment) (Remains opened))
      other.parenthesized := by
  refine (eat_mirrors h hCode fun _ _ => Remains.of_opening .parens nofun).found ?_ ?_
  case refine_2 => exact fun state₁ _ state₁' _ h₁ => ⟨rfl, h₁⟩
  intro _ state₁ _ state₁' _ h₁
  refine (fragment_mirrors .parens [')'] false h₁ (List.mem_singleton_self _) nofun).onward
    fun text state₂ _ state₂' _ h₂ => ?_
  refine (close_mirrors .parens h₂).ahead fun _ state₃ _ state₃' _ h₃ => ?_
  exact ⟨rfl, h₃⟩

theorem returnValue_mirrors (h : state.Mirrors around (Remains opened) other)
    (hCode : .code ∉ opened) :
    state.returnValue.Mirrors around
      (Onward.Mirrors around (Option.map around.shift.attr) (Remains opened))
      other.returnValue := by
  have hBrackets : .code ∉ Enclosure.brackets :: opened := by simp [hCode]
  rw [returnValue, returnValue, keywordAhead_eq h hCode]
  refine Attempt.Mirrors.ite (fun _ => ?_) fun _ => ⟨rfl, h⟩
  refine (expectIdent_mirrors h hCode _).ahead fun _ state₁ _ state₁' _ h₁ => ?_
  refine (expect_mirrors h₁ hCode fun _ _ => Remains.of_opening .brackets (by decide)).ahead
    fun _ state₂ _ state₂' _ h₂ => ?_
  refine (attr_mirrors h₂ hBrackets).ahead fun value state₃ _ state₃' _ h₃ => ?_
  refine (expect_mirrors h₃ hBrackets fun _ _ => Remains.of_closing .brackets).ahead
    fun _ state₄ _ state₄' _ h₄ => ?_
  exact ⟨rfl, h₄⟩

/-- What follows the name of a rule is read up to the end of the item. -/
theorem ruleBody_mirrors (h : state.Mirrors around (Remains []) other) (name : Ident)
    (isPublic : Bool) :
    (ruleBody name isPublic state).Mirrors around
      (Onward.Mirrors around around.shift.rule NothingRemains)
      (ruleBody (around.shift.ident name) isPublic other) := by
  have hCode : Enclosure.code ∉ [] := List.not_mem_nil
  have hBrackets : Enclosure.code ∉ [Enclosure.brackets] := by decide
  rw [ruleBody, ruleBody]
  extract_lets later later'
  -- the steps after the attributes are the same with and without attributes
  have hLater : ∀ (result : Onward state (List Attribute))
      (result' : Onward other (List Attribute)),
      Onward.Mirrors around (List.map around.shift.attr) (Remains []) result result' →
        (later result).Mirrors around (Onward.Mirrors around around.shift.rule NothingRemains)
          (later' result') := by
    rintro ⟨attributes, state₁, _⟩ ⟨_, state₁', _⟩ ⟨rfl, h₁⟩
    refine (parenthesized_mirrors h₁ hCode).onward fun params state₂ _ state₂' _ h₂ => ?_
    refine (returnValue_mirrors h₂ hCode).onward fun returns state₃ _ state₃' _ h₃ => ?_
    refine (expect_mirrors h₃ hCode fun _ _ hRest => hRest.of_plain hCode (by decide)).ahead
      fun _ state₄ _ state₄' _ h₄ => ?_
    refine (alternatives_mirrors ';' state₄ state₄' h₄ hCode).onward
      fun alternatives state₅ _ state₅' _ h₅ => ?_
    refine (expect_mirrors h₅ hCode fun _ _ hRest => hRest.of_mark hCode).ahead
      fun _ state₆ _ state₆' _ h₆ => ?_
    exact ⟨rfl, h₆⟩
  refine (eat_mirrors h hCode fun _ _ => Remains.of_opening .brackets nofun).found ?_ ?_
  · intro _ next lt next' lt' hNext
    refine (attributes_mirrors hNext hBrackets).bind fun result result' hResult => ?_
    exact hLater (result.weaken (Nat.le_of_lt lt)) (result'.weaken (Nat.le_of_lt lt')) hResult
  · intro next le next' le' hNext
    exact hLater ⟨[], next, le⟩ ⟨[], next', le'⟩ ⟨rfl, hNext⟩

theorem ruleName_mirrors (h : state.Mirrors around (Remains opened) other)
    (hCode : .code ∉ opened) :
    state.ruleName.Mirrors around
      (Ahead.Mirrors around (fun value => (around.shift.ident value.1, value.2)) (Remains opened))
      other.ruleName := by
  refine (expectIdent_mirrors h hCode _).ahead fun name state₁ _ state₁' _ h₁ => ?_
  refine Attempt.Mirrors.ite (fun _ => ?_) fun _ => ⟨rfl, h₁⟩
  refine (expectIdent_mirrors h₁ hCode _).ahead fun name state₂ _ state₂' _ h₂ => ?_
  exact ⟨rfl, h₂⟩

/-- A rule is read in both texts, or the same error is found in it and its name is noted. -/
theorem rule_mirrors (h : state.Mirrors around (Remains []) other) :
    state.rule.Mirrors around (Ahead.Mirrors around id NothingRemains) other.rule := by
  have hCode : Enclosure.code ∉ [] := List.not_mem_nil
  refine (ruleName_mirrors h hCode).ahead fun ⟨name, isPublic⟩ state₁ _ state₁' _ h₁ => ?_
  refine Attempt.Mirrors.ite (fun _ => h₁.fail hCode rfl rfl) fun _ => ?_
  obtain ⟨result, result', hBody, hBody', hResult⟩ |
      ⟨error, state₂, state₂', opened, hBody, hBody', hOpened, h₂⟩ :=
    (ruleBody_mirrors h₁ name isPublic).ok_or_error
  · simp only [hBody, hBody']
    obtain ⟨rule, state₂, _⟩ := result
    obtain ⟨rule', state₂', _⟩ := result'
    obtain ⟨rfl, h₂⟩ := hResult
    refine ⟨rfl, { h₂ with rules := ?_ }⟩
    show state₂'.grammar.rules ++ [around.shift.rule rule] =
      around.grammar.rules ++ (state₂.grammar.rules ++ [rule]).map around.shift.rule
    rw [h₂.rules, List.map_append, List.append_assoc]
    rfl
  · simp only [hBody, hBody']
    refine ⟨rfl, opened, hOpened, { h₂ with malformed := ?_ }⟩
    show state₂'.grammar.malformed ++ [around.shift.ident name] =
      around.grammar.malformed ++ (state₂.grammar.malformed ++ [name]).map around.shift.ident
    rw [h₂.malformed, List.map_append, List.append_assoc]
    rfl

end Rules

end ReadState

end TreeGrammar
