import TreeGrammar.Proofs.Grammar.Items
import TreeGrammar.Proofs.Grammar.LoopSteps

/-!
# The parser with loops is the parser

No loop of the parser needs more rounds than there are characters to go, and no element contains
others that are deeper. So nothing is cut off if the limit is larger than the text, and what the
loops yield is what the parser yields.

## Main definitions

* `LoopParser.ReadsElement`: a step reads an element where few characters are left

## Main results

* `LoopParser.children_agrees`, `LoopParser.alternatives_agrees`, `LoopParser.attributes_agrees`,
  `LoopParser.tokens_agrees`: the loops inside an item
* `LoopParser.element_agrees`: elements
* `LoopParser.itemsRound_cases`: a round of reading items
* `LoopParser.parse_eq`: the parser with loops is the parser
-/

namespace TreeGrammar

/-! ### White space -/

theorem triviaLength_drop (text : List Char) :
    triviaLength (text.drop (triviaLength text).1) = (0, (triviaLength text).2) := by
  fun_induction triviaLength text with
  | case1 => simp
  | case2 rest line more ih => rw [Nat.add_assoc, drop_two_add, ← List.drop_drop, ih]
  | case3 rest comment hComment more ih => rw [Nat.add_assoc, drop_two_add, ← List.drop_drop, ih]
  | case4 rest hComment =>
    rw [List.drop_zero, triviaLength, hComment]
  | case5 c rest _ _ hBlank more ih => rw [Nat.add_comm, List.drop_succ_cons, ih]
  | case6 c rest hLine hBlock hBlank =>
    rw [List.drop_zero, triviaLength, if_neg hBlank]
    · exact hLine
    · exact hBlock

namespace ReadState

variable {source : List Char} {bound : Nat} {state next : ReadState source bound}

/-- Behind white space, there is none to skip. -/
theorem nextChar_of_skipTrivia {le} (h : state.skipTrivia = .ok ⟨(), next, le⟩) :
    next.nextChar = .ok ⟨next.peek?, next, next.remaining_le_self⟩ := by
  rw [skipTrivia] at h
  split at h
  · cases h
  · next hClosed =>
    cases h
    have hNext : triviaLength (state.drop (triviaLength state.rest).1).rest = (0, false) := by
      rw [rest_drop, triviaLength_drop, eq_false_of_ne_true hClosed]
    rw [nextChar, skipTrivia]
    simp only [hNext]
    rfl

theorem value_of_nextChar {result : Onward state (Option Char)} (h : state.nextChar = .ok result) :
    result.value = result.state.peek? := by
  rw [nextChar] at h
  cases hTrivia : state.skipTrivia with
  | error failure =>
    rw [hTrivia] at h
    cases h
  | ok trivia =>
    rw [hTrivia] at h
    cases h
    rfl

end ReadState

namespace LoopParser

variable {source : List Char} {bound : Nat}

/-! ### Elements -/

/-- A step reads an element wherever less than some number of characters is left. -/
def ReadsElement (element : Step source bound Expr) (depth : Nat) : Prop :=
  ∀ state, state.remaining < depth → Agrees element state (ReadState.element state) readAhead

section Elements

variable {element : Step source bound Expr} {limit depth : Nat}
  (hElement : ReadsElement element depth)
include hElement

/-- Children are read in a loop, behind some others. -/
theorem children_agrees (state : ReadState source bound) (hDepth : state.remaining < depth)
    {count : Nat} (hCount : state.remaining < count) (children : List Expr) :
    Agrees (rounds cutOff (childrenRound element) count children) state state.children
      fun result => (children ++ result.value, result.state) := by
  -- by induction on the number of rounds, of which there are more than characters
  induction count generalizing state children with
  | zero => exact absurd hCount (Nat.not_lt_zero _)
  | succ count ih =>
    rw [rounds, childrenRound, ReadState.children]
    refine .assoc (onward_bind fun c state₁ h₁ => ?_)
    cases c with
    | none => rfl
    | some c =>
      refine .ite_bind (fun _ => ?_) fun hClose => ?_
      · exact .assoc (bump_bind (.pure (congrArg (·, state₁.drop 1) (List.append_nil children))))
      · by_cases hBar : c = '|'
        · subst hBar
          rfl
        · rw [if_neg hBar, if_neg hBar]
          by_cases hBrace : c = '{'
          · rw [if_pos hBrace, if_pos hBrace]
            refine .assoc (ahead_bind fun expr state₂ h₂ => ?_)
            rw [pure_bind]
            exact (ih state₂ (by omega) (by omega) _).of_bind fun _ => ⟨_, rfl, by simp⟩
          · rw [if_neg hBrace, if_neg hBrace, bind_assoc]
            refine (hElement state₁ (by omega)).bind fun result => ?_
            obtain ⟨expr, state₂, h₂⟩ := result
            rw [pure_bind]
            exact (ih state₂ (by omega) (by omega) _).of_bind fun _ =>
              ⟨_, rfl, by simp [readAhead]⟩

variable {close : Char}

/-- Elements are read in a loop. A predicate at the start of an alternative would be its guard, so
something has been read before, or no code comes next. -/
theorem elements_agrees (state : ReadState source bound) (hDepth : state.remaining < depth)
    {count : Nat} (hCount : state.remaining < count) (guard : Option Fragment) (before : List Expr)
    (hGuard : guard.isNone → before = [] → ∀ result, state.nextChar = .ok result →
      result.value ≠ some '{') :
    Agrees (rounds cutOff (alternativeRound element close) count (guard, before)) state
      (state.elements close) fun result => ((guard, before ++ result.value), result.state) := by
  induction count generalizing state before with
  | zero => exact absurd hCount (Nat.not_lt_zero _)
  | succ count ih =>
    rw [rounds, alternativeRound, ReadState.elements]
    simp only [bind_assoc]
    refine onward_bind_eq fun c state₁ h₁ hc => ?_
    cases c with
    | none => rfl
    | some c =>
      by_cases hEnd : c = '|' || c = close
      · simp only [hEnd, if_true]
        exact .pure (congrArg (fun read => ((guard, read), state₁)) (List.append_nil before))
      · simp only [hEnd, if_false, Bool.false_eq_true]
        by_cases hBrace : c = '{'
        · simp only [hBrace, if_true]
          simp only [ReadState.codeElement, bind_assoc]
          refine ahead_bind fun block state₂ h₂ => ?_
          obtain ⟨code, isPredicate⟩ := block
          -- a predicate behind something else is an element
          have hNoGuard : ¬ (isPredicate && before.isEmpty && guard.isNone) := by
            simp only [Bool.and_eq_true, List.isEmpty_iff, not_and]
            intro ⟨_, hBefore⟩ hNone
            exact hGuard hNone hBefore _ hc (congrArg some hBrace)
          rw [if_neg hNoGuard]
          refine .assoc (finish_bind ?_)
          simp only [pure_bind, Onward.ahead]
          refine (ih _ ?_ ?_ _ fun _ h => by simp at h).of_bind fun _ => ⟨_, rfl, by simp⟩
          · show state₂.remaining < depth
            omega
          · show state₂.remaining < count
            omega
        · simp only [hBrace, if_false, bind_assoc]
          refine (hElement state₁ (by omega)).bind fun result => ?_
          obtain ⟨expr, state₂, h₂⟩ := result
          simp only [pure_bind]
          exact (ih state₂ (by omega) (by omega) _ fun _ h => by simp at h).of_bind
            fun _ => ⟨_, rfl, by simp [readAhead]⟩

/-- An alternative is read in a loop, in which its guard is told from its elements. -/
theorem alternative_agrees (hClose : close ≠ '{') (state : ReadState source bound)
    (hDepth : state.remaining < depth) (hLimit : state.remaining < limit) :
    Agrees (alternative limit element close) state (state.alternative close) readOnward := by
  rw [alternative, ReadState.alternative]
  refine onward_bind_eq fun _ state₁ h₁ hTrivia => inspect_bind ?_
  have hNext := ReadState.nextChar_of_skipTrivia hTrivia
  dsimp only
  by_cases hBrace : state₁.peek? = some '{'
  · rw [if_pos hBrace]
    -- the first round reads the code, which is a guard or the first element
    obtain ⟨limit, rfl⟩ : ∃ count, limit = count + 1 := ⟨limit - 1, by omega⟩
    rw [rounds, alternativeRound]
    simp only [bind_assoc]
    have hEnd : ¬ (decide ('{' = '|') || decide ('{' = close)) := by
      simpa using Ne.symm hClose
    rw [Agrees, onward_bind_of_ok hNext, hBrace]
    simp only [hEnd, if_true, if_false, Bool.false_eq_true, bind_assoc]
    refine ahead_bind fun block state₂ h₂ => ?_
    obtain ⟨code, isPredicate⟩ := block
    cases isPredicate with
    | true =>
      simp only [List.isEmpty_nil, Option.isNone_none, Bool.and_self, if_true, pure_bind]
      exact (elements_agrees hElement state₂ (by omega) (by omega) (some code) []
        fun h => by cases h).bind fun _ => .pure rfl
    | false =>
      simp only [Bool.false_and, Bool.false_eq_true, if_false, bind_assoc]
      refine finish_bind ?_
      simp only [pure_bind]
      refine (elements_agrees hElement _ ?_ ?_ none _ fun _ h => by simp at h).bind
        fun _ => .pure rfl
      · show state₂.remaining < depth
        omega
      · show state₂.remaining < limit
        omega
  · rw [if_neg hBrace]
    refine (elements_agrees hElement state₁ (by omega) (by omega) none []
      fun _ _ result hResult => ?_).bind fun _ => .pure rfl
    obtain rfl := Except.ok.inj (hNext.symm.trans hResult)
    exact hBrace

/-- Alternatives are read in a loop, behind some others. -/
theorem alternatives_from_agrees (hClose : close ≠ '{') (state : ReadState source bound)
    (hDepth : state.remaining < depth) (hLimit : state.remaining < limit) {count : Nat}
    (hCount : state.remaining < count) (before : List Alternative) :
    Agrees (alternative limit element close >>= fun first =>
        rounds cutOff (alternativesRound limit element close) count (before ++ [first])) state
      (state.alternatives close) fun result => (before ++ result.value, result.state) := by
  induction count generalizing state before with
  | zero => exact absurd hCount (Nat.not_lt_zero _)
  | succ count ih =>
    rw [ReadState.alternatives]
    refine (alternative_agrees hElement hClose state hDepth hLimit).bind fun result => ?_
    obtain ⟨first, state₁, h₁⟩ := result
    rw [rounds, alternativesRound]
    refine .assoc (found_bind (fun _ state₂ h₂ => ?_) fun state₂ h₂ => .pure rfl)
    replace h₂ : state₂.remaining < state₁.remaining := h₂
    simp only [bind_assoc, pure_bind]
    exact (ih state₂ (by omega) (by omega) (by omega) _).of_bind fun _ =>
      ⟨_, rfl, by simp [readOnward]⟩

theorem alternatives_agrees (hClose : close ≠ '{') (state : ReadState source bound)
    (hDepth : state.remaining < depth) (hLimit : state.remaining < limit) :
    Agrees (alternatives limit element close) state (state.alternatives close) readOnward :=
  alternatives_from_agrees hElement hClose state hDepth hLimit hLimit []

theorem primary_agrees (span : Span) (label : Option Ident) (state : ReadState source bound)
    (hDepth : state.remaining ≤ depth) (hLimit : state.remaining ≤ limit) :
    Agrees (primary limit element span label) state (state.primary span label) readAhead := by
  rw [primary.eq_def, ReadState.primary.eq_def]
  refine onward_bind fun _ state₁ h₁ => inspect_bind ?_
  dsimp only
  -- the same character decides in both
  refine .of_eq fun other hOther => ?_
  split at hOther
  · next hPeek =>
    have hPos := ReadState.remaining_pos_of_peek hPeek
    have hDrop := state₁.remaining_drop 1
    have hDrop₂ := (state₁.drop 1).remaining_drop 1
    subst hOther
    refine inspect_bind_of_eq hPeek (bump_bind (inspect_bind (.ite (fun _ => bump_bind ?_)
      fun _ => rfl)))
    refine ahead_bind fun name state₃ h₃ => .ite (fun _ => ?_) fun _ => rfl
    exact (children_agrees hElement state₃ (by omega) (by omega) []).bind fun _ => rfl
  · next hPeek =>
    subst hOther
    exact inspect_bind_of_eq hPeek rfl
  · next hPeek =>
    have hPos := ReadState.remaining_pos_of_peek hPeek
    have hDrop := state₁.remaining_drop 1
    subst hOther
    refine inspect_bind_of_eq hPeek (bump_bind ?_)
    cases label with
    | some label => rfl
    | none =>
      exact (alternatives_agrees hElement (by decide) _ (by omega) (by omega)).bind fun _ =>
        ahead_bind fun _ state₄ h₄ => rfl
  · next hNode hWildcard hGroup =>
    subst hOther
    refine inspect_bind ?_
    split
    · next hPeek => exact absurd hPeek hNode
    · next hPeek => exact absurd hPeek hWildcard
    · next hPeek => exact absurd hPeek hGroup
    · exact .ite (fun _ => (ahead_agrees _).of_bind fun expr => ⟨_, rfl, rfl⟩) fun _ => rfl

theorem elementWith_agrees (state : ReadState source bound) (hDepth : state.remaining ≤ depth)
    (hLimit : state.remaining ≤ limit) :
    Agrees (elementWith limit element) state state.element readAhead := by
  rw [elementWith, ReadState.element]
  refine onward_bind fun _ state₁ h₁ => inspect_bind ?_
  refine onward_bind fun label state₂ h₂ => ?_
  exact (primary_agrees hElement _ label state₂ (by omega) (by omega)).bind fun _ =>
    (onward_agrees _).of_bind fun _ => ⟨_, rfl, rfl⟩

end Elements

/-- Elements are read, unless more of them are inside each other than characters are left. -/
theorem element_agrees (limit : Nat) :
    ReadsElement (element limit : Step source bound Expr) limit := by
  induction limit with
  | zero => exact fun _ hState => absurd hState (Nat.not_lt_zero _)
  | succ limit ih =>
    intro state hState
    have hLe := Nat.le_of_lt_succ hState
    exact elementWith_agrees ih state hLe hLe

/-! ### Attributes and tokens -/

/-- Attributes are read in a loop, behind some others. -/
theorem attributes_agrees (state : ReadState source bound) {count : Nat}
    (hCount : state.remaining < count) (attributes : List Attribute) :
    Agrees (rounds cutOff attributesRound count attributes) state state.attributes
      fun result => (attributes ++ result.value, result.state) := by
  induction count generalizing state attributes with
  | zero => exact absurd hCount (Nat.not_lt_zero _)
  | succ count ih =>
    rw [rounds, attributesRound, ReadState.attributes]
    refine .assoc (found_bind (fun _ state₁ h₁ => ?_) fun state₁ h₁ => ?_)
    · exact .pure (congrArg (·, state₁) (List.append_nil attributes))
    · refine .assoc (ahead_bind fun attr state₂ h₂ => ?_)
      refine .assoc (found_bind (fun _ state₃ h₃ => ?_) fun state₃ h₃ => ?_)
      · rw [pure_bind]
        exact (ih state₃ (by omega) _).of_bind fun _ => ⟨_, rfl, by simp⟩
      · exact .assoc (ahead_bind fun _ state₄ h₄ => .pure rfl)

/-- Token names are read in a loop. -/
theorem tokens_agrees (state : ReadState source bound) {count : Nat}
    (hCount : state.remaining < count) :
    Agrees (rounds cutOff tokensRound count ()) state state.tokenNames readOnward := by
  induction count generalizing state with
  | zero => exact absurd hCount (Nat.not_lt_zero _)
  | succ count ih =>
    rw [rounds, tokensRound, ReadState.tokenNames]
    refine .assoc (found_bind (fun _ state₁ h₁ => .pure rfl) fun state₁ h₁ => ?_)
    refine .assoc (ahead_bind fun token state₂ h₂ => ?_)
    refine .ite_bind (fun _ => .assoc (update_bind ?_)) fun _ => rfl
    refine .assoc (found_bind (fun _ state₃ h₃ => ?_) fun state₃ h₃ => ?_)
    · rw [ReadState.remaining_update] at h₃
      rw [pure_bind]
      exact (ih state₃ (by omega)).of_bind fun _ => ⟨_, rfl, rfl⟩
    · exact .assoc (ahead_bind fun _ state₄ h₄ => .pure rfl)

/-! ### Items -/

section Items

variable {limit : Nat} (state : ReadState source bound) (hState : state.remaining < limit)
include hState

theorem tokenList_agrees : Agrees (tokenList limit) state state.tokenList readAhead := by
  refine ahead_bind fun _ state₁ h₁ => ahead_bind fun _ state₂ h₂ => ?_
  exact (tokens_agrees state₂ (by omega)).of_bind fun _ => ⟨_, rfl, rfl⟩

theorem ruleBody_agrees (name : Ident) (isPublic : Bool) :
    Agrees (ruleBody limit name isPublic) state (state.ruleBody name isPublic) readOnward := by
  rw [ruleBody, ReadState.ruleBody]
  refine found_bind (fun _ next h => ?listed) fun state₁ h₁ => ?absent
  case' listed =>
    refine (attributes_agrees next (by omega) []).bind fun result => ?_
    obtain ⟨attributes, state₁, h₁⟩ := result
  -- what follows the attributes does not depend on whether there are any
  all_goals
    refine onward_bind fun params state₂ h₂ => onward_bind fun returns state₃ h₃ => ?_
    refine ahead_bind fun _ state₄ h₄ => ?_
    have h₂ : state₂.remaining ≤ state₁.remaining := h₂
    exact (alternatives_agrees (element_agrees limit) (by decide) state₄ (by omega)
      (by omega)).bind fun _ => ahead_bind fun _ state₆ h₆ => .pure rfl

theorem rule_agrees : Agrees (rule limit) state state.rule readAhead := by
  rw [rule, ReadState.rule]
  refine ahead_bind fun named state₁ h₁ => .ite (fun _ => rfl) fun _ => ?_
  obtain ⟨name, isPublic⟩ := named
  rw [Agrees, bind_apply, noting, ruleBody_agrees state₁ (by omega)]
  cases state₁.ruleBody name isPublic with
  | ok result => rfl
  | error failure => rfl

theorem item_agrees : Agrees (item limit) state state.item readAhead := by
  rw [item, ReadState.item]
  refine onward_bind fun c state₁ h₁ => ?_
  refine .ite (fun _ => (ahead_agrees _).of_bind fun _ => ⟨_, rfl, rfl⟩) fun _ => inspect_bind ?_
  refine .ite (fun _ => (tokenList_agrees state₁ (by omega)).of_bind fun _ => ⟨_, rfl, rfl⟩)
    fun _ => inspect_bind ?_
  refine .ite (fun _ => (ahead_agrees _).of_bind fun _ => ⟨_, rfl, rfl⟩) fun _ => ?_
  exact .ite (fun _ => (rule_agrees state₁ (by omega)).of_bind fun _ => ⟨_, rfl, rfl⟩) fun _ => rfl

end Items

/-- A round of reading items leads further on, or reading has come to its end. -/
theorem itemsRound_cases {limit : Nat} (state : ReadState source bound)
    (hState : state.remaining < limit) (errors : List SyntaxError) :
    itemsRound limit (errors, ⟨bound, state⟩) =
        some (.inr (errors ++ state.items.1, state.items.2)) ∨
      ∃ (more : List SyntaxError) (bound' : Nat) (next : ReadState source bound'),
        itemsRound limit (errors, ⟨bound, state⟩) = some (.inl (errors ++ more, ⟨bound', next⟩)) ∧
          next.remaining < state.remaining ∧
            state.items = (more ++ next.items.1, next.items.2) := by
  cases hNext : state.nextChar with
  | error failure =>
    refine .inl ?_
    rw [itemsRound, hNext, ReadState.items, hNext]
  | ok result =>
    obtain ⟨c, state₁, h₁⟩ := result
    have hValue := ReadState.value_of_nextChar hNext
    rw [itemsRound, hNext]
    cases c with
    | none =>
      rw [ReadState.items_of_end hNext (List.head?_eq_none_iff.1 hValue.symm), List.append_nil]
      exact .inl rfl
    | some c =>
      have hPos : 0 < state₁.remaining := ReadState.remaining_pos_of_peek hValue.symm
      have hItem : Agrees (item limit) state₁.tighten state₁.tighten.item readAhead :=
        item_agrees state₁.tighten (Nat.lt_of_le_of_lt h₁ hState)
      refine .inr ?_
      dsimp only
      rw [hItem]
      cases hResult : state₁.tighten.item with
      | ok result =>
        refine ⟨[], _, result.state, by simp [outcome, readAhead], ?_, ?_⟩
        · exact Nat.lt_of_lt_of_le result.lt h₁
        · rw [ReadState.items_of_ok hNext hPos hResult]
          rfl
      | error failure =>
        obtain ⟨error, state₂⟩ := failure
        refine ⟨[error], _, (state₂.recover 0).1, rfl, ?_, ?_⟩
        · -- the recovery passes a character, unless the faulty item has passed all of them
          have hPassed := (state₂.recover 0).2
          have hBound := state₂.remaining_le
          omega
        · rw [ReadState.items_of_error hNext hPos hResult]
          rfl

/-- Items are read in a loop. -/
theorem items_agrees {limit : Nat} (state : ReadState source bound)
    (hState : state.remaining < limit) {count : Nat} (hCount : state.remaining < count)
    (errors : List SyntaxError) : rounds none (itemsRound limit) count (errors, ⟨bound, state⟩) =
      some (errors ++ state.items.1, state.items.2) := by
  -- the bound changes from item to item, so the induction is over all of them
  induction count generalizing bound state errors with
  | zero => exact absurd hCount (Nat.not_lt_zero _)
  | succ count ih =>
    rcases itemsRound_cases state hState errors with
      hEnd | ⟨more, bound', next, hNext, hLess, hItems⟩
    · exact rounds_of_result hEnd (Nat.succ_pos _)
    · rw [rounds_of_next hNext (Nat.succ_pos _), hItems, ← List.append_assoc]
      exact ih next (by omega) (by omega) _

/-- The parser with loops ends, and yields what the parser yields. -/
theorem parse_eq {limit : Nat} (hLimit : source.length < limit) :
    parse limit source = some (SourceGrammar.parse source) := by
  rw [parse, SourceGrammar.parse]
  dsimp only
  split
  · next state le hHeader =>
    have hBound := state.remaining_le
    rw [items, items_agrees state (by omega) (by omega)]
    simp [hHeader]
  · next error state hHeader =>
    have hBound := (state.recover 0).1.remaining_le
    rw [items, items_agrees (state.recover 0).1 (by omega) (by omega)]
    simp [hHeader]

end LoopParser

end TreeGrammar
