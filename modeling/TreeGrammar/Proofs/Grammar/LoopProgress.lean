import TreeGrammar.Proofs.Grammar.ByteLoops
import TreeGrammar.Proofs.Grammar.LoopAgreement
import TreeGrammar.Proofs.Grammar.Resumption

/-!
# The parser comes to an end

Every round of a loop of the parser consumes something if another round follows, and the elements
inside an element begin behind its first character. An item that is faulty may consume nothing, but
there is something to go on behind it, and reading goes on further on. So the parser ends on every
text, whatever errors there are.

## Main definitions

* `LoopParser.Leads`: what a step leads to if it does not fail
* `LoopParser.Progresses`: every round of a loop consumes something if another one follows
* `LoopParser.beyond`: a step that starts further on in the text

## Main results

* `LoopParser.Progresses.leads`: a loop that makes progress comes to an end
* `LoopParser.elementWith_beyond`: the elements inside an element begin further on
* `LoopParser.terminates`: all loops make progress, and the parser comes to an end
-/

namespace TreeGrammar

/-! ### Places further on -/

namespace ReadState

variable {source : List Char} {bound bound' : Nat}

theorem remaining_le_length (state : ReadState source bound) :
    state.remaining ≤ source.length := by
  have hLength := congrArg List.length state.reader.split
  rw [List.length_append] at hLength
  exact hLength ▸ Nat.le_add_left ..

/-- Where less is left of a text, one is further on in it. -/
theorem offset_lt {state : ReadState source bound} {next : ReadState source bound'}
    (h : next.remaining < state.remaining) : state.span.offset < next.span.offset := by
  have hSplit : state.reader.before.reverse ++ state.rest =
      next.reader.before.reverse ++ next.rest :=
    state.reader.split.trans next.reader.split.symm
  rw [span, span, state.reader.span_eq, next.reader.span_eq, Span.offset_advance,
    Span.offset_advance]
  -- the text in front of one place begins with the text in front of the other
  rcases List.append_eq_append_iff.1 hSplit with ⟨passed, hNext, hRest⟩ | ⟨passed, -, hRest⟩
  · have hPassed : passed ≠ [] := by
      rintro rfl
      rw [remaining, remaining, hRest] at h
      exact Nat.lt_irrefl _ h
    have hPos := Text.byteSize_pos hPassed
    rw [hNext, Text.byteSize_append]
    omega
  · rw [remaining, remaining, hRest, List.length_append] at h
    omega

end ReadState

namespace LoopParser

variable {source : List Char} {bound : Nat} {α β σ ρ : Type}

/-! ### What steps lead to -/

/-- A step is not cut off, and unless it fails, it leads to what is wanted. -/
def Leads (x : Step source bound α) (state : ReadState source bound)
    (wanted : α → ReadState source bound → Prop) : Prop :=
  ∃ result next, x state = some (result, next) ∧ ∀ value, result = .ok value → wanted value next

section Leads

variable {x : Step source bound α} {f : α → Step source bound β} {state : ReadState source bound}
  {wanted : α → ReadState source bound → Prop} {wanted' : β → ReadState source bound → Prop}

theorem Leads.of_ok {value : α} {next : ReadState source bound}
    (h : x state = some (.ok value, next)) (hWanted : wanted value next) :
    Leads x state wanted :=
  ⟨_, _, h, by rintro _ ⟨⟩; exact hWanted⟩

theorem Leads.of_error {error : SyntaxError} {next : ReadState source bound}
    (h : x state = some (.error error, next)) : Leads x state wanted :=
  ⟨_, _, h, by rintro _ ⟨⟩⟩

theorem Leads.mono {weaker : α → ReadState source bound → Prop} (h : Leads x state wanted)
    (hWeaker : ∀ value next, wanted value next → weaker value next) : Leads x state weaker := by
  obtain ⟨result, next, hResult, hWanted⟩ := h
  exact ⟨result, next, hResult, fun value hValue => hWeaker value next (hWanted value hValue)⟩

theorem Leads.bind (h : Leads x state wanted)
    (hNext : ∀ value next, wanted value next → Leads (f value) next wanted') :
    Leads (x >>= f) state wanted' := by
  obtain ⟨result, next, hResult, hWanted⟩ := h
  cases result with
  | ok value =>
    obtain ⟨result', next', hResult', hWanted'⟩ := hNext value next (hWanted value rfl)
    refine ⟨result', next', ?_, hWanted'⟩
    rw [bind_apply, hResult]
    exact hResult'
  | error error =>
    refine ⟨.error error, next, ?_, by rintro _ ⟨⟩⟩
    rw [bind_apply, hResult]
    rfl

theorem Leads.pure {value : α} (h : wanted value state) : Leads (Pure.pure value) state wanted :=
  .of_ok rfl h

theorem Leads.ite {c : Prop} [Decidable c] {y : Step source bound α}
    (hThen : c → Leads x state wanted) (hElse : ¬ c → Leads y state wanted) :
    Leads (if c then x else y) state wanted := by
  split
  · next hc => exact hThen hc
  · next hc => exact hElse hc

theorem onward_leads
    (step : (state : ReadState source bound) → Attempt source bound (Onward state α)) :
    Leads (onward step) state fun _ next => next.remaining ≤ state.remaining := by
  cases h : step state with
  | ok result => exact .of_ok (by rw [onward, h]) result.le
  | error failure => exact .of_error (by rw [onward, h])

theorem ahead_leads
    (step : (state : ReadState source bound) → Attempt source bound (Ahead state α)) :
    Leads (ahead step) state fun _ next => next.remaining < state.remaining := by
  cases h : step state with
  | ok result => exact .of_ok (by rw [ahead, h]) result.lt
  | error failure => exact .of_error (by rw [ahead, h])

theorem found_leads
    {step : (state : ReadState source bound) → Attempt source bound (Found state α)}
    {f : Option α → Step source bound β}
    (hYes : ∀ value next, next.remaining < state.remaining → Leads (f (some value)) next wanted')
    (hNo : ∀ next, next.remaining ≤ state.remaining → Leads (f none) next wanted') :
    Leads (found step >>= f) state wanted' := by
  cases h : step state with
  | error failure =>
    have hFound : Leads (found step) state fun _ _ => False := .of_error (by rw [found, h])
    exact hFound.bind fun _ _ h => h.elim
  | ok result =>
    cases result with
    | yes value next lt =>
      have hFound : Leads (found step) state fun other place => other = some value ∧ place = next :=
        .of_ok (by rw [found, h]) ⟨rfl, rfl⟩
      refine hFound.bind ?_
      rintro other place ⟨rfl, rfl⟩
      exact hYes value _ lt
    | no next le =>
      have hFound : Leads (found step) state fun other place => other = none ∧ place = next :=
        .of_ok (by rw [found, h]) ⟨rfl, rfl⟩
      refine hFound.bind ?_
      rintro other place ⟨rfl, rfl⟩
      exact hNo _ le

theorem inspect_leads (what : ReadState source bound → α) :
    Leads (inspect what) state fun _ next => next.remaining ≤ state.remaining :=
  .of_ok rfl (Nat.le_refl _)

theorem update_leads (change : SourceGrammar → SourceGrammar) :
    Leads (update change) state fun _ next => next.remaining ≤ state.remaining :=
  .of_ok rfl (Nat.le_refl _)

theorem finish_leads (label : Option Ident) (build : Nat → Expr) :
    Leads (finish label build) state fun _ next => next.remaining ≤ state.remaining :=
  .of_ok rfl (Nat.le_refl _)

end Leads

/-! ### Loops that make progress -/

/-- A round leads onward, and further on if another one follows. -/
def Further (state : ReadState source bound) : σ ⊕ ρ → ReadState source bound → Prop
  | .inl _, next => next.remaining < state.remaining
  | .inr _, next => next.remaining ≤ state.remaining

/-- Every round of a loop leads onward, and further on if another one follows. -/
def Progresses (round : σ → Step source bound (σ ⊕ ρ)) : Prop :=
  ∀ value state, Leads (round value) state (Further state)

/-- A loop that makes progress comes to an end. -/
theorem Progresses.leads {round : σ → Step source bound (σ ⊕ ρ)} (h : Progresses round) (value : σ)
    (state : ReadState source bound) {count : Nat} (hCount : state.remaining < count) :
    Leads (rounds cutOff round count value) state fun _ next =>
      next.remaining ≤ state.remaining := by
  -- every round but the last one takes a character of those that are left
  induction count generalizing value state with
  | zero => exact absurd hCount (Nat.not_lt_zero _)
  | succ count ih =>
    rw [rounds]
    refine (h value state).bind fun result next hNext => ?_
    cases result with
    | inl value =>
      have hNext : next.remaining < state.remaining := hNext
      exact (ih value next (by omega)).mono fun _ _ _ => by omega
    | inr result => exact .pure hNext

theorem attributesRound_progresses :
    Progresses (attributesRound : _ → Step source bound (List Attribute ⊕ List Attribute)) := by
  intro attributes state
  refine found_leads (fun _ state₁ h₁ => .pure (Nat.le_of_lt h₁)) fun state₁ h₁ => ?_
  refine (ahead_leads _).bind fun attr state₂ h₂ => ?_
  refine found_leads (fun _ state₃ h₃ => ?_) fun state₃ h₃ => ?_
  · exact .pure (show state₃.remaining < state.remaining by omega)
  · refine (ahead_leads _).bind fun _ state₄ h₄ => ?_
    exact .pure (show state₄.remaining ≤ state.remaining by omega)

theorem tokensRound_progresses :
    Progresses (tokensRound : _ → Step source bound (Unit ⊕ Unit)) := by
  intro _ state
  refine found_leads (fun _ state₁ h₁ => .pure (Nat.le_of_lt h₁)) fun state₁ h₁ => ?_
  refine (ahead_leads _).bind fun token state₂ h₂ => .ite (fun _ => ?_) fun _ => .of_error rfl
  refine (update_leads _).bind fun _ state₃ h₃ => ?_
  refine found_leads (fun _ state₄ h₄ => ?_) fun state₄ h₄ => ?_
  · exact .pure (show state₄.remaining < state.remaining by omega)
  · refine (ahead_leads _).bind fun _ state₅ h₅ => ?_
    exact .pure (show state₅.remaining ≤ state.remaining by omega)

section Elements

variable {limit : Nat} {element : Step source bound Expr} {close : Char}
  (hElement : ∀ state, Leads element state fun _ next => next.remaining < state.remaining)
include hElement

theorem childrenRound_progresses : Progresses (childrenRound element) := by
  intro children state
  refine (onward_leads _).bind fun c state₁ h₁ => ?_
  cases c with
  | none => exact .of_error rfl
  | some c =>
    refine .ite (fun _ => ?_) fun _ => .ite (fun _ => ?_) fun _ =>
      .ite (fun _ => .of_error rfl) fun _ => ?_
    · refine .of_ok rfl (show (state₁.drop 1).remaining ≤ state.remaining from ?_)
      rw [ReadState.remaining_drop]
      omega
    · refine (ahead_leads _).bind fun expr state₂ h₂ => ?_
      exact .pure (show state₂.remaining < state.remaining by omega)
    · refine (hElement state₁).bind fun expr state₂ h₂ => ?_
      exact .pure (show state₂.remaining < state.remaining by omega)

theorem alternativeRound_progresses : Progresses (alternativeRound element close) := by
  intro read state
  obtain ⟨guard, elements⟩ := read
  refine (onward_leads _).bind fun c state₁ h₁ => ?_
  cases c with
  | none => exact .of_error rfl
  | some c =>
    refine .ite (fun _ => .pure h₁) fun _ => .ite (fun _ => ?_) fun _ => ?_
    · refine (ahead_leads _).bind fun block state₂ h₂ => ?_
      obtain ⟨code, isPredicate⟩ := block
      refine .ite (fun _ => ?_) fun _ => ?_
      · exact .pure (show state₂.remaining < state.remaining by omega)
      · refine (finish_leads _ _).bind fun expr state₃ h₃ => ?_
        exact .pure (show state₃.remaining < state.remaining by omega)
    · refine (hElement state₁).bind fun expr state₂ h₂ => ?_
      exact .pure (show state₂.remaining < state.remaining by omega)

theorem alternative_leads (state : ReadState source bound) (hLimit : source.length < limit) :
    Leads (alternative limit element close) state fun _ next =>
      next.remaining ≤ state.remaining := by
  refine (onward_leads _).bind fun _ state₁ h₁ => (inspect_leads _).bind fun span state₂ h₂ => ?_
  have hCount : state₂.remaining < limit := Nat.lt_of_le_of_lt state₂.remaining_le_length hLimit
  refine ((alternativeRound_progresses hElement).leads _ state₂ hCount).bind fun _ state₃ h₃ => ?_
  exact .pure (Nat.le_trans h₃ (Nat.le_trans h₂ h₁))

theorem alternativesRound_progresses (hLimit : source.length < limit) :
    Progresses (alternativesRound limit element close) := by
  intro alternatives state
  refine found_leads (fun _ state₁ h₁ => ?_) fun state₁ h₁ => .pure h₁
  refine (alternative_leads hElement state₁ hLimit).bind fun alternative state₂ h₂ => ?_
  exact .pure (show state₂.remaining < state.remaining by omega)

end Elements

/-- Elements are read, and something is consumed. -/
theorem element_leads {limit : Nat} (hLimit : source.length < limit)
    (state : ReadState source bound) : Leads (element limit) state fun _ next =>
      next.remaining < state.remaining := by
  have hElement : Agrees (element limit) state state.element readAhead :=
    element_agrees limit state (Nat.lt_of_le_of_lt state.remaining_le_length hLimit)
  cases h : state.element with
  | ok result => exact .of_ok (by rw [hElement, h]; rfl) result.lt
  | error failure => exact .of_error (by rw [hElement, h]; rfl)

/-- A step that is cut off unless it starts further on in the text. -/
def beyond (state : ReadState source bound) (x : Step source bound α) : Step source bound α :=
  fun next => if state.span.offset < next.span.offset then x next else cutOff next

/-- The elements inside an element begin further on in the text. -/
theorem elementWith_beyond {limit : Nat} (hLimit : source.length < limit)
    (state : ReadState source bound) :
    elementWith limit (beyond state (element limit)) state =
      elementWith limit (element limit) state := by
  have hAll (next : ReadState source bound) : next.remaining < limit :=
    Nat.lt_of_le_of_lt next.remaining_le_length hLimit
  -- what is cut off would not agree, so only what begins further on has been read
  have hBeyond : ReadsElement (beyond state (element limit)) state.remaining := by
    intro next hNext
    rw [Agrees, beyond, if_pos (ReadState.offset_lt hNext)]
    exact element_agrees limit next (hAll next)
  have hLe := Nat.le_of_lt (hAll state)
  exact (elementWith_agrees hBeyond state (Nat.le_refl _) hLe).trans
    (elementWith_agrees (element_agrees limit) state hLe hLe).symm

/-! ### The whole parser -/

/-- Every round of a loop is carried out, and another one follows only further on in the text. -/
def MovesOn (round : σ → Step source bound (σ ⊕ ρ)) : Prop :=
  ∀ value (state : ReadState source bound), ∃ result next,
    round value state = some (result, next) ∧
      ∀ value', result = .ok (.inl value') → state.span.offset < next.span.offset

theorem Progresses.movesOn {round : σ → Step source bound (σ ⊕ ρ)} (h : Progresses round) :
    MovesOn round := by
  intro value state
  obtain ⟨result, next, hResult, hNext⟩ := h value state
  exact ⟨result, next, hResult, fun value' hValue => ReadState.offset_lt (hNext _ hValue)⟩

/-- The parser is never cut off, every loop and every recursion in it moves on in the text, and
behind a faulty item it goes on at the right place. -/
structure Terminates (limit : Nat) (source : List Char) : Prop where
  parse : parse limit source = some (SourceGrammar.parse source)
  /-- An item is read further on, even behind a faulty one. -/
  items : ∀ bound (state : ReadState source bound) errors, ∃ outcome,
    itemsRound limit (errors, ⟨bound, state⟩) = some outcome ∧
      ∀ errors' bound' (next : ReadState source bound'),
        outcome = .inl (errors', ⟨bound', next⟩) → state.span.offset < next.span.offset
  alternatives : ∀ bound close,
    MovesOn (alternativesRound limit (element limit : Step source bound Expr) close)
  elements : ∀ bound close,
    MovesOn (alternativeRound (element limit : Step source bound Expr) close)
  children : ∀ bound, MovesOn (childrenRound (element limit : Step source bound Expr))
  attributes : ∀ bound,
    MovesOn (attributesRound : _ → Step source bound (List Attribute ⊕ List Attribute))
  tokens : ∀ bound, MovesOn (tokensRound : _ → Step source bound (Unit ⊕ Unit))
  /-- The elements inside an element begin further on. -/
  recursion : ∀ bound (state : ReadState source bound),
    elementWith limit (beyond state (element limit)) state =
      elementWith limit (element limit) state
  /-- Code, white space and what is skipped are read by loops over the bytes of the text. -/
  bytes : ByteScan.Agrees limit source
  code : ∀ stops angle start, ByteScan.Advances source (fun state => state.1.offset)
    (ByteScan.codeRound limit source stops angle start)
  trivia : ByteScan.Advances source ByteScan.Place.offset (ByteScan.triviaRound limit source)
  recovery : ByteScan.Advances source (fun state => state.1.offset)
    (ByteScan.recoveryRound limit source)
  /-- Reading goes on behind the first semicolon outside of literals, comments and blocks. -/
  resumes : ∀ bound (state : ReadState source bound),
    (∃ parts, Division state.reader.before state.rest parts) ∧
      ∀ parts, Division state.reader.before state.rest parts →
        state.GoesOnAt parts (state.recover 0).1

theorem itemsRound_movesOn {limit : Nat} (hLimit : source.length < limit)
    (state : ReadState source bound) (errors : List SyntaxError) : ∃ outcome,
    itemsRound limit (errors, ⟨bound, state⟩) = some outcome ∧
      ∀ errors' bound' (next : ReadState source bound'),
        outcome = .inl (errors', ⟨bound', next⟩) → state.span.offset < next.span.offset := by
  have hState : state.remaining < limit := Nat.lt_of_le_of_lt state.remaining_le_length hLimit
  rcases itemsRound_cases state hState errors with hEnd | ⟨more, bound', next, hNext, hLess, -⟩
  · exact ⟨_, hEnd, by rintro _ _ _ ⟨⟩⟩
  · refine ⟨_, hNext, ?_⟩
    rintro _ _ _ ⟨⟩
    exact ReadState.offset_lt hLess

/-- On every text the parser comes to an end, since everything in it that is repeated moves on. -/
theorem terminates {limit : Nat} (hLimit : source.length < limit) : Terminates limit source where
  parse := parse_eq hLimit
  items _ state errors := itemsRound_movesOn hLimit state errors
  alternatives _ _ := (alternativesRound_progresses (element_leads hLimit) hLimit).movesOn
  elements _ _ := (alternativeRound_progresses (element_leads hLimit)).movesOn
  children _ := (childrenRound_progresses (element_leads hLimit)).movesOn
  attributes _ := attributesRound_progresses.movesOn
  tokens _ := tokensRound_progresses.movesOn
  recursion _ state := elementWith_beyond hLimit state
  bytes := ByteScan.agrees hLimit
  code stops angle start := ByteScan.codeRound_advances stops angle start hLimit
  trivia := ByteScan.triviaRound_advances hLimit
  recovery := ByteScan.recoveryRound_advances hLimit
  resumes _ state := ⟨exists_division _ _, fun _ h => state.resumes h⟩

/-- A rule in which a node match is left open, and another rule behind it. -/
theorem terminates_unclosed : Terminates 16 "a: #(B c; b: .;".toList :=
  terminates (by decide)

end LoopParser

end TreeGrammar
