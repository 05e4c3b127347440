import Mathlib.Data.List.Forall2
import TreeGrammar.Walk.Session

/-!
# Values of attributes in frames

A chain of frames changes by single operations: a frame is pushed or dropped, an attribute is read
or written. What an attribute is worth in a frame can be said without the chain, by the operations
that have taken place: it is the value that was written last, or else the one with which the frame
was pushed. The chain agrees with this after any operations, so that a frame is not changed by what
happens to the frames that are pushed onto it.

Histories list operations with the latest one first, so that a history and what has happened before
are taken apart by the recursion over it.

## Main definitions

* `Projections`: how the attributes of scopes are read and written
* `Frame.Operation`, `Frame.perform`, `Frame.after`: operations and what they do
* `Frame.live`: the frames that have been pushed and not dropped
* `Frame.LastValue`: the value that an attribute of a frame has been given last
* `Frame.IsChainAfter`: a chain agrees with a history

## Main results

* `Frame.isChainAfter`: the chain after any operations
* `Session.frame_foldl_run`: the frames of sessions are such chains
-/

namespace TreeGrammar

/-- How the attributes of scopes are read and written. An attribute has a name, and a scope holds it
or does not. Different names belong to different places in a scope. -/
structure Projections (σ : Type) (τ : String → Type) where
  project (name : String) : σ → Option (τ name)
  assign (name : String) (value : τ name) : σ → Option σ
  /-- What can be read can be written. -/
  isSome_assign : ∀ (name : String) (value : τ name) (scope : σ),
    (assign name value scope).isSome = (project name scope).isSome
  project_of_assign : ∀ (name : String) (value : τ name) (scope written : σ),
    assign name value scope = some written → project name written = some value
  /-- Writing changes no other attribute. -/
  project_of_assign_of_ne : ∀ (name : String) (value : τ name) (scope written : σ),
    assign name value scope = some written →
      ∀ other, other ≠ name → project other written = project other scope

theorem Projections.assign_eq_none_iff {σ : Type} {τ : String → Type}
    (projections : Projections σ τ) {name : String} {value : τ name} {scope : σ} :
    projections.assign name value scope = none ↔ projections.project name scope = none := by
  rw [← Option.not_isSome_iff_eq_none, projections.isSome_assign, Option.not_isSome_iff_eq_none]

namespace Frame

variable {σ : Type} {τ : String → Type}

/-- The chain seen from each of its frames, from the innermost one to the bottom. -/
def ancestors : Frame σ → List (Frame σ)
  | root scope => [root scope]
  | push scope caller => push scope caller :: caller.ancestors

/-- The value of an attribute in the frame at the given depth. -/
def binding? (projections : Projections σ τ) (frame : Frame σ) (depth : Nat) (name : String) :
    Option (τ name) :=
  (frame.ancestors.find? fun ancestor => ancestor.depth = depth).bind fun ancestor =>
    projections.project name ancestor.scope

/-- What is done with a chain of frames. -/
inductive Operation (σ : Type) (τ : String → Type) where
  | push (scope : σ)
  /-- Drop the innermost frame, unless it is the bottom. -/
  | drop
  | read (name : String)
  | write (name : String) (value : τ name)

/-- What an operation yields if it succeeds. -/
def Operation.Result : Operation σ τ → Type
  | read name => τ name
  | _ => Unit

/-- The effect of an operation on a chain, and what it yields. -/
def perform (projections : Projections σ τ) (frame : Frame σ) :
    (operation : Operation σ τ) → Except Failure operation.Result × Frame σ
  | .push scope => (.ok (), push scope frame)
  | .drop => (.ok (), frame.parent?.getD frame)
  | .read name =>
    match frame.attribute? (projections.project name) with
    | some value => (.ok value, frame)
    | none => (.error (.unboundAttribute name), frame)
  | .write name value =>
    match frame.update? (projections.assign name value) with
    | some written => (.ok (), written)
    | none => (.error (.unboundAttribute name), frame)

/-- The chain after a history that starts with a single frame. -/
def after (projections : Projections σ τ) (scope : σ) : List (Operation σ τ) → Frame σ
  | [] => root scope
  | operation :: past => ((after projections scope past).perform projections operation).2

/-! ### What has happened -/

/-- A frame as it has been made. -/
structure Made (σ : Type) where
  /-- The number of operations up to the one that has pushed the frame. -/
  number : Nat
  scope : σ

/-- The frames that have been pushed and not dropped, the innermost one first. -/
def pushed : List (Operation σ τ) → List (Made σ)
  | [] => []
  | .push scope :: past => ⟨past.length + 1, scope⟩ :: pushed past
  | .drop :: past => (pushed past).tail
  | .read _ :: past => pushed past
  | .write _ _ :: past => pushed past

/-- The frames that are live: those that have been pushed and not dropped, and the bottom. -/
def live (bottom : σ) (past : List (Operation σ τ)) : List (Made σ) :=
  pushed past ++ [⟨0, bottom⟩]

/-- The innermost live frame that holds an attribute. -/
def holder? (projections : Projections σ τ) (bottom : σ) (past : List (Operation σ τ))
    (name : String) : Option (Made σ) :=
  (live bottom past).find? fun made => (projections.project name made.scope).isSome

/-- The operation that comes after `past` writes the attribute of the frame with this number. -/
def Operation.Writes (projections : Projections σ τ) (bottom : σ) (past : List (Operation σ τ))
    (number : Nat) (name : String) (operation : Operation σ τ) : Prop :=
  ∃ value made, operation = .write name value ∧
    holder? projections bottom past name = some made ∧ made.number = number

/-- The value that an attribute of a frame has been given last. -/
inductive LastValue (projections : Projections σ τ) (bottom : σ) :
    List (Operation σ τ) → Nat → (name : String) → τ name → Prop where
  | bottom {name : String} {value : τ name} (h : projections.project name bottom = some value) :
      LastValue projections bottom [] 0 name value
  | pushed {past : List (Operation σ τ)} {scope : σ} {name : String} {value : τ name}
      (h : projections.project name scope = some value) :
      LastValue projections bottom (.push scope :: past) (past.length + 1) name value
  | written {past : List (Operation σ τ)} {made : Made σ} {name : String} {value : τ name}
      (h : holder? projections bottom past name = some made) :
      LastValue projections bottom (.write name value :: past) made.number name value
  | kept {past : List (Operation σ τ)} {operation : Operation σ τ} {number : Nat} {name : String}
      {value : τ name} (hKept : ¬ operation.Writes projections bottom past number name)
      (h : LastValue projections bottom past number name value) :
      LastValue projections bottom (operation :: past) number name value

/-- A chain agrees with a history that has started at a frame with the scope `bottom`. -/
structure IsChainAfter (projections : Projections σ τ) (bottom : σ) (past : List (Operation σ τ))
    (frame : Frame σ) : Prop where
  /-- The depth is the number of frames that have been pushed and not dropped. -/
  depth : frame.depth = (pushed past).length
  /-- The ancestors are as many as the live frames, from the current one to the bottom. -/
  ancestors : frame.ancestors.map Frame.depth = (List.range (live bottom past).length).reverse
  /-- The attributes of each live frame have the values that they have been given last. -/
  bindings : ∀ (depth : Nat) (made : Made σ), (live bottom past).reverse[depth]? = some made →
    ∀ (name : String) (value : τ name), frame.binding? projections depth name = some value ↔
      LastValue projections bottom past made.number name value
  /-- What is read is the value in the innermost live frame that holds the attribute. -/
  read : ∀ (name : String) (value : τ name),
    frame.perform projections (.read name) = (.ok value, frame) ↔
      ∃ made, holder? projections bottom past name = some made ∧
        LastValue projections bottom past made.number name value
  /-- Writing changes the attribute in the innermost live frame that holds it, and nothing else. -/
  write : ∀ (name : String) (value : τ name) (depth : Nat) (made : Made σ),
    holder? projections bottom past name = some made →
    (live bottom past).reverse[depth]? = some made →
      ∃ written, frame.perform projections (.write name value) = (.ok (), written) ∧
        written.binding? projections depth name = some value ∧
        ∀ (place : Nat) (other : String), place ≠ depth ∨ other ≠ name →
          written.binding? projections place other = frame.binding? projections place other
  /-- As long as a frame is live, its attributes are changed by nothing but being written. -/
  outer : ∀ (later : List (Operation σ τ)) (depth : Nat) (made : Made σ),
    (live bottom past).reverse[depth]? = some made →
    (live bottom (later ++ past)).reverse[depth]? = some made → ∀ name,
      (∀ newer operation older, later = newer ++ operation :: older →
        ¬ operation.Writes projections bottom (older ++ past) made.number name) →
      (after projections bottom (later ++ past)).binding? projections depth name =
        frame.binding? projections depth name
  /-- Reading and writing fail where no live frame holds the attribute, and change nothing. -/
  unbound : ∀ (operation : Operation σ τ) (failure : Failure) (next : Frame σ),
    frame.perform projections operation = (.error failure, next) ↔
      next = frame ∧ ∃ name, failure = .unboundAttribute name ∧
        (operation = .read name ∨ ∃ value, operation = .write name value) ∧
        ∀ made ∈ live bottom past, projections.project name made.scope = none

/-! ### Chains -/

section Chain

variable {projections : Projections σ τ} {frame written : Frame σ} {name : String} {depth : Nat}

@[simp] theorem length_scopes (frame : Frame σ) : frame.scopes.length = frame.depth + 1 := by
  induction frame with
  | root => rfl
  | push scope caller ih => simp [scopes, Frame.depth, ih]

/-- The scopes of a chain, which sessions list, are those of the ancestors. -/
theorem map_scope_ancestors (frame : Frame σ) : frame.ancestors.map Frame.scope = frame.scopes := by
  induction frame with
  | root => rfl
  | push scope caller ih => exact congrArg (scope :: ·) ih

theorem map_depth_ancestors (frame : Frame σ) :
    frame.ancestors.map Frame.depth = (List.range (frame.depth + 1)).reverse := by
  induction frame with
  | root => rfl
  | push scope caller ih =>
    rw [List.range_succ, List.reverse_append]
    exact congrArg ((caller.depth + 1) :: ·) ih

/-- The value of an attribute is looked up in the scopes, from the bottom on. -/
theorem binding?_eq (frame : Frame σ) (depth : Nat) (name : String) :
    frame.binding? projections depth name =
      frame.scopes.reverse[depth]?.bind (projections.project name) := by
  rw [binding?]
  induction frame with
  | root scope => cases depth <;> simp [ancestors, scopes, Frame.depth, Frame.scope]
  | push scope caller ih =>
    have hLength : caller.scopes.reverse.length = caller.depth + 1 := by simp
    rw [ancestors, List.find?_cons, scopes, List.reverse_cons, List.getElem?_append, hLength]
    -- the frame is one of the caller's, the innermost one, or missing
    rcases Nat.lt_trichotomy depth (caller.depth + 1) with hLess | rfl | hGreater
    · rw [if_pos hLess, ← ih, decide_eq_false (by simp [Frame.depth]; omega)]
    · simp [Frame.depth, Frame.scope]
    · have hOutside : depth - (caller.depth + 1) ≠ 0 := by omega
      rw [decide_eq_false (by simp [Frame.depth]; omega), ih,
        List.getElem?_eq_none (by omega), if_neg (by omega), List.getElem?_eq_none (by simp; omega)]

/-- An assignment changes the first scope on which it succeeds. -/
theorem update?_eq_some {assign : σ → Option σ} (h : frame.update? assign = some written) :
    ∃ inner scope next outer, frame.scopes = inner ++ scope :: outer ∧
      (∀ passed ∈ inner, assign passed = none) ∧ assign scope = some next ∧
      written.scopes = inner ++ next :: outer := by
  induction frame generalizing written with
  | root scope =>
    obtain ⟨next, hAssign, rfl⟩ := Option.map_eq_some_iff.1 h
    exact ⟨[], scope, next, [], rfl, by simp, hAssign, rfl⟩
  | push scope caller ih =>
    rw [update?] at h
    split at h
    · next next hAssign =>
      obtain rfl := Option.some.inj h
      exact ⟨[], scope, next, caller.scopes, rfl, by simp, hAssign, rfl⟩
    · next hAssign =>
      obtain ⟨changed, hChanged, rfl⟩ := Option.map_eq_some_iff.1 h
      obtain ⟨inner, found, next, outer, hScopes, hInner, hFound, hNext⟩ := ih hChanged
      exact ⟨scope :: inner, found, next, outer, congrArg (scope :: ·) hScopes,
        List.forall_mem_cons.2 ⟨hAssign, hInner⟩, hFound, congrArg (scope :: ·) hNext⟩

theorem update?_eq_none_iff {assign : σ → Option σ} :
    frame.update? assign = none ↔ ∀ scope ∈ frame.scopes, assign scope = none := by
  induction frame with
  | root scope => simp [update?, scopes]
  | push scope caller ih =>
    rw [update?, scopes, List.forall_mem_cons]
    cases hAssign : assign scope with
    | none => simp [ih]
    | some next => simp

theorem perform_read_eq_ok_iff {value : τ name} :
    frame.perform projections (.read name) = (.ok value, frame) ↔
      frame.attribute? (projections.project name) = some value := by
  rw [perform]
  cases frame.attribute? (projections.project name) with
  | none => exact ⟨by rintro ⟨⟩, by rintro ⟨⟩⟩
  | some found =>
    constructor
    · intro h
      cases h
      rfl
    · rintro ⟨⟩
      rfl

/-- Operations fail where they look for an attribute that no scope of the chain holds. -/
theorem perform_eq_error_iff {next : Frame σ} {operation : Operation σ τ}
    {failure : Failure} :
    frame.perform projections operation = (.error failure, next) ↔
      next = frame ∧ ∃ name, failure = .unboundAttribute name ∧
        (operation = .read name ∨ ∃ value, operation = .write name value) ∧
        ∀ scope ∈ frame.scopes, projections.project name scope = none := by
  constructor
  · intro h
    cases operation with
    | push | drop => cases h
    | read name =>
      rw [perform] at h
      split at h
      · cases h
      · next hNone =>
        cases h
        exact ⟨rfl, name, rfl, .inl rfl, List.findSome?_eq_none_iff.1 hNone⟩
    | write name value =>
      rw [perform] at h
      split at h
      · cases h
      · next hNone =>
        cases h
        exact ⟨rfl, name, rfl, .inr ⟨value, rfl⟩, fun scope hScope =>
          projections.assign_eq_none_iff.1 (update?_eq_none_iff.1 hNone scope hScope)⟩
  · rintro ⟨rfl, name, rfl, rfl | ⟨value, rfl⟩, hNone⟩
    · rw [perform, attribute?, List.findSome?_eq_none_iff.2 hNone]
    · rw [perform, update?_eq_none_iff.2 fun scope hScope =>
        projections.assign_eq_none_iff.2 (hNone scope hScope)]

end Chain

/-! ### Histories -/

section History

variable {projections : Projections σ τ} {bottom : σ} {past : List (Operation σ τ)} {name : String}
  {number : Nat} {made : Made σ}

/-- A frame has the number of the operation that has pushed it, counted from one. -/
theorem number_of_mem_pushed (h : made ∈ pushed past) :
    0 < made.number ∧ made.number ≤ past.length := by
  induction past generalizing made with
  | nil => cases h
  | cons operation past ih =>
    have hLater {made : Made σ} (h : made ∈ pushed past) :
        0 < made.number ∧ made.number ≤ past.length + 1 :=
      (ih h).imp_right Nat.le_succ_of_le
    cases operation with
    | push scope =>
      rcases List.mem_cons.1 h with rfl | h
      · exact ⟨Nat.succ_pos _, Nat.le_refl _⟩
      · exact hLater h
    | drop => exact hLater (List.mem_of_mem_tail h)
    | read => exact hLater h
    | write => exact hLater h

theorem number_le_of_mem_live (h : made ∈ live bottom past) : made.number ≤ past.length := by
  rcases List.mem_append.1 h with h | h
  · exact (number_of_mem_pushed h).2
  · obtain rfl := List.mem_singleton.1 h
    exact Nat.zero_le _

theorem pairwise_pushed (past : List (Operation σ τ)) : (pushed past).Pairwise fun inner outer =>
    outer.number < inner.number := by
  induction past with
  | nil => exact .nil
  | cons operation past ih =>
    cases operation with
    | push scope =>
      exact .cons (fun made hMade => Nat.lt_succ_of_le (number_of_mem_pushed hMade).2) ih
    | drop => exact ih.sublist (List.tail_sublist _)
    | read => exact ih
    | write => exact ih

/-- Frames that have been pushed later have greater numbers. -/
theorem pairwise_live (bottom : σ) (past : List (Operation σ τ)) :
    (live bottom past).Pairwise fun inner outer => outer.number < inner.number := by
  rw [live, List.pairwise_append]
  refine ⟨pairwise_pushed past, List.pairwise_singleton _ _, fun inner hInner outer hOuter => ?_⟩
  obtain rfl := List.mem_singleton.1 hOuter
  exact (number_of_mem_pushed hInner).1

/-- No two live frames have the same number. -/
theorem number_injOn_live {first second : Nat} {a b : Made σ}
    (hFirst : (live bottom past).reverse[first]? = some a)
    (hSecond : (live bottom past).reverse[second]? = some b) (h : a.number = b.number) :
    first = second := by
  have hNodup : ((live bottom past).reverse.map Made.number).Nodup := by
    rw [List.map_reverse, List.Nodup, List.pairwise_reverse, List.pairwise_map]
    exact (pairwise_live bottom past).imp Nat.ne_of_lt
  obtain ⟨hLess, -⟩ := List.getElem?_eq_some_iff.1 hFirst
  refine (List.getElem?_inj (by rwa [List.length_map]) hNodup).1 ?_
  rw [List.getElem?_map, List.getElem?_map, hFirst, hSecond, Option.map_some, Option.map_some, h]

/-- A value has been given by some operation. -/
theorem LastValue.number_le {value : τ name}
    (h : LastValue projections bottom past number name value) : number ≤ past.length := by
  induction h with
  | bottom => exact Nat.le_refl _
  | pushed => exact Nat.le_refl _
  | written h => exact Nat.le_succ_of_le (number_le_of_mem_live (List.mem_of_find?_eq_some h))
  | kept _ _ ih => exact Nat.le_succ_of_le ih

/-- An operation that does not write to a frame which is there leaves its values. -/
theorem lastValue_cons_iff {operation : Operation σ τ} {value : τ name}
    (hNumber : number ≤ past.length)
    (hKept : ¬ operation.Writes projections bottom past number name) :
    LastValue projections bottom (operation :: past) number name value ↔
      LastValue projections bottom past number name value := by
  refine ⟨fun h => ?_, .kept hKept⟩
  cases h with
  | pushed => exact absurd hNumber (Nat.not_succ_le_self _)
  | written hHolder => exact absurd ⟨value, _, rfl, hHolder, rfl⟩ hKept
  | kept _ h => exact h

theorem lastValue_append_iff {later : List (Operation σ τ)} {value : τ name}
    (hNumber : number ≤ past.length)
    (hKept : ∀ newer operation older, later = newer ++ operation :: older →
      ¬ operation.Writes projections bottom (older ++ past) number name) :
    LastValue projections bottom (later ++ past) number name value ↔
      LastValue projections bottom past number name value := by
  induction later with
  | nil => rfl
  | cons operation later ih =>
    have hLonger : number ≤ (later ++ past).length := by
      rw [List.length_append]
      exact Nat.le_add_left_of_le hNumber
    rw [List.cons_append, lastValue_cons_iff hLonger (hKept [] operation later rfl)]
    exact ih fun newer other older h => hKept (operation :: newer) other older (h ▸ rfl)

/-- The values of a frame that has just been pushed are those of its scope. -/
theorem lastValue_push_iff {scope : σ} {value : τ name} :
    LastValue projections bottom (.push scope :: past) (past.length + 1) name value ↔
      projections.project name scope = some value := by
  refine ⟨fun h => ?_, .pushed⟩
  cases h with
  | pushed h => exact h
  | kept _ h => exact absurd h.number_le (Nat.not_succ_le_self _)

/-- The value that has just been written is the last one. -/
theorem lastValue_write_iff {value other : τ name}
    (h : holder? projections bottom past name = some made) :
    LastValue projections bottom (.write name value :: past) made.number name other ↔
      value = other := by
  constructor
  · intro hLast
    generalize hNumber : made.number = number at hLast
    cases hLast with
    | written => rfl
    | kept hKept => exact absurd ⟨value, made, rfl, h, hNumber⟩ hKept
  · rintro rfl
    exact .written h

end History

/-! ### A chain with its history -/

theorem exists_of_forall₂_append {α β : Type} {R : α → β → Prop} {front back : List α} {l : List β}
    (h : List.Forall₂ R (front ++ back) l) : ∃ front' back', l = front' ++ back' ∧
      List.Forall₂ R front front' ∧ List.Forall₂ R back back' := by
  have hFlip : List.Forall₂ (flip R) l (front ++ back) := h.flip
  exact ⟨l.take front.length, l.drop front.length, (List.take_append_drop _ _).symm,
    (List.forall₂_take_append l front back hFlip).flip,
    (List.forall₂_drop_append l front back hFlip).flip⟩

/-- A scope holds what the frame has been made with, and its values are the last ones. -/
structure Agrees (projections : Projections σ τ) (bottom : σ) (past : List (Operation σ τ))
    (scope : σ) (made : Made σ) : Prop where
  holds : ∀ name,
    (projections.project name scope).isSome = (projections.project name made.scope).isSome
  last : ∀ (name : String) (value : τ name), projections.project name scope = some value ↔
    LastValue projections bottom past made.number name value

/-- The scopes of a chain agree with the live frames. -/
def Tracks (projections : Projections σ τ) (bottom : σ) (past : List (Operation σ τ))
    (frame : Frame σ) : Prop :=
  List.Forall₂ (Agrees projections bottom past) frame.scopes (live bottom past)

section Tracks

variable {projections : Projections σ τ} {bottom : σ} {past : List (Operation σ τ)}
  {frame : Frame σ} {scope : σ} {made : Made σ}

theorem Agrees.kept {operation : Operation σ τ} (h : Agrees projections bottom past scope made)
    (hNumber : made.number ≤ past.length)
    (hKept : ∀ name, ¬ operation.Writes projections bottom past made.number name) :
    Agrees projections bottom (operation :: past) scope made where
  holds := h.holds
  last name value := (h.last name value).trans (lastValue_cons_iff hNumber (hKept name)).symm

theorem forall₂_agrees_cons {operation : Operation σ τ} {scopes : List σ} {frames : List (Made σ)}
    (h : List.Forall₂ (Agrees projections bottom past) scopes frames)
    (hFrames : ∀ made ∈ frames, made.number ≤ past.length ∧
      ∀ name, ¬ operation.Writes projections bottom past made.number name) :
    List.Forall₂ (Agrees projections bottom (operation :: past)) scopes frames := by
  induction h with
  | nil => exact .nil
  | cons hAgrees _ ih =>
    obtain ⟨⟨hNumber, hKept⟩, hFrames⟩ := List.forall_mem_cons.1 hFrames
    exact .cons (hAgrees.kept hNumber hKept) (ih hFrames)

/-- What no scope holds, no frame has been made with. -/
theorem forall₂_agrees_project_eq_none {scopes : List σ} {frames : List (Made σ)}
    (h : List.Forall₂ (Agrees projections bottom past) scopes frames) (name : String) :
    (∀ scope ∈ scopes, projections.project name scope = none) ↔
      ∀ made ∈ frames, projections.project name made.scope = none := by
  induction h with
  | nil => simp
  | cons hAgrees _ ih =>
    rw [List.forall_mem_cons, List.forall_mem_cons, ih, ← Option.not_isSome_iff_eq_none,
      ← Option.not_isSome_iff_eq_none, hAgrees.holds]

/-- The frame of the first scope that holds an attribute is the innermost live one that does. -/
theorem Tracks.exists_holder (h : Tracks projections bottom past frame) {name : String}
    {inner outer : List σ} (hScopes : frame.scopes = inner ++ scope :: outer)
    (hInner : ∀ passed ∈ inner, projections.project name passed = none)
    (hScope : (projections.project name scope).isSome) :
    ∃ innerFrames made outerFrames, live bottom past = innerFrames ++ made :: outerFrames ∧
      holder? projections bottom past name = some made ∧
      List.Forall₂ (Agrees projections bottom past) inner innerFrames ∧
      Agrees projections bottom past scope made ∧
      List.Forall₂ (Agrees projections bottom past) outer outerFrames := by
  rw [Tracks, hScopes] at h
  obtain ⟨innerFrames, frames, hLive, hInnerFrames, hFrames⟩ := exists_of_forall₂_append h
  cases hFrames with
  | @cons _ made _ outerFrames hMade hOuterFrames =>
    refine ⟨innerFrames, made, outerFrames, hLive, ?_, hInnerFrames, hMade, hOuterFrames⟩
    rw [holder?, List.find?_eq_some_iff_append]
    refine ⟨(hMade.holds name).symm.trans hScope, innerFrames, outerFrames, hLive,
      fun passed hPassed => ?_⟩
    rw [(forall₂_agrees_project_eq_none hInnerFrames name).1 hInner passed hPassed]
    rfl

theorem Tracks.holder?_eq_none_iff (h : Tracks projections bottom past frame) {name : String} :
    holder? projections bottom past name = none ↔
      ∀ scope ∈ frame.scopes, projections.project name scope = none := by
  rw [holder?, List.find?_eq_none, forall₂_agrees_project_eq_none h]
  simp only [Option.not_isSome_iff_eq_none]

theorem tracks_nil (projections : Projections σ τ) (bottom : σ) :
    Tracks projections bottom [] (root bottom) := by
  refine .cons ⟨fun _ => rfl, fun name value => ⟨.bottom, fun h => ?_⟩⟩ .nil
  cases h with
  | bottom h => exact h

/-- An operation that writes nothing leaves the scopes of the chain. -/
theorem Tracks.kept {operation : Operation σ τ} (h : Tracks projections bottom past frame)
    (hKept : ∀ number name, ¬ operation.Writes projections bottom past number name) :
    List.Forall₂ (Agrees projections bottom (operation :: past)) frame.scopes
      (live bottom past) :=
  forall₂_agrees_cons h fun made hMade => ⟨number_le_of_mem_live hMade, hKept made.number⟩

theorem Tracks.push (h : Tracks projections bottom past frame) (scope : σ) :
    Tracks projections bottom (.push scope :: past) (.push scope frame) := by
  refine .cons ⟨fun _ => rfl, fun _ _ => lastValue_push_iff.symm⟩ (h.kept ?_)
  rintro number name ⟨value, made, hWrite, -⟩
  cases hWrite

theorem Tracks.drop (h : Tracks projections bottom past frame) :
    Tracks projections bottom (.drop :: past) (frame.parent?.getD frame) := by
  have hKept : List.Forall₂ (Agrees projections bottom (.drop :: past)) frame.scopes
      (live bottom past) := by
    refine h.kept ?_
    rintro number name ⟨value, made, hWrite, -⟩
    cases hWrite
  -- the chain has a single frame exactly if no pushed one is live, and then nothing is dropped
  have hLength := hKept.length_eq
  rw [Tracks, live, pushed]
  rw [live] at hKept hLength
  cases frame with
  | root scope =>
    cases hPushed : pushed past with
    | nil => rwa [hPushed] at hKept
    | cons made frames => simp [hPushed, scopes] at hLength
  | push scope caller =>
    cases hPushed : pushed past with
    | nil => simp [hPushed, Frame.depth] at hLength
    | cons made frames =>
      rw [hPushed] at hKept
      cases hKept with
      | cons _ hOuter => exact hOuter

/-- The scope that has been written agrees with the value that has been written. -/
theorem Agrees.write {name : String} {value : τ name} {next : σ}
    (h : Agrees projections bottom past scope made)
    (hHolder : holder? projections bottom past name = some made)
    (hNext : projections.assign name value scope = some next) :
    Agrees projections bottom (.write name value :: past) next made := by
  have hNumber := number_le_of_mem_live (List.mem_of_find?_eq_some hHolder)
  refine ⟨fun other => ?holds, fun other otherValue => ?last⟩
  case holds =>
    rw [← h.holds]
    by_cases hName : other = name
    · subst hName
      rw [projections.project_of_assign _ _ _ _ hNext, ← projections.isSome_assign _ value, hNext]
      rfl
    · rw [projections.project_of_assign_of_ne _ _ _ _ hNext other hName]
  case last =>
    by_cases hName : other = name
    · subst hName
      rw [projections.project_of_assign _ _ _ _ hNext, lastValue_write_iff hHolder,
        Option.some_inj]
    · rw [projections.project_of_assign_of_ne _ _ _ _ hNext other hName, h.last,
        lastValue_cons_iff hNumber]
      rintro ⟨written, holder, hWrite, -⟩
      cases hWrite
      exact hName rfl

theorem Tracks.write (h : Tracks projections bottom past frame) {name : String} {value : τ name}
    {written : Frame σ} (hWritten : frame.update? (projections.assign name value) = some written) :
    Tracks projections bottom (.write name value :: past) written := by
  obtain ⟨inner, scope, next, outer, hScopes, hInner, hNext, hAfter⟩ := update?_eq_some hWritten
  obtain ⟨innerFrames, made, outerFrames, hLive, hHolder, hInnerFrames, hMade, hOuterFrames⟩ :=
    h.exists_holder hScopes (fun passed hPassed => projections.assign_eq_none_iff.1
      (hInner passed hPassed)) (projections.isSome_assign name value scope ▸ hNext ▸ rfl)
  -- the other frames have other numbers
  have hKept : ∀ other ∈ live bottom past, other.number ≠ made.number →
      other.number ≤ past.length ∧ ∀ otherName, ¬ (Operation.write name value).Writes projections
        bottom past other.number otherName := by
    refine fun other hOther hNe => ⟨number_le_of_mem_live hOther, ?_⟩
    rintro otherName ⟨otherValue, holder, hWrite, hFound, hNumber⟩
    cases hWrite
    obtain rfl := Option.some.inj (hHolder.symm.trans hFound)
    exact hNe hNumber.symm
  have hNumbers := pairwise_live bottom past
  rw [hLive, List.pairwise_append, List.pairwise_cons] at hNumbers
  obtain ⟨-, ⟨hOuter, -⟩, hInnerOuter⟩ := hNumbers
  have hInnerFrames := forall₂_agrees_cons hInnerFrames fun other hOther =>
    hKept other (by simp [hLive, hOther])
      (Nat.ne_of_gt (hInnerOuter other hOther made List.mem_cons_self))
  have hOuterFrames := forall₂_agrees_cons hOuterFrames fun other hOther =>
    hKept other (by simp [hLive, hOther]) (Nat.ne_of_lt (hOuter other hOther))
  have hBoth : List.Forall₂ (Agrees projections bottom (.write name value :: past))
      (inner ++ next :: outer) (innerFrames ++ made :: outerFrames) :=
    List.rel_append hInnerFrames (.cons (hMade.write hHolder hNext) hOuterFrames)
  rwa [← hAfter, ← hLive] at hBoth

theorem Tracks.perform (h : Tracks projections bottom past frame) (operation : Operation σ τ) :
    Tracks projections bottom (operation :: past) (frame.perform projections operation).2 := by
  cases operation with
  | push scope => exact h.push scope
  | drop => exact h.drop
  | read name =>
    have hFrame : (frame.perform projections (.read name)).2 = frame := by
      rw [Frame.perform]
      split <;> rfl
    rw [hFrame]
    refine h.kept ?_
    rintro number other ⟨value, made, hWrite, -⟩
    cases hWrite
  | write name value =>
    rw [Frame.perform]
    split
    · next written hWritten => exact h.write hWritten
    · next hNone =>
      -- nothing is written, since no live frame holds the attribute
      refine h.kept ?_
      rintro number other ⟨otherValue, made, hWrite, hHolder, -⟩
      cases hWrite
      rw [h.holder?_eq_none_iff.2 fun scope hScope => projections.assign_eq_none_iff.1
        (update?_eq_none_iff.1 hNone scope hScope)] at hHolder
      cases hHolder

/-- After any operations, the scopes of the chain agree with the live frames. -/
theorem tracks_after (projections : Projections σ τ) (bottom : σ) (past : List (Operation σ τ)) :
    Tracks projections bottom past (after projections bottom past) := by
  induction past with
  | nil => exact tracks_nil projections bottom
  | cons operation past ih => exact ih.perform operation

variable {depth : Nat} {name : String} {value : τ name}

/-- The binding of an attribute in a live frame is the last value. -/
theorem Tracks.binding?_eq_some_iff (h : Tracks projections bottom past frame)
    (hMade : (live bottom past).reverse[depth]? = some made) :
    frame.binding? projections depth name = some value ↔
      LastValue projections bottom past made.number name value := by
  have hReverse := List.forall₂_reverse_iff.2 h
  obtain ⟨hFrames, rfl⟩ := List.getElem?_eq_some_iff.1 hMade
  have hScopes := hReverse.length_eq.symm ▸ hFrames
  rw [binding?_eq, List.getElem?_eq_getElem hScopes]
  exact (hReverse.get hScopes hFrames).last name value

theorem Tracks.binding?_eq_none (h : Tracks projections bottom past frame)
    (hNone : (live bottom past).reverse[depth]? = none) :
    frame.binding? projections depth name = none := by
  have hLength : frame.scopes.reverse[depth]? = none := by
    rw [List.getElem?_eq_none_iff, List.length_reverse] at hNone ⊢
    rwa [h.length_eq]
  rw [binding?_eq, hLength, Option.bind_none]

/-- The value that is read in the holder of an attribute. -/
theorem Tracks.attribute?_eq_some_iff (h : Tracks projections bottom past frame)
    (hHolder : holder? projections bottom past name = some made) :
    frame.attribute? (projections.project name) = some value ↔
      LastValue projections bottom past made.number name value := by
  cases hFound : frame.attribute? (projections.project name) with
  | none =>
    rw [h.holder?_eq_none_iff.2 (List.findSome?_eq_none_iff.1 hFound)] at hHolder
    cases hHolder
  | some found =>
    obtain ⟨inner, scope, outer, hScopes, hScope, hInner⟩ := List.findSome?_eq_some_iff.1 hFound
    obtain ⟨-, holder, -, -, hSame, -, hAgrees, -⟩ :=
      h.exists_holder hScopes hInner (hScope ▸ rfl)
    obtain rfl := Option.some.inj (hHolder.symm.trans hSame)
    rw [← hAgrees.last, hScope]

/-- An attribute that is held can be written. -/
theorem Tracks.exists_write (h : Tracks projections bottom past frame)
    (hHolder : holder? projections bottom past name = some made) (value : τ name) :
    ∃ written, frame.update? (projections.assign name value) = some written ∧
      Tracks projections bottom (.write name value :: past) written := by
  cases hWritten : frame.update? (projections.assign name value) with
  | none =>
    rw [h.holder?_eq_none_iff.2 fun scope hScope => projections.assign_eq_none_iff.1
      (update?_eq_none_iff.1 hWritten scope hScope)] at hHolder
    cases hHolder
  | some written => exact ⟨written, rfl, h.write hWritten⟩

/-- What is written in one place changes nothing in another one. -/
theorem Tracks.binding?_write {written : Frame σ} (h : Tracks projections bottom past frame)
    (hAfter : Tracks projections bottom (.write name value :: past) written)
    (hHolder : holder? projections bottom past name = some made)
    (hMade : (live bottom past).reverse[depth]? = some made) {place : Nat} {other : String}
    (hOther : place ≠ depth ∨ other ≠ name) :
    written.binding? projections place other = frame.binding? projections place other := by
  -- writing leaves the live frames, so that a place has the same frame before and after
  cases hPlace : (live bottom past).reverse[place]? with
  | none => rw [hAfter.binding?_eq_none hPlace, h.binding?_eq_none hPlace]
  | some there =>
    refine Option.ext fun otherValue => ?_
    rw [hAfter.binding?_eq_some_iff hPlace, h.binding?_eq_some_iff hPlace]
    refine lastValue_cons_iff
      (number_le_of_mem_live (List.mem_reverse.1 (List.mem_of_getElem? hPlace))) ?_
    rintro ⟨writtenValue, holder, hWrite, hFound, hNumber⟩
    cases hWrite
    obtain rfl := Option.some.inj (hHolder.symm.trans hFound)
    have hSame := number_injOn_live hPlace hMade hNumber.symm
    exact hOther.elim (absurd hSame) (absurd rfl)

end Tracks

/-- Whatever has been done with a chain of frames, its frames are those that are live, with the
values that they have been given last. -/
theorem isChainAfter (projections : Projections σ τ) (bottom : σ) (past : List (Operation σ τ)) :
    IsChainAfter projections bottom past (after projections bottom past) := by
  -- all parts are read off the agreement of the scopes with the live frames
  have hTracks := tracks_after projections bottom past
  generalize hFrame : after projections bottom past = frame at hTracks
  have hDepth : frame.depth = (pushed past).length := by
    have hLength := hTracks.length_eq
    rw [length_scopes, live, List.length_append] at hLength
    exact Nat.succ.inj hLength
  refine ⟨hDepth, ?ancestors, fun depth made hMade name value => hTracks.binding?_eq_some_iff hMade,
    ?read, ?write, ?outer, ?unbound⟩
  case ancestors =>
    rw [map_depth_ancestors, hDepth, live, List.length_append, List.length_singleton]
  case read =>
    intro name value
    rw [perform_read_eq_ok_iff]
    cases hHolder : holder? projections bottom past name with
    | none =>
      rw [attribute?, List.findSome?_eq_none_iff.2 (hTracks.holder?_eq_none_iff.1 hHolder)]
      simp
    | some made =>
      rw [hTracks.attribute?_eq_some_iff hHolder]
      simp
  case write =>
    intro name value depth made hHolder hMade
    obtain ⟨written, hWritten, hAfter⟩ := hTracks.exists_write hHolder value
    refine ⟨written, by rw [perform, hWritten], ?_, fun place other hOther => ?_⟩
    · exact (hAfter.binding?_eq_some_iff hMade).2 (.written hHolder)
    · exact hTracks.binding?_write hAfter hHolder hMade hOther
  case outer =>
    intro later depth made hBefore hLater name hKept
    have hNumber := number_le_of_mem_live (List.mem_reverse.1 (List.mem_of_getElem? hBefore))
    refine Option.ext fun value => ?_
    rw [(tracks_after projections bottom (later ++ past)).binding?_eq_some_iff hLater,
      hTracks.binding?_eq_some_iff hBefore, lastValue_append_iff hNumber hKept]
  case unbound =>
    intro operation failure next
    simp only [perform_eq_error_iff, forall₂_agrees_project_eq_none hTracks]

end Frame

/-! ### Frames of sessions -/

theorem Bindings.lookup_map (name other : String) (value : Int) (bindings : Bindings) :
    (bindings.map fun (bound, old) => if bound = name then (bound, value) else (bound, old)).lookup
        other =
      if other = name then (bindings.lookup other).map fun _ => value
      else bindings.lookup other := by
  induction bindings with
  | nil => simp
  | cons binding bindings ih =>
    obtain ⟨bound, old⟩ := binding
    rw [List.map_cons]
    rcases eq_or_ne other bound with rfl | hBound
    · by_cases hName : other = name <;> simp [hName]
    · have hPassed : (other == bound) = false := beq_false_of_ne hBound
      by_cases hName : bound = name
      · have hOther : other ≠ name := hName ▸ hBound
        simpa [List.lookup_cons, hName ▸ hPassed, hName, hOther] using ih
      · simpa [List.lookup_cons, hPassed, hName] using ih

/-- The integers that are bound in the scopes of sessions. -/
def Bindings.projections : Projections Bindings fun _ => Int where
  project name bindings := bindings.lookup name
  assign name value bindings := bindings.assign? name value
  isSome_assign name value bindings := by
    rw [Bindings.assign?]
    cases bindings.lookup name <;> rfl
  project_of_assign name value bindings written h := by
    rw [Bindings.assign?] at h
    split at h
    · next hBound =>
      obtain rfl := Option.some.inj h
      rw [Bindings.lookup_map, if_pos rfl, hBound, Option.map_some]
    · cases h
  project_of_assign_of_ne name value bindings written h other hOther := by
    rw [Bindings.assign?] at h
    split at h
    · obtain rfl := Option.some.inj h
      rw [Bindings.lookup_map, if_neg hOther]
    · cases h

namespace Session

/-- What a command does with the frames. -/
def Command.operation? : Command → Option (Frame.Operation Bindings fun _ => Int)
  | .push bindings => some (.push bindings)
  | .pop => some .drop
  | .get name => some (.read name)
  | .set name value => some (.write name value)
  | _ => none

/-- The answer of a command that works on the frames. -/
def answer : (operation : Frame.Operation Bindings fun _ => Int) → operation.Result → Answer
  | .read _, value => .value value
  | .push _, _ => .none
  | .drop, _ => .none
  | .write _ _, _ => .none

/-- A command that works on the frames performs its operation. -/
theorem run_of_operation? (session : Session) {command : Command}
    {operation : Frame.Operation Bindings fun _ => Int} (h : command.operation? = some operation) :
    session.run command =
      ((session.frame.perform Bindings.projections operation).1.map (answer operation),
        { session with
          frame := (session.frame.perform Bindings.projections operation).2 }) := by
  cases command <;> cases h
  case push bindings => rfl
  case pop => rfl
  case get name =>
    simp only [run, Frame.perform, Bindings.projections]
    cases session.frame.attribute? fun bindings => bindings.lookup name <;> rfl
  case set name value =>
    simp only [run, Frame.perform, Bindings.projections]
    cases session.frame.update? fun bindings => bindings.assign? name value <;> rfl

theorem frame_settle (session : Session) (result : Except Failure Unit × Walker) :
    (session.settle result).2.frame = session.frame :=
  rfl

theorem frame_settleNode (session : Session) (result : Except Failure (Tree × Cursor) × Walker) :
    (session.settleNode result).2.frame = session.frame := by
  obtain ⟨failure | ⟨node, cursor⟩, walker⟩ := result <;> rfl

/-- Other commands leave the frames. -/
theorem frame_run_of_operation?_eq_none (session : Session) {command : Command}
    (h : command.operation? = none) : (session.run command).2.frame = session.frame := by
  cases command with
  | push | pop | get | set => cases h
  | enter | expectEnd | mismatch | noViableAlternative | failedPredicate =>
    exact session.frame_settle _
  | expect | wildcard => exact session.frame_settleNode _
  | exit | peek | atEnd | remaining | parent | position | scope | ancestors => rfl
  | peekLabel | bump | down | up | frameParent =>
    rw [run]
    split <;> rfl

/-- The frames of a session are those after the operations of its commands. -/
theorem frame_foldl_run (session : Session) (bottom : Bindings)
    (past : List (Frame.Operation Bindings fun _ => Int))
    (h : session.frame = Frame.after Bindings.projections bottom past) (commands : List Command) :
    (commands.foldl (fun session command => (session.run command).2) session).frame =
      Frame.after Bindings.projections bottom
        ((commands.filterMap Command.operation?).reverse ++ past) := by
  induction commands generalizing session past with
  | nil => exact h
  | cons command commands ih =>
    rw [List.foldl_cons]
    cases hOperation : command.operation? with
    | none =>
      rw [List.filterMap_cons_none hOperation]
      exact ih _ _ ((session.frame_run_of_operation?_eq_none hOperation).trans h)
    | some operation =>
      rw [List.filterMap_cons_some hOperation, List.reverse_cons, List.append_assoc]
      refine ih _ (operation :: past) ?_
      rw [session.run_of_operation? hOperation, h]
      rfl

end Session

end TreeGrammar
