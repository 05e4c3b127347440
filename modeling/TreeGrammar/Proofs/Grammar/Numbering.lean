import TreeGrammar.Proofs.Grammar.Forest
import TreeGrammar.Proofs.Grammar.ParserSteps

/-!
# The numbers of elements

The elements of a grammar are numbered in the order in which they end, and stand in this order in
the list of all elements. What has been read of a text is a forest at any time: the elements of the
rules so far, and elements of rules that are not well written, which take numbers too. So the
numbers of the elements of the rules increase but may leave gaps. Every group has an alternative.

## Main definitions

* `Numbered`: elements have the numbers from one count up to another one
* `SourceGrammar.Reads`: what is read between two stages of a grammar
* `SourceGrammar.WellNumbered`: the elements of a grammar are a forest that includes its rules
* `SourceGrammar.IsWhole`: nothing has been left out of the rules

## Main results

* `ReadState.alternatives_reads`: what is read as the alternatives of a rule
* `SourceGrammar.wellNumbered_parse`: a grammar that is read is well numbered
* `SourceGrammar.isWhole_parse`: without syntax errors, nothing is left out
-/

namespace TreeGrammar

variable {source : List Char} {bound : Nat} {α β : Type}

/-! ### Numbers of elements -/

/-- A group has an alternative. -/
def Expr.HasAlternatives : Expr → Prop
  | .subrule _ _ _ alternatives => alternatives ≠ []
  | _ => True

/-- Elements have the numbers from `low` on, in order, up to the number before `high`, and each
group among them has an alternative. -/
structure Numbered (low high : Nat) (exprs : List Expr) : Prop where
  length : low + exprs.length = high
  ids : exprs.map Expr.id = List.range' low exprs.length
  hasAlternatives : ∀ expr ∈ exprs, expr.HasAlternatives

namespace Numbered

variable {low middle high : Nat} {xs ys : List Expr}

theorem nil (low : Nat) : Numbered low low [] := ⟨rfl, rfl, fun _ h => absurd h List.not_mem_nil⟩

theorem append (hx : Numbered low middle xs) (hy : Numbered middle high ys) :
    Numbered low high (xs ++ ys) := by
  have hMiddle := hx.length
  have hHigh := hy.length
  refine ⟨?_, ?_, ?_⟩
  · rw [List.length_append]
    omega
  · rw [List.map_append, hx.ids, hy.ids, List.length_append, ← hMiddle, List.range'_append_1]
  · exact List.forall_mem_append.2 ⟨hx.hasAlternatives, hy.hasAlternatives⟩

theorem singleton {expr : Expr} (h : expr.HasAlternatives) :
    Numbered expr.id (expr.id + 1) [expr] :=
  ⟨rfl, rfl, List.forall_mem_singleton.2 h⟩

end Numbered

/-- Between two stages of a grammar some elements are read: those of some trees, in their order and
with the numbers in between. -/
structure SourceGrammar.Reads (a b : SourceGrammar) (exprs : List Expr) : Prop where
  rules : b.rules = a.rules
  malformed : b.malformed = a.malformed
  numbered : Numbered a.exprCount b.exprCount exprs
  elements : b.elements = a.elements ++ exprs
  infos : b.infos = a.infos ++ exprs.map Expr.info
  trees : ∃ trees, exprs = Expr.postorderList trees

/-- A stage of a grammar at which no rule has been added, but maybe elements. -/
def SourceGrammar.GrownTo (a : SourceGrammar) (state : ReadState source bound) : Prop :=
  ∃ exprs, a.Reads state.grammar exprs

namespace SourceGrammar

variable {a b c : SourceGrammar} {xs ys : List Expr} {state : ReadState source bound}

theorem SameRules.reads (h : a.SameRules b) : a.Reads b [] :=
  ⟨h.rules, h.malformed, h.count ▸ Numbered.nil _, by simpa using h.elements,
    by simpa using h.infos, [], rfl⟩

theorem Reads.trans (hab : a.Reads b xs) (hbc : b.Reads c ys) : a.Reads c (xs ++ ys) := by
  obtain ⟨trees, hTrees⟩ := hab.trees
  obtain ⟨others, hOthers⟩ := hbc.trees
  refine ⟨hbc.rules.trans hab.rules, hbc.malformed.trans hab.malformed,
    hab.numbered.append hbc.numbered, ?_, ?_, trees ++ others, ?_⟩
  · rw [hbc.elements, hab.elements, List.append_assoc]
  · rw [hbc.infos, hab.infos, List.append_assoc, List.map_append]
  · rw [Expr.postorderList_append, hTrees, hOthers]

theorem Reads.same (hab : a.Reads b xs) (hbc : b.SameRules c) : a.Reads c xs := by
  simpa using hab.trans hbc.reads

theorem Reads.grownTo (h : a.Reads state.grammar xs) : a.GrownTo state := ⟨xs, h⟩

theorem GrownTo.since (h : b.GrownTo state) (hab : a.Reads b xs) : a.GrownTo state := by
  obtain ⟨exprs, hReads⟩ := h
  exact ⟨xs ++ exprs, hab.trans hReads⟩

/-- The element that is ended after the elements inside it have been read. -/
theorem Reads.finish (h : a.Reads state.grammar xs) (label : Option Ident) (build : Nat → Expr)
    (hInside : ∀ n, (build n).postorder = xs ++ [build n]) (hId : ∀ n, (build n).id = n)
    (hLabel : ∀ n, (build n).label = label) (hAlternatives : ∀ n, (build n).HasAlternatives) :
    a.Reads (state.finish label build).state.grammar
      (state.finish label build).value.postorder := by
  have hLast := Numbered.singleton (hAlternatives state.grammar.exprCount)
  rw [hId] at hLast
  have hNumbered := h.numbered.append hLast
  rw [← hInside] at hNumbered
  refine ⟨h.rules, h.malformed, ?_, ?_, ?_, [build state.grammar.exprCount], ?_⟩
  · have hCount : (state.finish label build).state.grammar.exprCount =
        state.grammar.exprCount + 1 := List.length_append
    rw [hCount]
    exact hNumbered
  · show state.grammar.elements ++ [_] = _
    rw [h.elements, ReadState.finish, hInside, List.append_assoc]
  · show state.grammar.infos ++ [_] = _
    rw [h.infos, ReadState.finish, hInside, List.map_append, List.append_assoc, ← hLabel]
    rfl
  · exact (Expr.postorderList_singleton _).symm

/-- A group that has been ended last takes a suffix and keeps its number. -/
theorem Reads.replace {id : Nat} {span : Span} {alternatives : List Alternative}
    (h : a.Reads b (Expr.subrule id span .once alternatives).postorder)
    (repetition : Repetition) :
    a.Reads (b.replaceElement (.subrule id span repetition alternatives))
      (Expr.subrule id span repetition alternatives).postorder := by
  have hNumbered := h.numbered
  have hElements := h.elements
  have hInfos := h.infos
  simp only [Expr.postorder] at hNumbered hElements hInfos ⊢
  obtain ⟨hInside, hGroup⟩ := List.forall_mem_append.1 hNumbered.hasAlternatives
  -- the group is the last element, so that its number is the place of the last element
  have hPlace : id = (a.elements ++ Expr.postorderAlternatives alternatives).length := by
    have hIds := hNumbered.ids
    rw [List.map_append, List.length_append, List.length_singleton, List.range'_1_concat,
      List.map_singleton] at hIds
    have hLast := List.append_inj_right' hIds rfl
    rw [List.length_append]
    exact (List.cons.inj hLast).1
  have hSet : (b.replaceElement (.subrule id span repetition alternatives)).elements =
      a.elements ++ (Expr.postorderAlternatives alternatives ++
        [Expr.subrule id span repetition alternatives]) := by
    show b.elements.set id _ = _
    rw [hElements, ← List.append_assoc, ← List.append_assoc, hPlace,
      List.set_append_right _ _ (Nat.le_refl _), Nat.sub_self, List.set_cons_zero]
  refine ⟨h.rules, h.malformed, ⟨?_, ?_, List.forall_mem_append.2 ⟨hInside, ?_⟩⟩, hSet, ?_,
    [.subrule id span repetition alternatives], ?_⟩
  · simp only [SourceGrammar.exprCount, hSet, List.length_append]
  · simpa [Expr.id] using hNumbered.ids
  · simpa [Expr.HasAlternatives] using hGroup
  · show b.infos = _
    simpa [Expr.info, Expr.span, Expr.label] using hInfos
  · rw [Expr.postorderList_singleton, Expr.postorder]

end SourceGrammar

namespace Attempt

variable {a b : SourceGrammar} {state : α → ReadState source bound} {p q : β → Prop}
  {attempt : Attempt source bound α} {next : α → Attempt source bound β} {xs : List Expr}

/-- A step that reads no element, and another one after it. -/
theorem KeepsRules.thenReads (h : attempt.KeepsRules b state) (hab : a.Reads b xs)
    (hNext : ∀ result, a.Reads (state result).grammar xs → (next result).Ensures p a.GrownTo) :
    (attempt >>= next).Ensures p a.GrownTo :=
  Ensures.bind h (fun _ hFailed => (hab.same hFailed).grownTo) fun result hResult =>
    hNext result (hab.same hResult)

/-- A step that reads elements, and another one after it. -/
theorem Ensures.thenReads {exprs : α → List Expr}
    (h : attempt.Ensures (fun result => b.Reads (state result).grammar (exprs result)) b.GrownTo)
    (hab : a.Reads b xs)
    (hNext : ∀ result, a.Reads (state result).grammar (xs ++ exprs result) →
      (next result).Ensures p a.GrownTo) :
    (attempt >>= next).Ensures p a.GrownTo :=
  Ensures.bind h (fun _ hFailed => hFailed.since hab) fun result hResult =>
    hNext result (hab.trans hResult)

end Attempt

namespace ReadState

variable (state : ReadState source bound)

/-! ### Elements -/

theorem self_reads : state.grammar.Reads state.grammar [] := (SourceGrammar.SameRules.refl _).reads

theorem codeElement_reads : state.codeElement.Ensures
    (fun result => state.grammar.Reads result.state.grammar result.value.postorder)
    state.grammar.GrownTo := by
  refine state.codeBlock_keeps.thenReads state.self_reads fun ⟨⟨code, isPredicate⟩, next, _⟩ h => ?_
  cases isPredicate with
  | true =>
    exact h.finish none (.predicate · code) (fun _ => rfl) (fun _ => rfl) (fun _ => rfl)
      fun _ => trivial
  | false =>
    exact h.finish none (.action · code) (fun _ => rfl) (fun _ => rfl) (fun _ => rfl)
      fun _ => trivial

theorem reference_reads (span : Span) (label : Option Ident) :
    (reference span label state).Ensures
      (fun result => state.grammar.Reads result.state.grammar result.value.postorder)
      state.grammar.GrownTo := by
  refine (state.expectIdent_keeps _).thenReads state.self_reads fun ⟨name, state₁, _⟩ h => ?_
  dsimp only
  split
  · exact h.finish label (.token · span label name) (fun _ => rfl) (fun _ => rfl) (fun _ => rfl)
      fun _ => trivial
  · split
    · refine (fragment_keeps _ [']'] false).thenReads h fun ⟨args, state₂, _⟩ h => ?_
      refine (state₂.expect_keeps ']').thenReads h fun ⟨_, state₃, _⟩ h => ?_
      exact h.finish label (.rule · span label name (some args)) (fun _ => rfl) (fun _ => rfl)
        (fun _ => rfl) fun _ => trivial
    · exact h.finish label (.rule · span label name none) (fun _ => rfl) (fun _ => rfl)
        (fun _ => rfl) fun _ => trivial

theorem repeatExpr_reads {a : SourceGrammar} {expr : Expr}
    (h : a.Reads state.grammar expr.postorder) (span : Span) (repetition : Repetition) :
    a.Reads (repeatExpr span repetition expr state).state.grammar
      (repeatExpr span repetition expr state).value.postorder := by
  unfold repeatExpr
  split
  · next id span' alternatives =>
    exact h.replace repetition
  · refine h.finish none (.subrule · span repetition [.mk none [expr] span]) (fun n => ?_)
      (fun _ => rfl) (fun _ => rfl) fun _ => List.cons_ne_nil _ _
    simp only [Expr.postorder, Expr.postorderAlternatives, Expr.postorderList, List.append_nil]

theorem suffixed_reads {a : SourceGrammar} {expr : Expr} (h : a.Reads state.grammar expr.postorder)
    (span : Span) (label : Option Ident) : (suffixed span label expr state).Ensures
      (fun result => a.Reads result.state.grammar result.value.postorder) a.GrownTo := by
  refine state.nextChar_keeps.thenReads h fun ⟨c, state₁, _⟩ h => ?_
  cases hSuffix : suffix? c with
  | none => simp only [hSuffix]; exact h
  | some repetition =>
    simp only [hSuffix]
    -- an element with both a label and a suffix is an error
    cases label with
    | some label => exact SourceGrammar.Reads.grownTo h
    | none => exact repeatExpr_reads (state₁.drop 1) h span repetition

mutual

/-- What is read as alternatives: there is one, and their elements are numbered in order. -/
theorem alternatives_reads (close : Char) (state : ReadState source bound) :
    (alternatives close state).Ensures
      (fun result => state.grammar.Reads result.state.grammar
        (Expr.postorderAlternatives result.value) ∧ result.value ≠ [])
      state.grammar.GrownTo := by
  rw [alternatives]
  refine (alternative_reads close state).thenReads state.self_reads
    fun ⟨.mk guard first span, state₁, h₁⟩ h => ?_
  refine (state₁.eat_keeps '|').thenReads h fun found h => ?_
  cases found with
  | no state₂ _ =>
    have hFirst : Expr.postorderAlternatives [.mk guard first span] = Expr.postorderList first := by
      rw [Expr.postorderAlternatives, Expr.postorderAlternatives, List.append_nil]
    exact ⟨by rw [hFirst]; exact h, List.cons_ne_nil _ _⟩
  | yes _ state₂ h₂ =>
    refine Attempt.Ensures.bind (alternatives_reads close state₂) (fun _ h' => h'.since h)
      fun ⟨others, state₃, _⟩ h' => ?_
    exact ⟨h.trans h'.1, List.cons_ne_nil _ _⟩
termination_by 6 * state.remaining + 5

/-- What is read as an alternative: its elements are numbered in order. -/
theorem alternative_reads (close : Char) (state : ReadState source bound) :
    (alternative close state).Ensures
      (fun result => state.grammar.Reads result.state.grammar
        (Expr.postorderList result.value.elements))
      state.grammar.GrownTo := by
  rw [alternative]
  refine state.skipTrivia_keeps.thenReads state.self_reads fun ⟨_, state₁, h₁⟩ h => ?_
  dsimp only
  split
  · refine state₁.codeBlock_keeps.thenReads h fun ⟨⟨code, isPredicate⟩, state₂, h₂⟩ h => ?_
    cases isPredicate with
    | true =>
      exact (elements_reads close state₂).thenReads h fun ⟨elements, state₃, _⟩ h => h
    | false =>
      -- the action becomes the first element of the alternative
      have hAction := h.finish none (.action · code) (fun _ => rfl) (fun _ => rfl) (fun _ => rfl)
        fun _ => trivial
      have hRemaining : (state₂.finish none (.action · code)).state.remaining = state₂.remaining :=
        rfl
      exact (elements_reads close (state₂.finish none (.action · code)).state).thenReads hAction
        fun ⟨elements, state₃, _⟩ h => h
  · exact (elements_reads close state₁).thenReads h fun ⟨elements, state₂, _⟩ h => h
termination_by 6 * state.remaining + 4

/-- What is read as elements: they are numbered in order. -/
theorem elements_reads (close : Char) (state : ReadState source bound) :
    (elements close state).Ensures
      (fun result => state.grammar.Reads result.state.grammar (Expr.postorderList result.value))
      state.grammar.GrownTo := by
  rw [elements]
  refine state.nextChar_keeps.thenReads state.self_reads fun ⟨c, state₁, h₁⟩ h => ?_
  cases c with
  | none => exact h.grownTo
  | some c =>
    dsimp only
    split
    · exact h
    · split
      · refine state₁.codeElement_reads.thenReads h fun ⟨expr, state₂, h₂⟩ h => ?_
        exact (elements_reads close state₂).thenReads h fun ⟨others, state₃, _⟩ h => h
      · refine (element_reads state₁).thenReads h fun ⟨expr, state₂, h₂⟩ h => ?_
        exact (elements_reads close state₂).thenReads h fun ⟨others, state₃, _⟩ h => h
termination_by 6 * state.remaining + 3

/-- What is read as an element: it is numbered after the elements inside it. -/
theorem element_reads (state : ReadState source bound) :
    (element state).Ensures
      (fun result => state.grammar.Reads result.state.grammar result.value.postorder)
      state.grammar.GrownTo := by
  rw [element]
  refine state.skipTrivia_keeps.thenReads state.self_reads fun ⟨_, state₁, h₁⟩ h => ?_
  refine state₁.label_keeps.thenReads h fun ⟨label, state₂, h₂⟩ h => ?_
  refine (primary_reads state₁.span label state₂).thenReads h fun ⟨expr, state₃, h₃⟩ h => ?_
  refine Attempt.Ensures.bind (suffixed_reads state₃ h state₁.span label) (fun _ h => h)
    fun ⟨expr, state₄, _⟩ h => h
termination_by 6 * state.remaining + 2

/-- What is read as an element without a suffix: it is numbered after the elements inside it. -/
theorem primary_reads (span : Span) (label : Option Ident) (state : ReadState source bound) :
    (primary span label state).Ensures
      (fun result => state.grammar.Reads result.state.grammar result.value.postorder)
      state.grammar.GrownTo := by
  rw [primary]
  refine state.skipTrivia_keeps.thenReads state.self_reads fun ⟨_, state₁, h₁⟩ h => ?_
  dsimp only
  -- by the next mark: a node, a wildcard, a group, or the name of a token or rule
  split
  · next hPeek =>
    have hPos := remaining_pos_of_peek hPeek
    have hDrop := state₁.remaining_drop 1
    split
    · have hDrop₂ := (state₁.drop 1).remaining_drop 1
      refine (expectIdent_keeps ((state₁.drop 1).drop 1) _).thenReads h
        fun ⟨name, state₃, h₃⟩ h => ?_
      dsimp only
      split
      · refine (children_reads state₃).thenReads h fun ⟨children, state₄, _⟩ h => ?_
        exact h.finish label (.node · span label name children) (fun _ => rfl) (fun _ => rfl)
          (fun _ => rfl) fun _ => trivial
      · exact SourceGrammar.Reads.grownTo h
    · exact SourceGrammar.Reads.grownTo h
  · exact h.finish label (.wildcard · span label) (fun _ => rfl) (fun _ => rfl) (fun _ => rfl)
      fun _ => trivial
  · next hPeek =>
    have hPos := remaining_pos_of_peek hPeek
    have hDrop := state₁.remaining_drop 1
    cases label with
    | some label => exact SourceGrammar.Reads.grownTo h
    | none =>
      refine Attempt.Ensures.bind (alternatives_reads ')' (state₁.drop 1)) (fun _ h' => h'.since h)
        fun ⟨alternatives, state₃, h₃⟩ h' => ?_
      refine (state₃.expect_keeps ')').thenReads (h.trans h'.1) fun ⟨_, state₄, _⟩ h => ?_
      exact h.finish none (.subrule · span .once alternatives) (fun _ => rfl) (fun _ => rfl)
        (fun _ => rfl) fun _ => h'.2
  · split
    · refine Attempt.Ensures.bind (state₁.reference_reads span label) (fun _ h' => h'.since h)
        fun result h' => h.trans h'
    · exact h.grownTo
termination_by 6 * state.remaining + 1

/-- What is read as the children of a node match: they are numbered in order. -/
theorem children_reads (state : ReadState source bound) :
    (children state).Ensures
      (fun result => state.grammar.Reads result.state.grammar (Expr.postorderList result.value))
      state.grammar.GrownTo := by
  rw [children]
  refine state.nextChar_keeps.thenReads state.self_reads fun ⟨c, state₁, h₁⟩ h => ?_
  cases c with
  | none => exact h.grownTo
  | some c =>
    dsimp only
    split
    · exact h
    · split
      · exact h.grownTo
      · split
        · refine state₁.codeElement_reads.thenReads h fun ⟨expr, state₂, h₂⟩ h => ?_
          exact (children_reads state₂).thenReads h fun ⟨others, state₃, _⟩ h => h
        · refine (element_reads state₁).thenReads h fun ⟨expr, state₂, h₂⟩ h => ?_
          exact (children_reads state₂).thenReads h fun ⟨others, state₃, _⟩ h => h
termination_by 6 * state.remaining + 3

end

/-! ### Rules -/

theorem ruleBody_reads (name : Ident) (isPublic : Bool) : (ruleBody name isPublic state).Ensures
    (fun result => state.grammar.Reads result.state.grammar result.value.exprs ∧
      result.value.alternatives ≠ [])
    state.grammar.GrownTo := by
  rw [ruleBody]
  refine (state.eat_keeps '[').thenReads state.self_reads fun found h => ?_
  extract_lets later
  -- the steps after the attributes are the same with and without attributes
  have hLater : ∀ result : Onward state (List Attribute),
      state.grammar.Reads result.state.grammar [] → (later result).Ensures
        (fun result => state.grammar.Reads result.state.grammar result.value.exprs ∧
          result.value.alternatives ≠ []) state.grammar.GrownTo := by
    intro result h
    refine result.state.parenthesized_keeps.thenReads h fun params h => ?_
    refine params.state.returnValue_keeps.thenReads h fun returns h => ?_
    refine (returns.state.expect_keeps ':').thenReads h fun colon h => ?_
    refine Attempt.Ensures.bind (alternatives_reads ';' colon.state) (fun _ h' => h'.since h)
      fun alternatives h' => ?_
    refine (alternatives.state.expect_keeps ';').thenReads (h.trans h'.1) fun semicolon h => ?_
    exact ⟨h, h'.2⟩
  cases found with
  | no next le => exact hLater ⟨[], next, le⟩ h
  | yes _ next lt =>
    refine next.attributes_keeps.thenReads h fun result h => ?_
    exact hLater (result.weaken (Nat.le_of_lt lt)) h

end ReadState

/-- The elements of a grammar are those of some trees, numbered in order. The trees include those of
its rules, and every group and every rule has an alternative. -/
structure SourceGrammar.WellNumbered (grammar : SourceGrammar) : Prop where
  forest : ∃ trees, IsForest grammar.elements trees ∧ grammar.rules.roots.Sublist trees
  infos : grammar.infos = grammar.elements.map Expr.info
  groups : ∀ expr ∈ grammar.elements, expr.HasAlternatives
  alternatives : ∀ rule ∈ grammar.rules, rule.alternatives ≠ []

/-- Trees that are read after others make a forest together with them. -/
theorem IsForest.append {a b : SourceGrammar} {trees others : List Expr}
    (h : IsForest a.elements trees) (hReads : a.Reads b (Expr.postorderList others)) :
    IsForest b.elements (trees ++ others) := by
  refine ⟨?_, ?_⟩
  · rw [hReads.elements, h.elements_eq, Expr.postorderList_append]
  · rw [hReads.elements, List.map_append, h.ids, hReads.numbered.ids, List.length_append,
      SourceGrammar.exprCount, List.range_eq_range', List.range_eq_range', ← List.range'_append_1,
      Nat.zero_add]

namespace SourceGrammar.WellNumbered

variable {a b grammar : SourceGrammar} {rule : Rule} {exprs : List Expr}

theorem exprs_sublist (h : grammar.WellNumbered) : grammar.rules.exprs.Sublist grammar.elements := by
  obtain ⟨trees, hForest, hRoots⟩ := h.forest
  rw [Rules.exprs_eq_postorderList]
  exact hForest.sublist_of_trees hRoots

/-- The elements of the rules have increasing numbers. -/
theorem increasing (h : grammar.WellNumbered) :
    (grammar.rules.exprs.map Expr.id).Pairwise (· < ·) := by
  obtain ⟨trees, hForest, -⟩ := h.forest
  have hAll : (grammar.elements.map Expr.id).Pairwise (· < ·) :=
    hForest.ids ▸ List.pairwise_lt_range
  exact hAll.sublist (h.exprs_sublist.map Expr.id)

theorem hasAlternatives (h : grammar.WellNumbered) :
    ∀ expr ∈ grammar.rules.exprs, expr.HasAlternatives :=
  fun expr hExpr => h.groups expr (h.exprs_sublist.subset hExpr)

/-- Elements that belong to no rule leave a gap in the numbers of the rules. -/
theorem grow (h : a.WellNumbered) (hReads : a.Reads b exprs) : b.WellNumbered := by
  obtain ⟨trees, hForest, hRoots⟩ := h.forest
  obtain ⟨others, rfl⟩ := hReads.trees
  refine ⟨⟨trees ++ others, hForest.append hReads, ?_⟩, ?_, ?_, hReads.rules ▸ h.alternatives⟩
  · rw [hReads.rules]
    exact hRoots.trans (List.sublist_append_left _ _)
  · rw [hReads.infos, hReads.elements, h.infos, List.map_append]
  · rw [hReads.elements]
    exact List.forall_mem_append.2 ⟨h.groups, hReads.numbered.hasAlternatives⟩

theorem same (h : a.WellNumbered) (hab : a.SameRules b) : b.WellNumbered := h.grow hab.reads

/-- A rule whose elements have been read last is added. -/
theorem addRule (h : a.WellNumbered) (hReads : a.Reads b rule.exprs)
    (hRule : rule.alternatives ≠ []) :
    SourceGrammar.WellNumbered { b with rules := b.rules ++ [rule] } := by
  have hNext := h.grow hReads
  obtain ⟨trees, hForest, hRoots⟩ := h.forest
  rw [Rule.exprs, Expr.postorderAlternatives_eq] at hReads
  have hTrees : IsForest b.elements (trees ++ rule.roots) := hForest.append hReads
  refine ⟨⟨trees ++ rule.roots, hTrees, ?_⟩, hNext.infos, hNext.groups, ?_⟩
  · have hRules : Rules.roots (b.rules ++ [rule]) = a.rules.roots ++ rule.roots := by
      rw [hReads.rules, Rules.roots, Rules.roots, List.flatMap_append, List.flatMap_singleton]
    show (Rules.roots (b.rules ++ [rule])).Sublist _
    rw [hRules]
    exact hRoots.append (List.Sublist.refl _)
  · show ∀ other ∈ b.rules ++ [rule], other.alternatives ≠ []
    exact List.forall_mem_append.2 ⟨hNext.alternatives, List.forall_mem_singleton.2 hRule⟩

end SourceGrammar.WellNumbered

/-- Nothing has been left out of the rules: neither a rule, nor an element. -/
structure SourceGrammar.IsWhole (grammar : SourceGrammar) : Prop where
  malformed : grammar.malformed = []
  elements : grammar.elements = grammar.rules.exprs

namespace SourceGrammar.IsWhole

variable {a b : SourceGrammar} {rule : Rule}

theorem same (h : a.IsWhole) (hab : a.SameRules b) : b.IsWhole :=
  ⟨hab.malformed.trans h.malformed, by rw [hab.elements, hab.rules, h.elements]⟩

theorem addRule (h : a.IsWhole) (hReads : a.Reads b rule.exprs) :
    SourceGrammar.IsWhole { b with rules := b.rules ++ [rule] } := by
  refine ⟨hReads.malformed.trans h.malformed, ?_⟩
  show b.elements = Rules.exprs (b.rules ++ [rule])
  rw [hReads.elements, hReads.rules, h.elements, Rules.exprs, Rules.exprs, List.flatMap_append,
    List.flatMap_singleton]

end SourceGrammar.IsWhole

namespace ReadState

variable (state : ReadState source bound)

/-! ### Items -/

/-- An item keeps the grammar well numbered, and leaves nothing out if it is well written. -/
def KeepsNumbers {origin : ReadState source bound} (grammar : SourceGrammar) :
    Attempt source bound (Ahead origin Unit) → Prop :=
  Attempt.Ensures
    (fun result => result.state.grammar.WellNumbered ∧
      (grammar.IsWhole → result.state.grammar.IsWhole))
    fun failed => failed.grammar.WellNumbered

theorem keepsNumbers_of_keepsRules {origin : ReadState source bound} {a b : SourceGrammar}
    {attempt : Attempt source bound (Ahead origin Unit)} (ha : a.WellNumbered)
    (hab : a.SameRules b) (h : attempt.KeepsRules b Ahead.state) : KeepsNumbers a attempt :=
  (h.since hab).mono (fun _ hResult => ⟨ha.same hResult, fun h => h.same hResult⟩)
    fun _ hFailed => ha.same hFailed

theorem rule_keepsNumbers (h : state.grammar.WellNumbered) :
    KeepsNumbers state.grammar state.rule := by
  refine Attempt.Ensures.bind state.ruleName_keeps (fun _ hFailed => h.same hFailed)
    fun ⟨⟨name, isPublic⟩, state₁, h₁⟩ hName => ?_
  dsimp only
  split
  · exact h.same hName
  · have hBody := state₁.ruleBody_reads name isPublic
    have h₁ := h.same hName
    cases hResult : ruleBody name isPublic state₁ with
    | ok result =>
      rw [hResult] at hBody
      obtain ⟨rule, state₂, _⟩ := result
      exact ⟨h₁.addRule hBody.1 hBody.2, fun hWhole => (hWhole.same hName).addRule hBody.1⟩
    | error failure =>
      rw [hResult] at hBody
      -- the elements of a rule that is not well written have taken numbers
      obtain ⟨exprs, hReads⟩ := hBody
      have hNext := h₁.grow hReads
      exact ⟨hNext.forest, hNext.infos, hNext.groups, hNext.alternatives⟩

theorem item_keepsNumbers (h : state.grammar.WellNumbered) :
    KeepsNumbers state.grammar state.item := by
  refine Attempt.Ensures.bind state.nextChar_keeps (fun _ hFailed => h.same hFailed)
    fun ⟨c, state₁, h₁⟩ hSame => ?_
  dsimp only
  split
  · exact keepsNumbers_of_keepsRules h hSame (state₁.option_keeps.bind fun _ h => h)
  · split
    · exact keepsNumbers_of_keepsRules h hSame (state₁.tokenList_keeps.bind fun _ h => h)
    · split
      · exact keepsNumbers_of_keepsRules h hSame (state₁.prelude_keeps.bind fun _ h => h)
      · split
        · refine Attempt.Ensures.bind (state₁.rule_keepsNumbers (h.same hSame)) (fun _ h => h)
            fun result hResult => ?_
          exact ⟨hResult.1, fun hWhole => hResult.2 (hWhole.same hSame)⟩
        · exact h.same hSame

end ReadState

/-- The items of a text keep a grammar well numbered, and leave nothing out if they are well
written. -/
theorem ReadState.items_keepsNumbers {bound : Nat} (state : ReadState source bound)
    (h : state.grammar.WellNumbered) :
    state.items.2.WellNumbered ∧
      (state.items.1 = [] → state.grammar.IsWhole → state.items.2.IsWhole) := by
  fun_induction items state with
  | case1 _ state error next hChar =>
    -- a comment in front of the next item is left open
    have hSame := state.nextChar_keeps
    rw [hChar] at hSame
    exact ⟨h.same hSame, nofun⟩
  | case2 _ state _ state₁ _ hChar =>
    -- the end of the text
    have hSame := state.nextChar_keeps
    rw [hChar] at hSame
    exact ⟨h.same hSame, fun _ hWhole => hWhole.same hSame⟩
  | case3 _ state _ state₁ _ hChar _ _ state₂ _ hItem ih =>
    have hSame := state.nextChar_keeps
    rw [hChar] at hSame
    have hKeeps := state₁.tighten.item_keepsNumbers (h.same hSame)
    rw [hItem] at hKeeps
    obtain ⟨hWell, hLater⟩ := ih hKeeps.1
    exact ⟨hWell, fun hNil hWhole => hLater hNil (hKeeps.2 (hWhole.same hSame))⟩
  | case4 _ state _ state₁ _ hChar _ _ state₂ hItem state₃ _ hRecover errors grammar hItems ih =>
    -- a faulty item, behind which reading goes on
    have hSame := state.nextChar_keeps
    rw [hChar] at hSame
    have hKeeps := state₁.tighten.item_keepsNumbers (h.same hSame)
    rw [hItem] at hKeeps
    have hNext := state₂.recover_keeps 0
    rw [hRecover] at hNext
    have hWell := (ih (SourceGrammar.WellNumbered.same hKeeps hNext)).1
    rw [hItems] at hWell
    exact ⟨hWell, nofun⟩

namespace SourceGrammar

theorem wellNumbered_empty : SourceGrammar.WellNumbered {} :=
  ⟨⟨[], .nil, .slnil⟩, rfl, nofun, nofun⟩

theorem parse_keepsNumbers (source : List Char) :
    (parse source).2.WellNumbered ∧ ((parse source).1 = [] → (parse source).2.IsWhole) := by
  let start : ReadState source source.length := ⟨.start source, {}, Nat.le_refl _⟩
  have hHeader := start.header_keeps
  rw [parse]
  cases hStart : start.header with
  | ok result =>
    rw [hStart] at hHeader
    have hItems := result.state.items_keepsNumbers (wellNumbered_empty.same hHeader)
    exact ⟨hItems.1, fun hNil => hItems.2 hNil (SourceGrammar.IsWhole.same ⟨rfl, rfl⟩ hHeader)⟩
  | error failure =>
    rw [hStart] at hHeader
    have hNext := hHeader.trans (failure.2.recover_keeps 0)
    exact ⟨((failure.2.recover 0).1.items_keepsNumbers (wellNumbered_empty.same hNext)).1, nofun⟩

/-- A grammar that is read is well numbered. -/
theorem wellNumbered_parse (source : List Char) : (parse source).2.WellNumbered :=
  (parse_keepsNumbers source).1

/-- Without syntax errors, nothing is left out of the rules. -/
theorem isWhole_parse {source : List Char} (h : (parse source).1 = []) :
    (parse source).2.IsWhole :=
  (parse_keepsNumbers source).2 h

/-- Without syntax errors, no rule is left out. -/
theorem malformed_parse {source : List Char} (h : (parse source).1 = []) :
    (parse source).2.malformed = [] :=
  (isWhole_parse h).malformed

end SourceGrammar

end TreeGrammar
