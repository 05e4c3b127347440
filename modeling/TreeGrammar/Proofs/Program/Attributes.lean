import TreeGrammar.Proofs.Analysis.Scopes
import TreeGrammar.Proofs.Program.Procedures

/-!
# Attributes in frames

A procedure pushes a frame if its rule declares attributes, so that the chain of calls that are
active determines the frames. Code looks for an attribute among the variants of the rules that its
analysis names. Along every chain of calls from the start of a walk this finds the frame of the
innermost rule that declares the attribute.

## Main definitions

* `Grammar.frame`: the frames of a chain of calls
* `Frame.declaring?`: the innermost frame of one of some rules
* `Grammar.FindsInnermost`: a reference finds the innermost declaration along a chain

## Main results

* `Grammar.Checked.findsInnermost`: every reference of a checked grammar finds it
-/

namespace TreeGrammar

/-! ### Variants -/

section Variants

theorem getElem?_scopeNamesFrom {rules : Rules} {index : Nat} {rule : Rule}
    (h : rules[index]? = some rule) (taken : List String) (start : Nat) :
    ∃ variant, (scopeNamesFrom taken start rules)[index]? = some variant ∧
      (variant = none ↔ rule.attributes = []) := by
  induction rules generalizing index taken start with
  | nil => cases h
  | cons head rules ih =>
    unfold scopeNamesFrom
    cases index with
    | zero =>
      obtain rfl : head = rule := Option.some.inj h
      split
      · next hEmpty => exact ⟨none, rfl, fun _ => List.isEmpty_iff.1 hEmpty, fun _ => rfl⟩
      · next hEmpty => exact ⟨_, rfl, nofun, fun hNil => absurd (List.isEmpty_iff.2 hNil) hEmpty⟩
    | succ index =>
      split
      · exact ih h _ _
      · exact ih h _ _

/-- A rule that declares an attribute has a variant. -/
theorem Rules.exists_variant {rules : Rules} {index : Nat} {name : String}
    (h : rules.declares index name) :
    ∃ variant, rules.scopeNames[index]? = some (some variant) := by
  obtain ⟨rule, attr, hRule, hAttr⟩ := exists_attribute_of_declares h
  obtain ⟨variant, hVariant, hNone⟩ := getElem?_scopeNamesFrom hRule [rootVariant] 0
  have hNonempty : rule.attributes ≠ [] := by
    intro hNil
    rw [Rule.attribute?, hNil] at hAttr
    cases hAttr
  cases variant with
  | none => exact absurd (hNone.1 rfl) hNonempty
  | some variant => exact ⟨variant, hVariant⟩

/-- No two rules have the same variant. -/
def Rules.DistinctVariants (rules : Rules) : Prop :=
  ∀ (i j : Nat) (variant : String), rules.scopeNames[i]? = some (some variant) →
    rules.scopeNames[j]? = some (some variant) → i = j

end Variants

/-! ### Frames of chains -/

/-- The frames of a chain of calls: one for each rule that declares attributes. -/
def Grammar.frame (grammar : Grammar) : List Nat → Frame Scope
  | [] => .root (rootScope grammar.rules.length)
  | rule :: callers => grammar.pushed rule (callers.length + 1) (grammar.frame callers)

/-- The scope of the innermost frame that belongs to one of some rules. -/
def Frame.declaring? (declaring : List Nat) (frame : Frame Scope) : Option Scope :=
  frame.attribute? fun scope => if scope.procedure ∈ declaring then some scope else none

namespace Grammar

variable {grammar : Grammar}

theorem attribute?_frame_cons {τ : Type} (project : Scope → Option τ) (rule : Nat)
    (callers : List Nat) : (grammar.frame (rule :: callers)).attribute? project =
      ((grammar.rules.scopeNames[rule]?.join.bind fun variant =>
        project ⟨variant, rule, callers.length + 1⟩).or
          ((grammar.frame callers).attribute? project)) := by
  rw [frame, pushed]
  cases grammar.rules.scopeNames[rule]?.join with
  | none => rfl
  | some variant =>
    show List.findSome? project (_ :: _) = _
    rw [List.findSome?_cons]
    cases hProject : project ⟨variant, rule, callers.length + 1⟩ with
    | none => simp only [Option.bind_some, hProject, Option.none_or]; rfl
    | some value => simp only [Option.bind_some, hProject, Option.some_or]

/-- The frames of rules to which nothing belongs are passed over. -/
theorem attribute?_frame_append {τ : Type} {project : Scope → Option τ} {inner : List Nat}
    (h : ∀ rule ∈ inner, ∀ (variant : String) (level : Nat),
      grammar.rules.scopeNames[rule]? = some (some variant) →
        project ⟨variant, rule, level⟩ = none) (outer : List Nat) :
    (grammar.frame (inner ++ outer)).attribute? project =
      (grammar.frame outer).attribute? project := by
  induction inner with
  | nil => rfl
  | cons rule inner ih =>
    obtain ⟨hRule, hInner⟩ := List.forall_mem_cons.1 h
    rw [List.cons_append, attribute?_frame_cons, ih hInner]
    cases hVariant : grammar.rules.scopeNames[rule]?.join with
    | none => rfl
    | some variant =>
      rw [Option.bind_some, hRule variant _ (Option.join_eq_some_iff.1 hVariant), Option.none_or]

/-- What belongs to the first rule is found there. -/
theorem attribute?_frame_self {τ : Type} {project : Scope → Option τ} {rule : Nat}
    {callers : List Nat} {variant : String} {value : τ}
    (hVariant : grammar.rules.scopeNames[rule]? = some (some variant))
    (hProject : project ⟨variant, rule, callers.length + 1⟩ = some value) :
    (grammar.frame (rule :: callers)).attribute? project = some value := by
  rw [attribute?_frame_cons, hVariant, Option.join_some, Option.bind_some, hProject, Option.some_or]

end Grammar

/-! ### References -/

/-- Along the chain of calls `rule :: callers`, a reference to an attribute in the code of `rule`
finds a frame: the one of the innermost rule that declares the attribute, whose declaration has the
type that the analysis records. The code names the frames it looks for by their variants; this finds
some frame in any case, and that frame if no two rules have the same variant. Two rules have the
same variant only where the enumeration of the scopes repeats a variant, so that the generated module
cannot be compiled and no code looks for anything; `variants_nodup_iff` says when this happens. -/
def Grammar.FindsInnermost (grammar : Grammar) (rule : Nat) (callers : List Nat) (name : String) :
    Prop :=
  ∃ resolution declarer outer attr variant,
    grammar.scopes.resolution? rule name = some resolution ∧
    grammar.rules.Innermost name (rule :: callers) declarer outer ∧
    grammar.rules[declarer]?.bind (·.attribute? name) = some attr ∧
    attr.typeText = resolution.type ∧
    (grammar.frame (rule :: callers)).declaring? resolution.declaring =
      some ⟨variant, declarer, outer.length + 1⟩ ∧
    ((grammar.context rule).access name).find? (grammar.frame (rule :: callers)) ≠ none ∧
    (grammar.rules.DistinctVariants →
      ((grammar.context rule).access name).find? (grammar.frame (rule :: callers)) =
        some ⟨variant, declarer, outer.length + 1⟩)

namespace Grammar

variable {grammar : Grammar}

theorem variants_access {rule : Nat} {name : String} {resolution : ScopeResolution}
    (h : grammar.scopes.resolution? rule name = some resolution) :
    ((grammar.context rule).access name).variants =
      resolution.declaring.filterMap fun other => grammar.rules.scopeNames[other]?.join := by
  simp only [BuildContext.access, context, h, Option.map_some, Option.getD_some]

/-- A frame whose rule has a reference that may mean it is found. -/
theorem find?_frame_ne_none {access : AttributeAccess} {chain inner outer : List Nat}
    {declarer : Nat} {variant : String} (hSplit : chain = inner ++ declarer :: outer)
    (hVariant : grammar.rules.scopeNames[declarer]? = some (some variant))
    (hMem : variant ∈ access.variants) : access.find? (grammar.frame chain) ≠ none := by
  subst hSplit
  induction inner with
  | nil =>
    rw [List.nil_append, AttributeAccess.find?, attribute?_frame_self hVariant (if_pos hMem)]
    exact nofun
  | cons rule inner ih =>
    rw [List.cons_append, AttributeAccess.find?, attribute?_frame_cons]
    intro hNone
    exact ih (Option.or_eq_none_iff.1 hNone).2

/-- Every reference of a checked grammar has a variant to look for. -/
theorem Checked.variants_ne_nil (h : grammar.Checked) {rule : Nat} {definition : Rule}
    (hRule : grammar.rules[rule]? = some definition) {reference : Ident}
    (hReference : reference ∈ definition.references) :
    ((grammar.context rule).access reference.name).variants ≠ [] := by
  obtain ⟨resolution, hResolution, hResolve⟩ := h.resolution hRule hReference
  obtain ⟨declarer, hMem, hDeclares⟩ := Rules.exists_declaring_of_resolve hResolve
  obtain ⟨variant, hVariant⟩ := Rules.exists_variant hDeclares
  rw [variants_access hResolution]
  refine List.ne_nil_of_mem (List.mem_filterMap.2 ⟨declarer, hMem, ?_⟩ : variant ∈ _)
  rw [hVariant]
  rfl

/-- Every reference of a checked grammar finds the innermost declaration. -/
theorem Checked.findsInnermost (h : grammar.Checked) {entry rule : Nat} {callers : List Nat}
    (hEntry : entry ∈ grammar.rules.entries)
    (hChain : grammar.rules.CallChain entry (rule :: callers)) {definition : Rule}
    (hRule : grammar.rules[rule]? = some definition) {code : Fragment}
    (hCode : code ∈ definition.fragments) {name : String} (hName : name ∈ code.attributeNames) :
    grammar.FindsInnermost rule callers name := by
  obtain ⟨reference, hReference, rfl⟩ := Rule.exists_reference hCode hName
  obtain ⟨resolution, hResolution, hResolve⟩ := h.resolution hRule hReference
  obtain ⟨⟨declarer, outer, attr, hInnermost, hMem, hAttr, hType⟩, hDeclaring⟩ :=
    Rules.exists_innermost_of_resolve hResolve hEntry hChain
  have hInnermost' := hInnermost
  obtain ⟨inner, hSplit, hDeclares, hInner⟩ := hInnermost'
  obtain ⟨variant, hVariant⟩ := Rules.exists_variant hDeclares
  have hVariants : variant ∈ ((grammar.context rule).access reference.name).variants := by
    rw [variants_access hResolution]
    exact List.mem_filterMap.2 ⟨declarer, hMem, by rw [hVariant]; rfl⟩
  refine ⟨resolution, declarer, outer, attr, variant, hResolution, hInnermost, hAttr, hType,
    ?declaring, find?_frame_ne_none hSplit hVariant hVariants, ?distinct⟩
  case declaring =>
    rw [hSplit, Frame.declaring?, attribute?_frame_append]
    · exact attribute?_frame_self hVariant (if_pos hMem)
    · intro other hOther variant level _
      exact if_neg fun hOtherMem => hInner other hOther (hDeclaring other hOtherMem)
  case distinct =>
    intro hDistinct
    rw [hSplit, AttributeAccess.find?, attribute?_frame_append]
    · exact attribute?_frame_self hVariant (if_pos hVariants)
    · intro other hOther otherVariant level hOtherVariant
      refine if_neg fun hOtherMem => hInner other hOther ?_
      rw [variants_access hResolution] at hOtherMem
      obtain ⟨same, hSame, hSameVariant⟩ := List.mem_filterMap.1 hOtherMem
      obtain rfl := hDistinct same other otherVariant (Option.join_eq_some_iff.1 hSameVariant)
        hOtherVariant
      exact hDeclaring same hSame

end Grammar

end TreeGrammar
