/-!
# Finite sets of labels

Labels are strings, ordered by their characters' code points. A set keeps its labels in this order
and without repetition, so that two sets with the same members are the same set and their members
are listed in one order.

## Main definitions

* `LabelSet`: a finite set of labels
* `LabelSet.insert`, `LabelSet.union`, `LabelSet.inter`: its operations

## Main results

* `LabelSet.mem_insert`, `LabelSet.mem_union`, `LabelSet.mem_inter`: the members of the results
* `LabelSet.ext`: sets with the same members are equal
-/

namespace TreeGrammar

/-- A finite set of labels: its members in increasing order. -/
structure LabelSet where
  toList : List String
  sorted : toList.Pairwise (· < ·)
  deriving DecidableEq

namespace LabelSet

/-- The set without members. -/
def empty : LabelSet := ⟨[], .nil⟩

instance : EmptyCollection LabelSet := ⟨empty⟩

instance : Inhabited LabelSet := ⟨empty⟩

instance : Membership String LabelSet := ⟨fun set label => label ∈ set.toList⟩

instance (label : String) (set : LabelSet) : Decidable (label ∈ set) :=
  inferInstanceAs (Decidable (label ∈ set.toList))

theorem mem_def {label : String} {set : LabelSet} : label ∈ set ↔ label ∈ set.toList := Iff.rfl

/-- A list in increasing order with one more member, at its place. -/
def insertSorted (label : String) : List String → List String
  | [] => [label]
  | x :: xs =>
    if label < x then label :: x :: xs
    else if label = x then x :: xs
    else x :: insertSorted label xs

@[simp] theorem mem_insertSorted {label other : String} {list : List String} :
    other ∈ insertSorted label list ↔ other = label ∨ other ∈ list := by
  induction list with
  | nil => simp [insertSorted]
  | cons x xs ih =>
    rw [insertSorted]
    split
    · simp
    · split
      · next h => subst h; simp
      · simp [ih, or_left_comm]

theorem pairwise_insertSorted {label : String} {list : List String}
    (h : list.Pairwise (· < ·)) : (insertSorted label list).Pairwise (· < ·) := by
  induction list with
  | nil => simp [insertSorted]
  | cons x xs ih =>
    obtain ⟨hx, hxs⟩ := List.pairwise_cons.1 h
    rw [insertSorted]
    split
    · next hlt =>
      refine List.pairwise_cons.2 ⟨fun y hy => ?_, h⟩
      rcases List.mem_cons.1 hy with rfl | hy
      · exact hlt
      · exact String.lt_trans hlt (hx y hy)
    · split
      · exact h
      · next hnlt hne =>
        refine List.pairwise_cons.2 ⟨fun y hy => ?_, ih hxs⟩
        rcases mem_insertSorted.1 hy with rfl | hy
        · exact Decidable.byContradiction fun hn =>
            hne (String.le_antisymm (String.not_lt.1 hn) (String.not_lt.1 hnlt))
        · exact hx y hy

/-- The set with one more member. -/
def insert (set : LabelSet) (label : String) : LabelSet :=
  ⟨insertSorted label set.toList, pairwise_insertSorted set.sorted⟩

@[simp] theorem mem_insert {set : LabelSet} {label other : String} :
    other ∈ set.insert label ↔ other = label ∨ other ∈ set :=
  mem_insertSorted

/-- The set of one label. -/
def singleton (label : String) : LabelSet := empty.insert label

/-- The set of the members of a list. -/
def ofList (labels : List String) : LabelSet := labels.foldl insert empty

/-- The members of both sets together. -/
def union (a b : LabelSet) : LabelSet := b.toList.foldl insert a

theorem mem_foldl_insert {label : String} (list : List String) (set : LabelSet) :
    label ∈ list.foldl insert set ↔ label ∈ set ∨ label ∈ list := by
  induction list generalizing set with
  | nil => simp
  | cons x xs ih => simp [ih, or_assoc, or_left_comm]

@[simp] theorem mem_union {label : String} {a b : LabelSet} :
    label ∈ a.union b ↔ label ∈ a ∨ label ∈ b :=
  mem_foldl_insert ..

@[simp] theorem mem_ofList {label : String} {list : List String} :
    label ∈ ofList list ↔ label ∈ list := by
  rw [ofList, mem_foldl_insert]
  exact ⟨fun h => h.resolve_left List.not_mem_nil, Or.inr⟩

/-- The members that the two sets share. -/
def inter (a b : LabelSet) : LabelSet :=
  ⟨a.toList.filter (· ∈ b), a.sorted.filter _⟩

@[simp] theorem mem_inter {label : String} {a b : LabelSet} :
    label ∈ a.inter b ↔ label ∈ a ∧ label ∈ b := by
  simp [inter, mem_def]

theorem ne_of_lt {x y : String} (h : x < y) : x ≠ y := by
  rintro rfl
  exact String.lt_irrefl _ h

/-- Sets with the same members are equal. -/
theorem ext {a b : LabelSet} (h : ∀ label, label ∈ a ↔ label ∈ b) : a = b := by
  obtain ⟨as, ha⟩ := a
  obtain ⟨bs, hb⟩ := b
  have : as = bs := by
    refine List.Perm.eq_of_pairwise (fun x y _ _ hxy hyx => ?_) ha hb ?_
    · exact absurd (String.lt_trans hxy hyx) (String.lt_irrefl _)
    · refine (List.perm_ext_iff_of_nodup ?_ ?_).2 h
      · exact List.Pairwise.imp ne_of_lt ha
      · exact List.Pairwise.imp ne_of_lt hb
  subst this
  rfl

/-- The order of sets: their members' lists are compared lexicographically. -/
def compare (a b : LabelSet) : Ordering :=
  if a.toList < b.toList then .lt else if a = b then .eq else .gt

end LabelSet

end TreeGrammar
