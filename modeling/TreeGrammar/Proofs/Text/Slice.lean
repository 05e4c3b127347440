import TreeGrammar.Text.Slice

/-!
# Places between characters

A text can be cut at an offset that lies between two of its characters or at one of its ends.

## Main definitions

* `Text.IsBoundary`: an offset at which a text can be cut

## Main results

* `Text.length_le_byteSize`: a text has at least as many bytes as characters
-/

namespace TreeGrammar

namespace Text

/-- An offset between two characters of a text, or at one of its ends. -/
def IsBoundary (text : List Char) (offset : Nat) : Prop :=
  ∃ front back, text = front ++ back ∧ offset = byteSize front

variable {text front back : List Char} {offset : Nat}

theorem isBoundary_append (front back : List Char) : IsBoundary (front ++ back) (byteSize front) :=
  ⟨front, back, rfl, rfl⟩

theorem IsBoundary.le (h : IsBoundary text offset) : offset ≤ byteSize text := by
  obtain ⟨front, back, rfl, rfl⟩ := h
  rw [byteSize_append]
  exact Nat.le_add_right ..

/-- The characters of a text take at least one byte each. -/
theorem length_le_byteSize (text : List Char) : text.length ≤ byteSize text := by
  induction text with
  | nil => exact Nat.le_refl 0
  | cons c text ih =>
    rw [List.length_cons, byteSize_cons, Nat.add_comm]
    exact Nat.add_le_add c.utf8Size_pos ih

theorem byteSize_pos (h : text ≠ []) : 0 < byteSize text :=
  Nat.lt_of_lt_of_le (List.length_pos_iff.2 h) (length_le_byteSize text)

end Text

end TreeGrammar
