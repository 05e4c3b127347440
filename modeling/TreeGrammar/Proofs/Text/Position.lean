import Mathlib.Data.List.Infix
import TreeGrammar.Text.Span

/-!
# Positions of a text

A position is one of a text if it is the position after some characters at the start of the text.
Its offset then counts the bytes of these characters, and so lies between two characters. Of two
positions of the same text, the one with the smaller line and column has the smaller offset.

## Main definitions

* `Text.StandsAt`: characters stand in a text at a position
* `Span.IsPlace`: a position is one of a text

## Main results

* `Span.offset_advance`: offsets count bytes
* `Span.le_iff_offset_le`: the order of the positions of a text is that of their offsets
-/

namespace TreeGrammar

open Text

namespace Span

/-- An offset grows by the bytes of the characters that are passed. -/
theorem offset_advance (span : Span) (text : List Char) :
    (span.advance text).offset = span.offset + byteSize text := by
  induction text generalizing span with
  | nil => rfl
  | cons c text ih =>
    have hNext : (span.next c).offset = span.offset + c.utf8Size := by
      rw [next]
      split
      · rfl
      · rfl
    rw [advance_cons, ih, hNext, byteSize_cons, Nat.add_assoc]

end Span

/-- Some characters stand in a text at a position: the position is the one after all characters in
front of them, and its offset is the number of the bytes of these. -/
def Text.StandsAt (source text : List Char) (span : Span) : Prop :=
  ∃ before after, source = before ++ (text ++ after) ∧ span.offset = byteSize before ∧
    span = Span.start.advance before

/-- A position is one of a text: of one of its characters, or of its end. -/
def Span.IsPlace (source : List Char) (span : Span) : Prop :=
  ∃ before after, source = before ++ after ∧ span.offset = byteSize before ∧
    span = Span.start.advance before

namespace Text

variable {source text more before after : List Char} {span : Span}

theorem standsAt_append (before text after : List Char) :
    StandsAt (before ++ (text ++ after)) text (Span.start.advance before) := by
  refine ⟨before, after, rfl, ?_, rfl⟩
  rw [Span.offset_advance]
  exact Nat.zero_add _

theorem StandsAt.isPlace (h : StandsAt source text span) : span.IsPlace source := by
  obtain ⟨before, after, hSource, hOffset, hSpan⟩ := h
  exact ⟨before, text ++ after, hSource, hOffset, hSpan⟩

/-- A part of the characters stands further on in the text. -/
theorem StandsAt.advance (h : StandsAt source (text ++ more) span) :
    StandsAt source more (span.advance text) := by
  obtain ⟨before, after, rfl, -, rfl⟩ := h
  have hAll := standsAt_append (before ++ text) more after
  rwa [Span.advance_append, List.append_assoc, ← List.append_assoc text] at hAll

theorem StandsAt.of_append (h : StandsAt source (text ++ more) span) :
    StandsAt source text span := by
  obtain ⟨before, after, rfl, hOffset, hSpan⟩ := h
  exact ⟨before, more ++ after, by rw [List.append_assoc], hOffset, hSpan⟩

end Text

namespace Span

variable {source : List Char} {a b : Span}

theorem isPlace_append (before after : List Char) :
    (start.advance before).IsPlace (before ++ after) :=
  (standsAt_append before [] after).isPlace

theorem isPlace_start (source : List Char) : start.IsPlace source := isPlace_append [] source

/-- A position has a smaller line than another one, or the same line and a smaller column. -/
def Precedes (a b : Span) : Prop := a.line < b.line ∨ a.line = b.line ∧ a.column < b.column

theorem precedes_next (span : Span) (c : Char) : span.Precedes (span.next c) := by
  rw [Precedes, next]
  split
  · exact .inl (Nat.lt_succ_self _)
  · exact .inr ⟨rfl, Nat.lt_succ_self _⟩

theorem Precedes.trans {c : Span} (hab : a.Precedes b) (hbc : b.Precedes c) : a.Precedes c := by
  unfold Precedes at *
  omega

theorem precedes_advance (span : Span) {text : List Char} (h : text ≠ []) :
    span.Precedes (span.advance text) := by
  induction text generalizing span with
  | nil => exact absurd rfl h
  | cons c text ih =>
    rw [advance_cons]
    by_cases hText : text = []
    · subst hText
      exact span.precedes_next c
    · exact (span.precedes_next c).trans (ih _ hText)

theorem Precedes.le_and_not_le (h : a.Precedes b) : a.le b = true ∧ b.le a = false := by
  unfold Precedes at h
  simp only [le, Bool.or_eq_true, Bool.and_eq_true, decide_eq_true_eq, Bool.or_eq_false_iff,
    Bool.and_eq_false_iff, decide_eq_false_iff_not]
  omega

/-- A position after one that lies further back in the text, and the order of their offsets. -/
theorem le_advance_iff (span : Span) (text : List Char) :
    (span.le (span.advance text) ↔ span.offset ≤ (span.advance text).offset) ∧
      ((span.advance text).le span ↔ (span.advance text).offset ≤ span.offset) := by
  rw [offset_advance]
  cases text with
  | nil => simp [le]
  | cons c text =>
    obtain ⟨hLe, hNot⟩ := (span.precedes_advance (List.cons_ne_nil c text)).le_and_not_le
    have hSize : 0 < byteSize (c :: text) := Nat.add_pos_left c.utf8Size_pos _
    rw [hLe, hNot]
    constructor
    · simp
    · simp only [Bool.false_eq_true, false_iff]
      omega

/-- Positions of a text are ordered like their offsets. -/
theorem le_iff_offset_le (ha : a.IsPlace source) (hb : b.IsPlace source) :
    a.le b ↔ a.offset ≤ b.offset := by
  obtain ⟨before, after, hSource, -, rfl⟩ := ha
  obtain ⟨before', after', hSource', -, rfl⟩ := hb
  -- one of the beginnings of the text is a beginning of the other one
  rcases List.append_eq_append_iff.1 (hSource.symm.trans hSource') with
    ⟨middle, rfl, -⟩ | ⟨middle, rfl, -⟩
  · rw [advance_append]
    exact (le_advance_iff _ middle).1
  · rw [advance_append]
    exact (le_advance_iff _ middle).2

end Span

end TreeGrammar
