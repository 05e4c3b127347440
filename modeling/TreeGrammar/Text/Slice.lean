import TreeGrammar.Text.Span

/-!
# Texts by bytes

Places in a text can be given by the bytes of its UTF-8 encoding in front of them. An offset within
a character, or past the end, is no such place, and a text cannot be cut there.

## Main definitions

* `Text.splitBytes?`: a text, cut in front of a byte
* `Text.takeBytes?`, `Text.dropBytes?`, `Text.slice?`: the text in front of a byte, from a byte on,
  and between two bytes
* `Text.findBytes?`: the bytes in front of the first occurrence of a pattern
-/

namespace TreeGrammar

namespace Text

/-- A text, cut in front of a byte; none if this byte is not the first one of a character. -/
def splitBytes? : Nat → List Char → Option (List Char × List Char)
  | 0, text => some ([], text)
  | _ + 1, [] => none
  | bytes + 1, c :: rest =>
    if c.utf8Size ≤ bytes + 1 then
      (splitBytes? (bytes + 1 - c.utf8Size) rest).map fun (front, back) => (c :: front, back)
    else none

/-- The text in front of a byte; none if this byte is not the first one of a character. -/
def takeBytes? (text : List Char) (offset : Nat) : Option (List Char) :=
  (splitBytes? offset text).map Prod.fst

/-- The text from a byte on; none if this byte is not the first one of a character. -/
def dropBytes? (text : List Char) (offset : Nat) : Option (List Char) :=
  (splitBytes? offset text).map Prod.snd

/-- The text from one byte up to another one; none if they are not in this order, or if one of them
is not the first one of a character. -/
def slice? (text : List Char) (start stop : Nat) : Option (List Char) :=
  if start ≤ stop then do
    let (_, rest) ← splitBytes? start text
    let (slice, _) ← splitBytes? (stop - start) rest
    return slice
  else none

/-- The number of bytes in front of the first occurrence of a pattern. -/
def findBytes? (pattern : List Char) : List Char → Option Nat
  | [] => if pattern.isEmpty then some 0 else none
  | c :: rest =>
    if pattern.isPrefixOf (c :: rest) then some 0
    else (findBytes? pattern rest).map (c.utf8Size + ·)

theorem splitBytes?_append (front back : List Char) :
    splitBytes? (byteSize front) (front ++ back) = some (front, back) := by
  induction front with
  | nil => cases back <;> rfl
  | cons c front ih =>
    obtain ⟨bytes, hBytes⟩ := Nat.exists_eq_succ_of_ne_zero (Nat.ne_of_gt c.utf8Size_pos)
    have hSize : byteSize (c :: front) = bytes + byteSize front + 1 := by
      rw [byteSize_cons, hBytes]
      omega
    rw [hSize, List.cons_append, splitBytes?, if_pos (by omega)]
    have hRest : bytes + byteSize front + 1 - c.utf8Size = byteSize front := by omega
    rw [hRest, ih]
    rfl

theorem takeBytes?_append (front back : List Char) :
    takeBytes? (front ++ back) (byteSize front) = some front := by
  rw [takeBytes?, splitBytes?_append]
  rfl

theorem dropBytes?_append (front back : List Char) :
    dropBytes? (front ++ back) (byteSize front) = some back := by
  rw [dropBytes?, splitBytes?_append]
  rfl

theorem slice?_append (front slice back : List Char) :
    slice? (front ++ (slice ++ back)) (byteSize front) (byteSize front + byteSize slice) =
      some slice := by
  rw [slice?, if_pos (Nat.le_add_right ..), splitBytes?_append, Nat.add_sub_cancel_left]
  simp [splitBytes?_append]

end Text

end TreeGrammar
