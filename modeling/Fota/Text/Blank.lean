/-
  This file defines blank characters and the trimming of text.
  Blank characters are those with the Unicode property
  `White_Space`.

  Key definitions include:
    * `Text.blankRanges`
    * `Text.isBlank`
    * `Text.trimStart`
    * `Text.trimEnd`
    * `Text.trim`

  The main statements say what trimming takes away and which
  characters it keeps.
-/

namespace Fota

namespace Text

------------------------------------------------------------
-- Blank Characters
------------------------------------------------------------

/- The code points with the property `White_Space`, as ranges. -/
def blankRanges : List (Nat × Nat) :=
  [(0x09, 0x0D), (0x20, 0x20), (0x85, 0x85), (0xA0, 0xA0),
    (0x1680, 0x1680), (0x2000, 0x200A), (0x2028, 0x2029),
    (0x202F, 0x202F), (0x205F, 0x205F), (0x3000, 0x3000)]

/- A character is blank when its code point is in a range. -/
def isBlank
    (c : Char) : Bool :=
  blankRanges.any
    (fun range => range.1 ≤ c.toNat && c.toNat ≤ range.2)

------------------------------------------------------------
-- Trimming
------------------------------------------------------------

/- The text without its leading blanks. -/
def trimStart
    (cs : List Char) : List Char :=
  cs.dropWhile isBlank

/- The text without its trailing blanks. -/
def trimEnd
    (cs : List Char) : List Char :=
  (cs.reverse.dropWhile isBlank).reverse

/- The text without blanks at either end. -/
def trim
    (cs : List Char) : List Char :=
  trimEnd (trimStart cs)

------------------------------------------------------------
-- What Is Trimmed and What Is Kept
------------------------------------------------------------

variable
  {c : Char}
  {cs us : List Char}

/- Leading blanks are trimmed. -/
theorem trim_blanks_append
    (hBlank : ∀ u ∈ us, isBlank u = true) :
    trim (us ++ cs) = trim cs := by
  unfold trim trimStart
  rw [List.dropWhile_append_of_pos hBlank]

/- A text without blanks at its ends is not trimmed. -/
theorem trim_of_ends
    {last : Char}
    (hFirst : isBlank c = false)
    (hLast : isBlank last = false) :
    trim (c :: (cs ++ [last])) = c :: (cs ++ [last]) := by
  unfold trim trimStart trimEnd
  rw [List.dropWhile_cons_of_neg (by simp [hFirst]),
    ← List.cons_append, List.reverse_append,
    List.reverse_singleton, List.singleton_append,
    List.dropWhile_cons_of_neg (by simp [hLast]),
    ← List.singleton_append, List.reverse_append,
    List.reverse_reverse, List.reverse_singleton]

/- Characters that are not blank are all kept. -/
theorem count_trim
    (hKept : isBlank c = false)
    (cs : List Char) :
    (trim cs).count c = cs.count c := by
  have hDrop :
      ∀ cs : List Char,
        (cs.dropWhile isBlank).count c = cs.count c := by
    intro cs
    have hNone : c ∉ cs.takeWhile isBlank := by
      intro hMem
      rw [List.all_eq_true.mp List.all_takeWhile c hMem]
        at hKept
      cases hKept
    have hParts := cs.takeWhile_append_dropWhile (p := isBlank)
    calc
      (cs.dropWhile isBlank).count c =
          (cs.takeWhile isBlank).count c +
            (cs.dropWhile isBlank).count c := by
        rw [List.count_eq_zero_of_not_mem hNone, Nat.zero_add]
      _ = cs.count c := by
        rw [← List.count_append, hParts]
  unfold trim trimStart trimEnd
  rw [List.count_reverse, hDrop, List.count_reverse, hDrop]

end Text

end Fota
