/-
  This file defines text of bounded size. Sizes are counted in
  bytes of UTF-8.

  Key definitions include:
    * `BoundedText`
    * `BoundedText.empty`
    * `BoundedText.ofString?`
-/

namespace Fota

------------------------------------------------------------
-- Bounded Text
------------------------------------------------------------

/- A text of at most `limit` bytes. -/
structure BoundedText
    (limit : Nat) where
  text : String
  fits : text.utf8ByteSize ≤ limit
deriving DecidableEq, Repr

namespace BoundedText

variable {limit : Nat}

/- The empty text fits every bound. -/
def empty : BoundedText limit where
  text := ""
  fits := Nat.zero_le limit

/- A string as bounded text, when it fits. -/
def ofString?
    (limit : Nat)
    (text : String) : Option (BoundedText limit) :=
  if hFits : text.utf8ByteSize ≤ limit then
    some ⟨text, hFits⟩
  else
    none

/- The characters of a bounded text. -/
def toList
    (t : BoundedText limit) : List Char :=
  t.text.toList

/- Bounded texts with equal strings are equal. -/
@[ext]
theorem ext
    {s t : BoundedText limit}
    (hText : s.text = t.text) : s = t := by
  cases s
  cases t
  cases hText
  rfl

/- Bounded text is made exactly of the strings that fit. -/
theorem ofString?_eq_some_iff
    {text : String}
    {t : BoundedText limit} :
    ofString? limit text = some t ↔ text = t.text := by
  unfold ofString?
  constructor
  · intro hSome
    split at hSome
    · simp only [Option.some.injEq] at hSome
      rw [← hSome]
    · cases hSome
  · intro hText
    subst hText
    simp [t.fits]

end BoundedText

end Fota
