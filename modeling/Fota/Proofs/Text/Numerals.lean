import Fota.Text.Blank
import Fota.Text.Decimal

/-
  This file says which number a text of digits denotes, and
  shows that exactly the numbers below the limit are read.

  Key definitions include:
    * `Decimal.Denotes`
    * `Decimal.Fits`

  The main statement is `Decimal.read?_eq_some_iff`, with a
  lemma for each of the fixed widths.
-/

namespace Fota

namespace Decimal

------------------------------------------------------------
-- Numerals
------------------------------------------------------------

/-
  A text denotes a number when it consists of digits, at least
  one, that have this number as their value in base ten.
-/
structure Denotes
    (cs : List Char)
    (n : Nat) : Prop where
  some : cs ≠ []
  digits : ∀ c ∈ cs, c.isDigit = true
  value : Nat.ofDigitChars 10 cs 0 = n

instance
    (cs : List Char)
    (n : Nat) :
    Decidable (Denotes cs n) :=
  decidable_of_iff
    (cs ≠ [] ∧ cs.all Char.isDigit = true ∧
      Nat.ofDigitChars 10 cs 0 = n)
    ⟨fun ⟨hSome, hDigits, hValue⟩ =>
        ⟨hSome, List.all_eq_true.mp hDigits, hValue⟩,
      fun ⟨hSome, hDigits, hValue⟩ =>
        ⟨hSome, List.all_eq_true.mpr hDigits, hValue⟩⟩

/- A text denotes a number below a limit. -/
def Fits
    (limit : Nat)
    (cs : List Char) : Prop :=
  ∃ n, n < limit ∧ Denotes cs n

instance
    (limit : Nat)
    (cs : List Char) :
    Decidable (Fits limit cs) :=
  decidable_of_iff
    (Nat.ofDigitChars 10 cs 0 < limit ∧
      Denotes cs (Nat.ofDigitChars 10 cs 0))
    ⟨fun hFits => ⟨_, hFits⟩,
      fun ⟨_, hBelow, hDenotes⟩ =>
        hDenotes.value ▸ ⟨hBelow, hDenotes⟩⟩

variable
  {cs : List Char}
  {limit m n : Nat}

/- A digit is in the range of the digits. -/
theorem isDigit_iff
    {c : Char} :
    c.isDigit = true ↔ 48 ≤ c.toNat ∧ c.toNat ≤ 57 := by
  have hCode : c.toNat = c.val.toNat :=
    rfl
  unfold Char.isDigit
  rw [Bool.and_eq_true, decide_eq_true_eq, decide_eq_true_eq,
    ge_iff_le, UInt32.le_iff_toNat_le, UInt32.le_iff_toNat_le,
    hCode]
  rfl

/- No digit is blank. -/
theorem isBlank_of_isDigit
    {c : Char}
    (hDigit : c.isDigit = true) :
    Text.isBlank c = false := by
  have hRange := isDigit_iff.mp hDigit
  simp only [Text.isBlank, Text.blankRanges, List.any_cons,
    List.any_nil, Bool.or_false, Bool.or_eq_false_iff,
    Bool.and_eq_false_iff, decide_eq_false_iff_not]
  omega

/- A character that is no digit is in no numeral. -/
theorem Denotes.not_mem
    (hDenotes : Denotes cs n)
    {c : Char}
    (hOther : c.isDigit = false) :
    c ∉ cs := by
  intro hMem
  rw [hDenotes.digits c hMem] at hOther
  cases hOther

------------------------------------------------------------
-- Reading Numerals
------------------------------------------------------------

/- More digits never make a number smaller. -/
theorem le_ofDigitChars
    (cs : List Char)
    (m : Nat) :
    m ≤ Nat.ofDigitChars 10 cs m := by
  have hPos : 0 < 10 ^ cs.length :=
    Nat.pow_pos (by decide)
  rw [Nat.ofDigitChars_eq_ofDigitChars_zero]
  calc
    m ≤ 10 ^ cs.length * m := Nat.le_mul_of_pos_left m hPos
    _ ≤ 10 ^ cs.length * m + Nat.ofDigitChars 10 cs 0 :=
      Nat.le_add_right _ _

/-
  Digits are appended to a number below the limit as long as the
  result stays below it. As no digit makes a number smaller, the
  limit is checked as well at the end.
-/
theorem foldlM_extend?
    (hBelow : m < limit) :
    cs.foldlM (extend? limit) m = some n ↔
      (∀ c ∈ cs, c.isDigit = true) ∧
        Nat.ofDigitChars 10 cs m = n ∧ n < limit := by
  induction cs generalizing m with
  | nil =>
      simp only [List.foldlM_nil, Option.pure_def,
        Option.some.injEq, List.not_mem_nil, false_implies,
        implies_true, true_and, Nat.ofDigitChars_nil]
      constructor
      · rintro rfl
        exact ⟨rfl, hBelow⟩
      · exact And.left
  | cons c cs ih =>
      have hAppended :
          10 * m + digitValue c =
            10 * m + (c.toNat - '0'.toNat) :=
        rfl
      rw [List.foldlM_cons, List.forall_mem_cons,
        Nat.ofDigitChars_cons, ← hAppended, extend?]
      by_cases hNext :
          c.isDigit ∧ 10 * m + digitValue c < limit
      · rw [if_pos hNext]
        simp only [Option.bind_eq_bind, Option.bind_some,
          ih hNext.2, hNext.1, true_and]
      · rw [if_neg hNext]
        refine iff_of_false (by simp) ?_
        rintro ⟨⟨hDigit, -⟩, rfl, hFits⟩
        have hLe :=
          le_ofDigitChars cs (10 * m + digitValue c)
        exact hNext ⟨hDigit, by omega⟩

/- Exactly the numbers below the limit are read. -/
theorem read?_eq_some_iff
    (hLimit : 0 < limit) :
    read? limit cs = some n ↔ Denotes cs n ∧ n < limit := by
  cases cs with
  | nil =>
      refine iff_of_false (by simp [read?]) ?_
      rintro ⟨hDenotes, -⟩
      exact hDenotes.some rfl
  | cons c cs =>
      rw [read?, foldlM_extend? hLimit]
      constructor
      · rintro ⟨hDigits, hValue, hFits⟩
        exact ⟨⟨List.cons_ne_nil c cs, hDigits, hValue⟩, hFits⟩
      · rintro ⟨hDenotes, hFits⟩
        exact ⟨hDenotes.digits, hDenotes.value, hFits⟩

/- So are the values of a type that holds the numbers below it. -/
theorem map_read?_eq_some_iff
    {α : Type}
    {ofNat : Nat → α}
    {toNat : α → Nat}
    {a : α}
    (hBelow : ∀ a, toNat a < limit)
    (hOfNat : ∀ a, ofNat (toNat a) = a)
    (hToNat : ∀ n, n < limit → toNat (ofNat n) = n) :
    (read? limit cs).map ofNat = some a ↔
      Denotes cs (toNat a) := by
  have hLimit : 0 < limit :=
    Nat.lt_of_le_of_lt (Nat.zero_le _) (hBelow a)
  rw [Option.map_eq_some_iff]
  constructor
  · rintro ⟨n, hRead, rfl⟩
    rcases (read?_eq_some_iff hLimit).mp hRead with
      ⟨hDenotes, hFits⟩
    rw [hToNat n hFits]
    exact hDenotes
  · intro hDenotes
    exact
      ⟨toNat a,
        (read?_eq_some_iff hLimit).mpr ⟨hDenotes, hBelow a⟩,
        hOfNat a⟩

theorem readByte?_eq_some_iff
    {b : UInt8} :
    readByte? cs = some b ↔ Denotes cs b.toNat :=
  map_read?_eq_some_iff UInt8.toNat_lt
    (fun _ => UInt8.ofNat_toNat)
    fun _ => UInt8.toNat_ofNat_of_lt'

theorem readHalf?_eq_some_iff
    {h : UInt16} :
    readHalf? cs = some h ↔ Denotes cs h.toNat :=
  map_read?_eq_some_iff UInt16.toNat_lt
    (fun _ => UInt16.ofNat_toNat)
    fun _ => UInt16.toNat_ofNat_of_lt'

theorem readWord?_eq_some_iff
    {w : UInt32} :
    readWord? cs = some w ↔ Denotes cs w.toNat :=
  map_read?_eq_some_iff UInt32.toNat_lt
    (fun _ => UInt32.ofNat_toNat)
    fun _ => UInt32.toNat_ofNat_of_lt'

/- Whatever the width, what is read fits the limit. -/
theorem fits_of_map_read?
    {α : Type}
    {ofNat : Nat → α}
    {a : α}
    (hLimit : 0 < limit)
    (hRead : (read? limit cs).map ofNat = some a) :
    Fits limit cs := by
  rcases Option.map_eq_some_iff.mp hRead with ⟨n, hRead, -⟩
  rcases (read?_eq_some_iff hLimit).mp hRead with
    ⟨hDenotes, hBelow⟩
  exact ⟨n, hBelow, hDenotes⟩

theorem readByte?_eq_none
    (hOther : ¬ Fits UInt8.size cs) :
    readByte? cs = none := by
  cases hRead : readByte? cs with
  | none =>
      rfl
  | some b =>
      exact
        absurd (fits_of_map_read? (by decide) hRead) hOther

end Decimal

end Fota
