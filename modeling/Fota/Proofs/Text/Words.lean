import Fota.Text.Utf8
import Fota.Proofs.Text.Numerals

/-
  This file shows how words are read from text: which numerals
  are words, and that reading them byte by byte in words, with
  each product and each sum checked, never wraps and never
  refuses a number that is a word.

  Key definitions include:
    * `Decimal.numeral`
    * `Decimal.appendByte?`
    * `Decimal.readBytes?`
    * `Decimal.Appends`
    * `Decimal.Refuses`
    * `Decimal.Run`

  The main statement is `Decimal.words_read_exactly`.
-/

namespace Fota

namespace Decimal

------------------------------------------------------------
-- Written Numerals
------------------------------------------------------------

/- The decimal numeral of a number behind leading zeros. -/
def numeral
    (zeros n : Nat) : List Char :=
  List.replicate zeros '0' ++ Nat.toDigits 10 n

variable
  {cs : List Char}
  {c : Char}
  {n : Nat}

/- A digit has a value below ten, its code less that of zero. -/
theorem digitValue_lt
    (hDigit : c.isDigit = true) :
    digitValue c < 10 ∧ c.toNat = 48 + digitValue c := by
  have hRange := isDigit_iff.mp hDigit
  have hValue : digitValue c = c.toNat - 48 :=
    rfl
  omega

/- A digit is the numeral of its value. -/
theorem toDigits_digitValue
    (hDigit : c.isDigit = true) :
    Nat.toDigits 10 (digitValue c) = [c] := by
  rcases digitValue_lt hDigit with ⟨hSmall, hCode⟩
  have hSame : (digitValue c).digitChar.toNat = c.toNat := by
    rw [Nat.toNat_digitChar_of_lt_ten hSmall, hCode]
  rw [Nat.toDigits_of_lt_base hSmall, Char.toNat_inj.mp hSame]

/- Digits behind the numeral of a number continue the numeral. -/
theorem toDigits_append
    (hPos : 0 < n)
    (hDigits : ∀ c ∈ cs, c.isDigit = true) :
    Nat.toDigits 10 n ++ cs =
      Nat.toDigits 10 (Nat.ofDigitChars 10 cs n) := by
  induction cs generalizing n with
  | nil =>
      rw [List.append_nil, Nat.ofDigitChars_nil]
  | cons c cs ih =>
      rw [List.forall_mem_cons] at hDigits
      have hSmall := (digitValue_lt hDigits.1).1
      have hGrown : 0 < 10 * n + digitValue c := by
        omega
      calc
        Nat.toDigits 10 n ++ c :: cs =
            Nat.toDigits 10 n ++
              Nat.toDigits 10 (digitValue c) ++ cs := by
          rw [toDigits_digitValue hDigits.1, List.append_assoc]
          rfl
        _ = Nat.toDigits 10 (10 * n + digitValue c) ++ cs := by
          rw [Nat.toDigits_append_toDigits (by decide) hPos
            hSmall]
        _ = Nat.toDigits 10 (Nat.ofDigitChars 10 (c :: cs) n) :=
          ih hGrown hDigits.2

/- A number is denoted by its numeral. -/
theorem denotes_numeral
    (zeros n : Nat) :
    Denotes (numeral zeros n) n := by
  refine ⟨?_, ?_, ?_⟩
  · exact
      List.append_ne_nil_of_right_ne_nil _ Nat.toDigits_ne_nil
  · intro c hMem
    rcases List.mem_append.mp hMem with hZero | hDigit
    · rw [List.eq_of_mem_replicate hZero]
      rfl
    · exact
        Nat.isDigit_of_mem_toDigits (by decide) (Nat.le_refl 10)
          hDigit
  · rw [numeral, Nat.ofDigitChars_append,
      Nat.ofDigitChars_replicate_zero, Nat.mul_zero,
      Nat.ofDigitChars_toDigits (by decide) (Nat.le_refl 10)]

/-
  Every text of digits is a numeral: its zeros in front are the
  leading zeros, up to the first other digit or the last zero.
-/
theorem exists_numeral
    (hDenotes : Denotes cs n) :
    ∃ zeros, cs = numeral zeros n := by
  rcases hDenotes with ⟨hSome, hDigits, rfl⟩
  induction cs with
  | nil =>
      exact absurd rfl hSome
  | cons c cs ih =>
      rw [List.forall_mem_cons] at hDigits
      have hValue :
          Nat.ofDigitChars 10 (c :: cs) 0 =
            Nat.ofDigitChars 10 cs (digitValue c) := by
        rw [Nat.ofDigitChars_cons, Nat.mul_zero, Nat.zero_add]
        rfl
      rw [hValue]
      rcases Nat.eq_zero_or_pos (digitValue c) with
        hZero | hPos
      · have hHead : c = '0' := by
          have hCode := (digitValue_lt hDigits.1).2
          rw [hZero] at hCode
          exact Char.toNat_inj.mp hCode
        subst hHead
        rw [hZero]
        cases cs with
        | nil =>
            exact ⟨0, rfl⟩
        | cons d ds =>
            rcases ih (List.cons_ne_nil d ds) hDigits.2 with
              ⟨zeros, hZeros⟩
            exact
              ⟨zeros + 1,
                congrArg (List.cons '0') hZeros⟩
      · have hNumeral := toDigits_append hPos hDigits.2
        rw [toDigits_digitValue hDigits.1] at hNumeral
        exact ⟨0, hNumeral⟩

/- The numerals are the texts that denote a number. -/
theorem denotes_iff_exists_numeral :
    Denotes cs n ↔ ∃ zeros, cs = numeral zeros n := by
  constructor
  · exact exists_numeral
  · rintro ⟨zeros, rfl⟩
    exact denotes_numeral zeros n

/- A text denotes one number only. -/
theorem Denotes.unique
    {m : Nat}
    (hFirst : Denotes cs m)
    (hSecond : Denotes cs n) :
    m = n :=
  hFirst.value.symm.trans hSecond.value

/- What is read as a word is a numeral of a word. -/
theorem isSome_readWord?_iff :
    (readWord? cs).isSome = true ↔ Fits UInt32.size cs := by
  rw [Option.isSome_iff_exists]
  simp only [readWord?_eq_some_iff]
  constructor
  · rintro ⟨w, hDenotes⟩
    exact ⟨w.toNat, w.toNat_lt, hDenotes⟩
  · rintro ⟨n, hBelow, hDenotes⟩
    refine ⟨UInt32.ofNat n, ?_⟩
    rw [UInt32.toNat_ofNat_of_lt' hBelow]
    exact hDenotes

/- The numeral of a number is read just if that is a word. -/
theorem readWord?_numeral
    (zeros n : Nat) :
    readWord? (numeral zeros n) =
      if n ≤ 4294967295 then
        some (UInt32.ofNat n)
      else
        none := by
  have hDenotes := denotes_numeral zeros n
  split
  · next hWord =>
      have hBelow : n < UInt32.size :=
        Nat.lt_succ_of_le hWord
      rw [readWord?_eq_some_iff, UInt32.toNat_ofNat_of_lt' hBelow]
      exact hDenotes
  · next hLarge =>
      cases hRead : readWord? (numeral zeros n) with
      | none =>
          rfl
      | some w =>
          have hSame :=
            hDenotes.unique (readWord?_eq_some_iff.mp hRead)
          have hBelow := w.toNat_lt
          omega

example : readWord? "0004294967295".toList = some 4294967295 := by
  decide

example : readWord? "4294967296".toList = none := by
  decide

------------------------------------------------------------
-- Reading in Words
------------------------------------------------------------

/- The result of an operation on words, when it did not wrap. -/
def unwrapped?
    (w : UInt32)
    (n : Nat) : Option UInt32 :=
  if w.toNat = n then some w else none

theorem unwrapped?_eq_some_iff
    {v w : UInt32} :
    unwrapped? w n = some v ↔ v = w ∧ w.toNat = n := by
  unfold unwrapped?
  split
  · next hExact =>
      rw [Option.some.injEq, eq_comm, and_iff_left hExact]
  · next hWrapped =>
      exact iff_of_false nofun fun h => hWrapped h.2

/- A byte that is the code of a digit. -/
def IsDigitByte
    (byte : UInt8) : Prop :=
  48 ≤ byte ∧ byte ≤ 57

instance
    (byte : UInt8) :
    Decidable (IsDigitByte byte) := by
  unfold IsDigitByte
  infer_instance

/-
  Append the digit of a byte to a word, as long as neither the
  product nor the sum wraps.
-/
def appendByte?
    (u : UInt32)
    (byte : UInt8) : Option UInt32 :=
  if IsDigitByte byte then do
    let digit := (byte - 48).toUInt32
    let tenfold ← unwrapped? (u * 10) (u.toNat * 10)
    unwrapped? (tenfold + digit) (tenfold.toNat + digit.toNat)
  else
    none

/- The word that bytes denote, read one byte at a time. -/
def readBytes?
    (bytes : List UInt8) : Option UInt32 :=
  if bytes = [] then none else bytes.foldlM appendByte? 0

/-
  A digit is appended to a word, and each operation on the way
  has the result that it has on numbers.
-/
structure Appends
    (u : UInt32)
    (byte : UInt8)
    (v : UInt32) : Prop where
  digit : IsDigitByte byte
  offset : (byte - 48).toUInt32.toNat = byte.toNat - 48
  product : (u * 10).toNat = u.toNat * 10
  sum :
    (u * 10 + (byte - 48).toUInt32).toNat =
      (u * 10).toNat + (byte - 48).toUInt32.toNat
  result : v = u * 10 + (byte - 48).toUInt32

/-
  A word refuses a byte that is no digit, and a digit with which
  the number is no word any more.
-/
def Refuses
    (u : UInt32)
    (byte : UInt8) : Prop :=
  ¬ IsDigitByte byte ∨
    UInt32.size ≤ u.toNat * 10 + (byte.toNat - 48)

/- The words on the way from the first one to the last one. -/
inductive Run :
    UInt32 → List UInt8 → UInt32 → Prop
| done (w : UInt32) : Run w [] w
| step
    {u v w : UInt32}
    {byte : UInt8}
    {bytes : List UInt8}
    (hStep : Appends u byte v)
    (hRest : Run v bytes w) :
    Run u (byte :: bytes) w

------------------------------------------------------------
-- Appending a Digit
------------------------------------------------------------

variable
  {u v w : UInt32}
  {byte : UInt8}
  {bytes : List UInt8}

/- The code of zero is taken off a digit without a borrow. -/
theorem IsDigitByte.offset
    (hDigit : IsDigitByte byte) :
    (byte - 48).toUInt32.toNat = byte.toNat - 48 := by
  rw [UInt8.toNat_toUInt32, UInt8.toNat_sub_of_le _ _ hDigit.1]
  rfl

theorem appendByte?_eq_some_iff :
    appendByte? u byte = some v ↔ Appends u byte v := by
  unfold appendByte?
  split
  · next hDigit =>
      simp only [Option.bind_eq_bind, Option.bind_eq_some_iff,
        unwrapped?_eq_some_iff]
      constructor
      · rintro ⟨_, ⟨rfl, hProduct⟩, rfl, hSum⟩
        exact ⟨hDigit, hDigit.offset, hProduct, hSum, rfl⟩
      · rintro ⟨-, -, hProduct, hSum, rfl⟩
        exact ⟨_, ⟨rfl, hProduct⟩, rfl, hSum⟩
  · next hOther =>
      exact iff_of_false nofun fun h => hOther h.digit

/- Nothing wraps just if the result is that on numbers. -/
theorem appends_iff :
    Appends u byte v ↔
      IsDigitByte byte ∧
        v.toNat = u.toNat * 10 + (byte.toNat - 48) := by
  constructor
  · rintro ⟨hDigit, hOffset, hProduct, hSum, rfl⟩
    exact ⟨hDigit, by rw [hSum, hProduct, hOffset]⟩
  · rintro ⟨hDigit, hValue⟩
    have hOffset := hDigit.offset
    have hBelow := v.toNat_lt
    have hProduct : (u * 10).toNat = u.toNat * 10 := by
      rw [UInt32.toNat_mul]
      exact Nat.mod_eq_of_lt (by change u.toNat * 10 < _; omega)
    have hSum :
        (u * 10 + (byte - 48).toUInt32).toNat =
          (u * 10).toNat + (byte - 48).toUInt32.toNat := by
      rw [UInt32.toNat_add]
      exact Nat.mod_eq_of_lt (by omega)
    refine ⟨hDigit, hOffset, hProduct, hSum, ?_⟩
    rw [← UInt32.toNat_inj, hSum, hProduct, hOffset, hValue]

theorem appendByte?_eq_none_iff :
    appendByte? u byte = none ↔ Refuses u byte := by
  rw [Option.eq_none_iff_forall_ne_some]
  simp only [ne_eq, appendByte?_eq_some_iff, appends_iff,
    not_and]
  constructor
  · intro hNever
    by_cases hDigit : IsDigitByte byte
    · rcases Nat.lt_or_ge
          (u.toNat * 10 + (byte.toNat - 48)) UInt32.size with
        hWord | hLarge
      · exact
          absurd (UInt32.toNat_ofNat_of_lt' hWord)
            (hNever _ hDigit)
      · exact .inr hLarge
    · exact .inl hDigit
  · rintro (hOther | hLarge) v hDigit hValue
    · exact hOther hDigit
    · have hBelow : v.toNat < UInt32.size :=
        v.toNat_lt
      omega

/- The byte of a digit is its code. -/
theorem utf8EncodeChar_of_isDigit
    (hDigit : c.isDigit = true) :
    String.utf8EncodeChar c = [UInt8.ofNat c.toNat] := by
  have hRange := isDigit_iff.mp hDigit
  have hCode : c.val.toNat ≤ 127 :=
    Nat.le_trans hRange.2 (by decide)
  unfold String.utf8EncodeChar
  exact if_pos hCode

/- No other character has such a byte. -/
theorem isDigit_of_mem_utf8EncodeChar
    (hDigit : IsDigitByte byte)
    (hMem : byte ∈ String.utf8EncodeChar c) :
    c.isDigit = true := by
  have hLow : 48 ≤ byte.toNat :=
    UInt8.le_iff_toNat_le.mp hDigit.1
  have hHigh : byte.toNat ≤ 57 :=
    UInt8.le_iff_toNat_le.mp hDigit.2
  have hSame :=
    (Text.mem_utf8EncodeChar (by omega)).mp hMem
  rw [isDigit_iff, hSame]
  exact ⟨hLow, hHigh⟩

/- A character is appended to a word as to a number. -/
theorem map_extend?_eq_some_iff :
    (extend? UInt32.size u.toNat c).map UInt32.ofNat = some v ↔
      c.isDigit = true ∧
        v.toNat = 10 * u.toNat + digitValue c := by
  unfold extend?
  split
  · next hNext =>
      rw [Option.map_some, Option.some.injEq, ← UInt32.toNat_inj,
        UInt32.toNat_ofNat_of_lt' hNext.2,
        and_iff_right hNext.1, eq_comm]
  · next hEnd =>
      refine iff_of_false nofun ?_
      rintro ⟨hDigit, hValue⟩
      have hBelow : v.toNat < UInt32.size :=
        v.toNat_lt
      rw [hValue] at hBelow
      exact hEnd ⟨hDigit, hBelow⟩

theorem lt_of_extend?
    {limit m : Nat}
    (hNext : extend? limit m c = some n) :
    n < limit := by
  unfold extend? at hNext
  split at hNext
  · next hFits =>
      cases hNext
      exact hFits.2
  · cases hNext

/- The bytes of a character are appended as the character is. -/
theorem foldlM_utf8EncodeChar :
    (String.utf8EncodeChar c).foldlM appendByte? u =
      (extend? UInt32.size u.toNat c).map UInt32.ofNat := by
  apply Option.ext
  intro v
  rw [map_extend?_eq_some_iff]
  by_cases hDigit : c.isDigit = true
  · have hRange := isDigit_iff.mp hDigit
    have hByte : (UInt8.ofNat c.toNat).toNat = c.toNat :=
      UInt8.toNat_ofNat_of_lt'
        (Nat.lt_of_le_of_lt hRange.2 (by decide))
    have hDigitByte : IsDigitByte (UInt8.ofNat c.toNat) := by
      unfold IsDigitByte
      rw [UInt8.le_iff_toNat_le, UInt8.le_iff_toNat_le, hByte]
      exact hRange
    have hValue : digitValue c = c.toNat - 48 :=
      rfl
    simp only [utf8EncodeChar_of_isDigit hDigit,
      List.foldlM_cons, List.foldlM_nil, bind_pure]
    rw [appendByte?_eq_some_iff, appends_iff, hByte,
      and_iff_right hDigitByte, and_iff_right hDigit, hValue,
      Nat.mul_comm]
  · refine iff_of_false ?_ fun h => hDigit h.1
    cases hBytes : String.utf8EncodeChar c with
    | nil =>
        exact absurd hBytes String.utf8EncodeChar_ne_nil
    | cons byte bytes =>
        have hRefused : appendByte? u byte = none := by
          rw [appendByte?_eq_none_iff]
          refine .inl fun hDigitByte => hDigit ?_
          apply isDigit_of_mem_utf8EncodeChar hDigitByte
          rw [hBytes]
          exact List.mem_cons_self
        rw [List.foldlM_cons, hRefused]
        exact nofun

/- So are the bytes of a text, character by character. -/
theorem foldlM_flatMap_utf8EncodeChar
    (cs : List Char)
    (u : UInt32) :
    (cs.flatMap String.utf8EncodeChar).foldlM appendByte? u =
      (cs.foldlM (extend? UInt32.size) u.toNat).map
        UInt32.ofNat := by
  induction cs generalizing u with
  | nil =>
      exact congrArg some (UInt32.ofNat_toNat).symm
  | cons c cs ih =>
      rw [List.flatMap_cons, List.foldlM_append,
        foldlM_utf8EncodeChar, List.foldlM_cons]
      cases hNext : extend? UInt32.size u.toNat c with
      | none =>
          rfl
      | some n =>
          have hRest := ih (UInt32.ofNat n)
          rw [UInt32.toNat_ofNat_of_lt' (lt_of_extend? hNext)]
            at hRest
          exact hRest

/- Reading bytes in words is reading the numbers they denote. -/
theorem readBytes?_utf8
    (text : String) :
    readBytes? (Text.utf8 text) = readWord? text.toList := by
  by_cases hText : text = ""
  · subst hText
    rfl
  · have hBytes : Text.utf8 text ≠ [] :=
      mt Text.utf8_eq_nil_iff.mp hText
    rw [readBytes?, if_neg hBytes, Text.utf8_eq_flatMap,
      foldlM_flatMap_utf8EncodeChar]
    cases hChars : text.toList with
    | nil =>
        exact absurd (String.toList_eq_nil_iff.mp hChars) hText
    | cons c cs =>
        rfl

------------------------------------------------------------
-- Runs
------------------------------------------------------------

/- The bytes that are read are those of a run. -/
theorem foldlM_eq_some_iff :
    bytes.foldlM appendByte? u = some w ↔ Run u bytes w := by
  induction bytes generalizing u with
  | nil =>
      rw [List.foldlM_nil, Option.pure_def, Option.some.injEq]
      constructor
      · rintro rfl
        exact .done u
      · intro hRun
        cases hRun
        rfl
  | cons byte bytes ih =>
      rw [List.foldlM_cons]
      simp only [Option.bind_eq_bind, Option.bind_eq_some_iff,
        appendByte?_eq_some_iff, ih]
      constructor
      · rintro ⟨v, hStep, hRest⟩
        exact .step hStep hRest
      · intro hRun
        cases hRun with
        | step hStep hRest =>
            exact ⟨_, hStep, hRest⟩

/- The others are those of a run up to a byte that is refused. -/
theorem foldlM_eq_none_iff :
    bytes.foldlM appendByte? u = none ↔
      ∃ front byte rest v,
        bytes = front ++ byte :: rest ∧
          Run u front v ∧ Refuses v byte := by
  induction bytes generalizing u with
  | nil =>
      rw [List.foldlM_nil]
      refine iff_of_false (Option.some_ne_none u) ?_
      rintro ⟨front, byte, rest, v, hBytes, -⟩
      simp at hBytes
  | cons byte bytes ih =>
      rw [List.foldlM_cons]
      cases hStep : appendByte? u byte with
      | none =>
          refine iff_of_true rfl ?_
          exact
            ⟨[], byte, bytes, u, rfl, .done u,
              appendByte?_eq_none_iff.mp hStep⟩
      | some v =>
          rw [Option.bind_eq_bind, Option.bind_some, ih]
          constructor
          · rintro ⟨front, last, rest, w, rfl, hRun, hRefuses⟩
            exact
              ⟨byte :: front, last, rest, w, rfl,
                .step (appendByte?_eq_some_iff.mp hStep) hRun,
                hRefuses⟩
          · rintro
              ⟨front, last, rest, w, hBytes, hRun, hRefuses⟩
            cases hRun with
            | done =>
                cases hBytes
                rw [appendByte?_eq_none_iff.mpr hRefuses] at hStep
                cases hStep
            | step hFirst hRun =>
                cases hBytes
                rw [appendByte?_eq_some_iff.mpr hFirst] at hStep
                cases hStep
                exact
                  ⟨_, last, rest, w, rfl, hRun, hRefuses⟩

theorem readBytes?_eq_some_iff :
    readBytes? bytes = some w ↔ bytes ≠ [] ∧ Run 0 bytes w := by
  unfold readBytes?
  split
  · next hEmpty =>
      exact iff_of_false nofun fun h => h.1 hEmpty
  · next hSome =>
      rw [foldlM_eq_some_iff, and_iff_right hSome]

theorem readBytes?_eq_none_iff :
    readBytes? bytes = none ↔
      bytes = [] ∨
        ∃ front byte rest u,
          bytes = front ++ byte :: rest ∧
            Run 0 front u ∧ Refuses u byte := by
  unfold readBytes?
  split
  · next hEmpty =>
      exact iff_of_true rfl (.inl hEmpty)
  · next hSome =>
      rw [foldlM_eq_none_iff, or_iff_right hSome]

/-
  A text is read as a word exactly when it consists of digits,
  at least one, and denotes a number that is a word; the word is
  this number. Such texts are the decimal numerals, with any
  count of leading zeros, of the numbers up to 4294967295.

  The bytes of a text give the same when they are read in words,
  one after the other. Nothing wraps on the way: to each word
  the next digit is appended as to a number, and the reading
  ends at the first byte that is no digit or that makes the
  number too large for a word, and at no other byte.
-/
theorem words_read_exactly :
    (∀ cs w, readWord? cs = some w ↔ Denotes cs w.toNat) ∧
    (∀ cs, (readWord? cs).isSome = true ↔
      Fits UInt32.size cs) ∧
    (∀ cs n, Denotes cs n ↔
      ∃ zeros, cs = numeral zeros n) ∧
    (∀ zeros n, readWord? (numeral zeros n) =
      if n ≤ 4294967295 then
        some (UInt32.ofNat n)
      else
        none) ∧
    (∀ text, readWord? text.toList =
      readBytes? (Text.utf8 text)) ∧
    (∀ text w, readWord? text.toList = some w ↔
      text ≠ "" ∧ Run 0 (Text.utf8 text) w) ∧
    (∀ text, readWord? text.toList = none ↔
      text = "" ∨
        ∃ front byte rest u,
          Text.utf8 text = front ++ byte :: rest ∧
            Run 0 front u ∧ Refuses u byte) := by
  refine ⟨?_, ?_, ?_, ?_, ?_, ?_, ?_⟩
  · intro cs w
    exact readWord?_eq_some_iff
  · intro cs
    exact isSome_readWord?_iff
  · intro cs n
    exact denotes_iff_exists_numeral
  · intro zeros n
    exact readWord?_numeral zeros n
  · intro text
    exact (readBytes?_utf8 text).symm
  · intro text w
    rw [← readBytes?_utf8, readBytes?_eq_some_iff, ne_eq,
      Text.utf8_eq_nil_iff]
  · intro text
    rw [← readBytes?_utf8, readBytes?_eq_none_iff,
      Text.utf8_eq_nil_iff]

end Decimal

end Fota
