import Fota.Modem.Version
import Fota.Proofs.Text.Numerals
import Fota.Proofs.Text.Parts

/-
  This file shows that the key of a version text tells which
  version the text names, and that keys are ordered as versions
  are. It holds for every text: the texts of the form of a
  version are told apart from all others, and their parts may be
  any texts.

  Key definitions include:
    * `Version.Release`
    * `Version.Release.number`
    * `Version.Writing`
    * `Version.Writing.Names`

  The main statement is `Version.keys_faithful_and_ordered`.
-/

namespace Fota

open Decimal (Denotes Fits)
open Text (Gap Pads Tight)

namespace Version

------------------------------------------------------------
-- Numbers of Two-Digit Parts
------------------------------------------------------------

/- The largest part that a version may have. -/
def partMax : Nat :=
  99

/- A number with one more part behind it. -/
def withPart
    (n part : Nat) : Nat :=
  100 * n + part

variable
  {ps qs : List Nat}
  {m n : Nat}

/- Two-digit parts keep numbers apart and in order. -/
theorem withPart_lt_and_eq
    {p q : Nat}
    (hFirst : p ≤ partMax)
    (hSecond : q ≤ partMax) :
    (withPart m p < withPart n q ↔ m < n ∨ m = n ∧ p < q) ∧
      (withPart m p = withPart n q ↔ m = n ∧ p = q) := by
  unfold partMax at hFirst hSecond
  unfold withPart
  constructor <;> omega

/-
  So do any parts, as many on both sides: what is in front of
  them is compared first, then the most important part.
-/
theorem foldl_withPart
    (hLength : ps.length = qs.length)
    (hFirst : ∀ p ∈ ps, p ≤ partMax)
    (hSecond : ∀ q ∈ qs, q ≤ partMax) :
    (ps.foldl withPart m < qs.foldl withPart n ↔
        m < n ∨ m = n ∧ ps < qs) ∧
      (ps.foldl withPart m = qs.foldl withPart n ↔
        m = n ∧ ps = qs) := by
  induction ps generalizing qs m n with
  | nil =>
      cases qs with
      | nil =>
          simp
      | cons q qs =>
          cases hLength
  | cons p ps ih =>
      cases qs with
      | nil =>
          cases hLength
      | cons q qs =>
          rw [List.forall_mem_cons] at hFirst hSecond
          rcases ih (m := withPart m p) (n := withPart n q)
            (Nat.succ.inj hLength) hFirst.2 hSecond.2 with
            ⟨hLess, hSame⟩
          rcases withPart_lt_and_eq (m := m) (n := n) hFirst.1
            hSecond.1 with
            ⟨hPartLess, hPartSame⟩
          rw [List.foldl_cons, List.foldl_cons, hLess, hSame,
            hPartLess, hPartSame, List.cons_lt_cons_iff,
            List.cons.injEq]
          exact
            ⟨by rw [or_assoc, and_assoc, ← and_or_left],
              and_assoc⟩

------------------------------------------------------------
-- Releases
------------------------------------------------------------

/-
  A release of the firmware: the pairs of the modem and of the
  application, and whether it is an engineering build.
-/
@[ext]
structure Release where
  engineering : Bool
  modem : Nat × Nat
  application : Nat × Nat
deriving DecidableEq, Repr

namespace Release

/- The parts of a release, the most important first. -/
def parts
    (r : Release) : List Nat :=
  [r.modem.1, r.modem.2, r.application.1, r.application.2]

/- What releases are ordered by: engineering builds come last. -/
def ranks
    (r : Release) : List Nat :=
  r.engineering.toNat :: r.parts

/- Each part of a release has two digits at most. -/
def Regular
    (r : Release) : Prop :=
  ∀ p ∈ r.parts, p ≤ partMax

instance
    (r : Release) :
    Decidable r.Regular := by
  unfold Regular
  infer_instance

/- The number of the pairs of a release. -/
def base
    (r : Release) : Nat :=
  r.modem.1 * 1000000 + r.modem.2 * 10000 +
    r.application.1 * 100 + r.application.2

/- The number of a release. -/
def number
    (r : Release) : Nat :=
  if r.engineering then r.base + 100000000 else r.base

/- The results on the way to the number of a release. -/
def steps
    (r : Release) : List Nat :=
  [r.modem.1 * 1000000, r.modem.2 * 10000,
    r.modem.1 * 1000000 + r.modem.2 * 10000,
    r.application.1 * 100,
    r.modem.1 * 1000000 + r.modem.2 * 10000 +
      r.application.1 * 100,
    r.base, r.number]

variable {r r' : Release}

/- The engineering offset is one more part in front. -/
theorem number_eq
    (r : Release) :
    r.number = r.parts.foldl withPart r.engineering.toNat := by
  unfold number base parts
  simp only [List.foldl_cons, List.foldl_nil, withPart]
  cases r.engineering <;> simp <;> omega

/- No result on the way is too large for a word. -/
theorem Regular.steps_lt
    (hRegular : r.Regular) :
    ∀ n ∈ r.steps, n < UInt32.size := by
  have hSize : UInt32.size = 4294967296 :=
    rfl
  unfold Regular parts partMax at hRegular
  simp only [List.forall_mem_cons, List.not_mem_nil,
    false_implies, implies_true, and_true] at hRegular
  unfold steps number base
  simp only [List.forall_mem_cons, List.not_mem_nil,
    false_implies, implies_true, and_true]
  split <;> omega

theorem Regular.number_lt_iff
    (hRegular : r.Regular)
    (hRegular' : r'.Regular) :
    r.number < r'.number ↔ r.ranks < r'.ranks := by
  have hLength : r.parts.length = r'.parts.length :=
    rfl
  rw [number_eq, number_eq,
    (foldl_withPart hLength hRegular hRegular').1, ranks, ranks,
    List.cons_lt_cons_iff]

/- Releases are the same when what they are ordered by is. -/
theorem ranks_inj :
    r.ranks = r'.ranks ↔ r = r' := by
  constructor
  · intro hRanks
    unfold ranks parts at hRanks
    simp only [List.cons.injEq, and_true] at hRanks
    rcases hRanks with ⟨hMark, hMajor, hMinor, hMajor', hMinor'⟩
    have hEngineering : r.engineering = r'.engineering := by
      cases hFirst : r.engineering <;>
        cases hSecond : r'.engineering <;>
          rw [hFirst, hSecond] at hMark <;> trivial
    exact
      Release.ext hEngineering (Prod.ext hMajor hMinor)
        (Prod.ext hMajor' hMinor')
  · rintro rfl
    rfl

theorem Regular.number_inj
    (hRegular : r.Regular)
    (hRegular' : r'.Regular) :
    r.number = r'.number ↔ r = r' := by
  have hLength : r.parts.length = r'.parts.length :=
    rfl
  rw [number_eq, number_eq,
    (foldl_withPart hLength hRegular hRegular').2, ← ranks_inj,
    ranks, ranks, List.cons.injEq]

/- The release of two pairs of words. -/
def ofWords
    (engineering : Bool)
    (modem application : UInt32 × UInt32) : Release where
  engineering := engineering
  modem := (modem.1.toNat, modem.2.toNat)
  application := (application.1.toNat, application.2.toNat)

/- Words hold the parts of a release. -/
theorem Regular.exists_words
    (hRegular : r.Regular) :
    ∃ modem application,
      r = ofWords r.engineering modem application := by
  have hWord :
      ∀ n ∈ r.parts, n = (UInt32.ofNat n).toNat := by
    intro n hMem
    have hPart : n ≤ 99 := hRegular n hMem
    have hSize : UInt32.size = 4294967296 :=
      rfl
    exact (UInt32.toNat_ofNat_of_lt' (by omega)).symm
  simp only [parts, List.forall_mem_cons, List.not_mem_nil,
    false_implies, implies_true, and_true] at hWord
  rcases hWord with ⟨hMajor, hMinor, hMajor', hMinor'⟩
  exact
    ⟨(.ofNat r.modem.1, .ofNat r.modem.2),
      (.ofNat r.application.1, .ofNat r.application.2),
      Release.ext rfl (Prod.ext hMajor hMinor)
        (Prod.ext hMajor' hMinor')⟩

/- The key of the pairs of a release is its number. -/
theorem Regular.toNat_pack
    {engineering : Bool}
    {modem application : UInt32 × UInt32}
    (hRegular :
      (ofWords engineering modem application).Regular) :
    (pack engineering modem application).toNat =
      (ofWords engineering modem application).number := by
  have hSteps := hRegular.steps_lt
  have hSize : UInt32.size = 2 ^ 32 :=
    rfl
  unfold steps number base ofWords at hSteps
  simp only [List.forall_mem_cons, List.not_mem_nil,
    false_implies, implies_true, and_true, hSize] at hSteps
  unfold pack number base ofWords engineeringOffset
  cases engineering <;>
    simp only [if_true, Bool.false_eq_true, if_false,
      UInt32.toNat_add, UInt32.toNat_mul, UInt32.reduceToNat,
      Nat.mod_add_mod, Nat.add_mod_mod] at hSteps ⊢ <;>
    omega

end Release

------------------------------------------------------------
-- Writing Versions
------------------------------------------------------------

/- A pair as it is written: two texts with a dot between them. -/
structure PairText where
  major : List Char
  minor : List Char
deriving DecidableEq, Repr

namespace PairText

/- The text of a pair. -/
def text
    (p : PairText) : List Char :=
  p.major ++ '.' :: p.minor

/- The first dot parts the pair, and no blanks are around it. -/
structure Parted
    (p : PairText) : Prop where
  major : '.' ∉ p.major
  tight : Tight p.text

/- The texts of a pair denote the parts of a release. -/
structure Names
    (p : PairText)
    (pair : Nat × Nat) : Prop where
  major : Denotes p.major pair.1
  minor : Denotes p.minor pair.2

instance
    (p : PairText)
    (pair : Nat × Nat) :
    Decidable (p.Names pair) :=
  decidable_of_iff
    (Denotes p.major pair.1 ∧ Denotes p.minor pair.2)
    ⟨fun ⟨hMajor, hMinor⟩ => ⟨hMajor, hMinor⟩,
      fun ⟨hMajor, hMinor⟩ => ⟨hMajor, hMinor⟩⟩

variable
  {p : PairText}
  {pair : Nat × Nat}

theorem text_ne_nil
    (p : PairText) :
    p.text ≠ [] := by
  unfold text
  simp

/- A pair of numbers has digits and a dot, nothing else. -/
theorem Names.mem
    (hNames : p.Names pair)
    {c : Char}
    (hMem : c ∈ p.text) :
    c.isDigit = true ∨ c = '.' := by
  rcases List.mem_append.mp hMem with hMajor | hMinor
  · exact .inl (hNames.major.digits c hMajor)
  · rcases List.mem_cons.mp hMinor with hDot | hMinor
    · exact .inr hDot
    · exact .inl (hNames.minor.digits c hMinor)

theorem Names.parted
    (hNames : p.Names pair) :
    p.Parted where
  major := hNames.major.not_mem rfl
  tight := by
    apply Text.tight_of_no_blank
    intro c hMem
    rcases hNames.mem hMem with hDigit | rfl
    · exact Decimal.isBlank_of_isDigit hDigit
    · rfl

/- A pair is read by its two texts. -/
theorem readPair?_eq_some_iff
    {cs : List Char}
    {words : UInt32 × UInt32}
    (hParted : p.Parted)
    (hPads : Pads p.text cs) :
    readPair? cs = some words ↔
      p.Names (words.1.toNat, words.2.toNat) ∧
        words.1.toNat ≤ partMax ∧ words.2.toNat ≤ partMax := by
  have hTrim : Text.trim cs = p.text := by
    rw [Text.trim_of_pads hPads, hParted.tight.trim_eq]
  have hCut :
      Text.cut? '.' (Text.trim cs) =
        some (p.major, p.minor) := by
    rw [hTrim]
    exact Text.cut?_eq_some_iff.mpr ⟨rfl, hParted.major⟩
  have hSmall :
      ∀ w : UInt32, ¬ 99 < w ↔ w.toNat ≤ partMax := by
    intro w
    rw [UInt32.not_lt, UInt32.le_iff_toNat_le]
    rfl
  unfold readPair?
  rw [hCut]
  simp only [Option.bind_eq_bind, Option.bind_some,
    Option.bind_eq_some_iff, Decimal.readWord?_eq_some_iff]
  constructor
  · rintro ⟨major, hMajor, minor, hMinor, hWords⟩
    split at hWords
    · cases hWords
    · next hNone =>
        cases hWords
        rw [not_or, hSmall, hSmall] at hNone
        exact ⟨⟨hMajor, hMinor⟩, hNone⟩
  · rintro ⟨hNames, hParts⟩
    refine
      ⟨words.1, hNames.major, words.2, hNames.minor, if_neg ?_⟩
    rw [not_or, hSmall, hSmall]
    exact hParts

/- A text from which a pair is read has a dot. -/
theorem exists_parted
    {cs : List Char}
    {words : UInt32 × UInt32}
    (hRead : readPair? cs = some words) :
    ∃ p : PairText, p.Parted ∧ Pads p.text cs := by
  unfold readPair? at hRead
  cases hCut : Text.cut? '.' (Text.trim cs) with
  | none =>
      rw [hCut] at hRead
      cases hRead
  | some sides =>
      rcases Text.cut?_eq_some_iff.mp hCut with ⟨hText, hFirst⟩
      have hTight := Text.tight_trim cs
      have hPads := Text.pads_trim cs
      rw [hText] at hTight hPads
      exact ⟨⟨sides.1, sides.2⟩, ⟨hFirst, hTight⟩, hPads⟩

end PairText

/- The engineering marker and what follows it, if it is there. -/
def marking : Option (List Char) → List Char
| none => []
| some rest => engineeringMarker ++ rest

theorem marker_eq :
    engineeringMarker = '_' :: ['E', 'N', 'G'] :=
  rfl

/- The marker is found where it was put. -/
theorem upTo?_marking
    {cs : List Char}
    (hFree : ¬ engineeringMarker <:+: cs)
    (mark : Option (List Char)) :
    Text.upTo? engineeringMarker (cs ++ marking mark) =
      if mark.isSome then some cs else none := by
  rw [marker_eq] at hFree
  cases mark with
  | none =>
      unfold marking
      rw [List.append_nil]
      exact Text.upTo?_eq_none_iff.mpr hFree
  | some rest =>
      unfold marking
      rw [← List.append_assoc]
      exact
        (Text.upTo?_eq_some_iff (by decide)).mpr
          ⟨⟨rest, rfl⟩, hFree⟩

/- The marker is put behind what is unmarked, if at all. -/
theorem exists_marking
    (cs : List Char) :
    ∃ mark,
      cs = unmarked cs ++ marking mark ∧
        ¬ engineeringMarker <:+: unmarked cs := by
  unfold unmarked
  cases hUpTo : Text.upTo? engineeringMarker cs with
  | none =>
      have hFree : ¬ engineeringMarker <:+: cs :=
        Text.upTo?_eq_none_iff.mp hUpTo
      exact ⟨none, (List.append_nil cs).symm, hFree⟩
  | some front =>
      rcases (Text.upTo?_eq_some_iff (by decide)).mp hUpTo with
        ⟨⟨rest, hText⟩, hFree⟩
      refine ⟨some rest, ?_, hFree⟩
      rw [hText, List.append_assoc]
      rfl

/-
  A text with the form of a version: two pairs, an `A` in front
  of the second one, with a comma between them. There may be
  blanks around all of them. The engineering marker and any text
  may stand in front of the comma.
-/
structure Writing where
  start : Gap
  modem : PairText
  behind : Gap
  mark : Option (List Char)
  before : Gap
  inner : Gap
  application : PairText
  stop : Gap

namespace Writing

/- The text in front of the marker, or of the comma. -/
def front
    (w : Writing) : List Char :=
  w.modem.text ++ w.behind.blanks

/- The text between the comma and the end. -/
def back
    (w : Writing) : List Char :=
  'A' :: (w.inner.blanks ++ w.application.text)

/- The whole text. -/
def text
    (w : Writing) : String :=
  String.ofList
    (w.start.blanks ++
      (w.front ++ marking w.mark ++ ',' ::
        (w.before.blanks ++ w.back)) ++
      w.stop.blanks)

/-
  The comma, the dots and the marker are the first ones where a
  reader looks for them. The parts of the pairs are any texts.
-/
structure Shaped
    (w : Writing) : Prop where
  modem : w.modem.Parted
  application : w.application.Parted
  comma : ',' ∉ w.front ++ marking w.mark
  marker : ¬ engineeringMarker <:+: w.front

/- The texts of the parts. -/
def parts
    (w : Writing) : List (List Char) :=
  [w.modem.major, w.modem.minor, w.application.major,
    w.application.minor]

/- The text names a release. -/
structure Names
    (w : Writing)
    (r : Release) : Prop where
  modem : w.modem.Names r.modem
  application : w.application.Names r.application
  engineering : w.mark.isSome = r.engineering
  comma : ',' ∉ marking w.mark
  regular : r.Regular

instance
    (w : Writing)
    (r : Release) :
    Decidable (w.Names r) :=
  decidable_of_iff
    (w.modem.Names r.modem ∧
      w.application.Names r.application ∧
        w.mark.isSome = r.engineering ∧
          ',' ∉ marking w.mark ∧ r.Regular)
    ⟨fun ⟨hModem, hApplication, hMark, hComma, hRegular⟩ =>
        ⟨hModem, hApplication, hMark, hComma, hRegular⟩,
      fun ⟨hModem, hApplication, hMark, hComma, hRegular⟩ =>
        ⟨hModem, hApplication, hMark, hComma, hRegular⟩⟩

variable
  {w : Writing}
  {r : Release}

theorem not_mem_front
    (hNames : w.modem.Names r.modem)
    {c : Char}
    (hDigit : c.isDigit = false)
    (hDot : c ≠ '.')
    (hBlank : Text.isBlank c = false) :
    c ∉ w.front := by
  intro hMem
  rcases List.mem_append.mp hMem with hText | hBehind
  · rcases hNames.mem hText with hIs | hIs
    · rw [hIs] at hDigit
      cases hDigit
    · exact hDot hIs
  · rw [w.behind.blank c hBehind] at hBlank
    cases hBlank

/- A text that names a release has the form of a version. -/
theorem Names.shaped
    (hNames : w.Names r) :
    w.Shaped where
  modem := hNames.modem.parted
  application := hNames.application.parted
  comma := by
    have hFront : ',' ∉ w.front :=
      not_mem_front hNames.modem rfl (by decide) rfl
    rw [List.mem_append, not_or]
    exact ⟨hFront, hNames.comma⟩
  marker := by
    intro hInfix
    have hFront : '_' ∉ w.front :=
      not_mem_front hNames.modem rfl (by decide) rfl
    exact hFront (hInfix.subset List.mem_cons_self)

theorem trim_back
    (hShaped : w.Shaped) :
    Text.trim (w.before.blanks ++ w.back) = w.back := by
  have hFirst : Tight ['A'] := by
    decide
  have hTight : Tight w.back :=
    Text.tight_append hFirst hShaped.application.tight
      (List.cons_ne_nil _ _) w.application.text_ne_nil _
  rw [Text.trim_blanks_append w.before.blank, hTight.trim_eq]

theorem trim_text
    (hShaped : w.Shaped) :
    Text.trim w.text.toList =
      w.front ++ marking w.mark ++ ',' ::
        (w.before.blanks ++ w.back) := by
  have hTight :
      Tight
        (w.front ++ marking w.mark ++ ',' ::
          (w.before.blanks ++ w.back)) := by
    have hEnds :=
      Text.tight_append hShaped.modem.tight
        hShaped.application.tight w.modem.text_ne_nil
        w.application.text_ne_nil
        (w.behind.blanks ++ marking w.mark ++ ',' ::
          (w.before.blanks ++ 'A' :: w.inner.blanks))
    unfold front back
    simpa using hEnds
  unfold text
  rw [String.toList_ofList,
    Text.trim_of_pads ⟨w.start, w.stop, rfl⟩, hTight.trim_eq]

/- A text of this form is read by its two pairs. -/
theorem read?_text
    (hShaped : w.Shaped) :
    read? w.text.toList =
      (readPair? w.front).bind fun modem =>
        (readPair?
            (w.inner.blanks ++ w.application.text)).bind
          fun application =>
            some (pack w.mark.isSome modem application) := by
  have hCut :
      Text.cut? ',' (Text.trim w.text.toList) =
        some
          (w.front ++ marking w.mark, w.before.blanks ++ w.back) := by
    rw [trim_text hShaped]
    exact Text.cut?_eq_some_iff.mpr ⟨rfl, hShaped.comma⟩
  have hUnmarked :
      unmarked (w.front ++ marking w.mark) = w.front := by
    unfold unmarked
    rw [upTo?_marking hShaped.marker]
    unfold marking
    cases w.mark with
    | none =>
        exact List.append_nil w.front
    | some rest =>
        rfl
  have hMarked :
      isMarked (w.front ++ marking w.mark) = w.mark.isSome := by
    unfold isMarked
    rw [upTo?_marking hShaped.marker]
    cases w.mark <;> rfl
  have hAfter :
      Text.after? ['A'] w.back =
        some (w.inner.blanks ++ w.application.text) :=
    Text.after?_eq_some_iff.mpr rfl
  unfold read?
  rw [hCut]
  simp only [Option.bind_eq_bind, Option.bind_some, hUnmarked,
    hMarked, trim_back hShaped, hAfter, Option.pure_def]

/- What is read of such a text is the number of its release. -/
theorem read?_eq_some_iff
    {key : UInt32}
    (hShaped : w.Shaped) :
    read? w.text.toList = some key ↔
      ∃ r, w.Names r ∧ key.toNat = r.number := by
  have hFront : Pads w.modem.text w.front :=
    ⟨.none, w.behind, rfl⟩
  have hInner :
      Pads w.application.text
        (w.inner.blanks ++ w.application.text) :=
    ⟨w.inner, .none, (List.append_nil _).symm⟩
  have hComma : ',' ∉ marking w.mark := by
    intro hMem
    exact hShaped.comma (List.mem_append_right _ hMem)
  rw [read?_text hShaped]
  simp only [Option.bind_eq_some_iff,
    PairText.readPair?_eq_some_iff hShaped.modem hFront,
    PairText.readPair?_eq_some_iff hShaped.application hInner,
    Option.some.injEq]
  constructor
  · rintro
      ⟨modem, ⟨hModem, hModemParts⟩, application,
        ⟨hApplication, hApplicationParts⟩, rfl⟩
    have hRegular :
        (Release.ofWords w.mark.isSome modem
          application).Regular := by
      intro p hMem
      simp only [Release.parts, Release.ofWords, List.mem_cons,
        List.not_mem_nil, or_false] at hMem
      rcases hMem with rfl | rfl | rfl | rfl
      · exact hModemParts.1
      · exact hModemParts.2
      · exact hApplicationParts.1
      · exact hApplicationParts.2
    exact
      ⟨_, ⟨hModem, hApplication, rfl, hComma, hRegular⟩,
        hRegular.toNat_pack⟩
  · rintro ⟨r, hNames, hKey⟩
    have hRegular := hNames.regular
    rcases hRegular.exists_words with ⟨modem, application, hWords⟩
    rw [hWords] at hRegular hKey
    have hParts := hRegular
    simp only [Release.Regular, Release.parts, Release.ofWords,
      List.forall_mem_cons, List.not_mem_nil, false_implies,
      implies_true, and_true] at hParts
    refine
      ⟨modem, ⟨?_, hParts.1, hParts.2.1⟩, application,
        ⟨?_, hParts.2.2⟩, ?_⟩
    · have hModem := hNames.modem
      rw [hWords] at hModem
      exact hModem
    · have hApplication := hNames.application
      rw [hWords] at hApplication
      exact hApplication
    · rw [hNames.engineering, ← UInt32.toNat_inj, hKey]
      exact hRegular.toNat_pack

/- A text that names a release has its number as its key. -/
theorem Names.toNat_key
    (hNames : w.Names r) :
    (key w.text).toNat = r.number := by
  have hSmall : r.number < UInt32.size :=
    hNames.regular.steps_lt r.number (by simp [Release.steps])
  have hNumber : (UInt32.ofNat r.number).toNat = r.number :=
    UInt32.toNat_ofNat_of_lt' hSmall
  have hRead :
      read? w.text.toList = some (UInt32.ofNat r.number) :=
    (read?_eq_some_iff hNames.shaped).mpr ⟨r, hNames, hNumber⟩
  unfold key
  rw [hRead]
  exact hNumber

/- The parts of a release are numbers of two digits at most. -/
theorem Names.fits
    (hNames : w.Names r) :
    ∀ part ∈ w.parts, Fits (partMax + 1) part := by
  have hParts := hNames.regular
  simp only [Release.Regular, Release.parts,
    List.forall_mem_cons, List.not_mem_nil, false_implies,
    implies_true, and_true] at hParts
  rcases hParts with ⟨hMajor, hMinor, hMajor', hMinor'⟩
  simp only [parts, List.forall_mem_cons, List.not_mem_nil,
    false_implies, implies_true, and_true]
  exact
    ⟨⟨_, Nat.lt_succ_of_le hMajor, hNames.modem.major⟩,
      ⟨_, Nat.lt_succ_of_le hMinor, hNames.modem.minor⟩,
      ⟨_, Nat.lt_succ_of_le hMajor', hNames.application.major⟩,
      ⟨_, Nat.lt_succ_of_le hMinor', hNames.application.minor⟩⟩

/- Nothing is read from a text with any other part. -/
theorem read?_of_not_fits
    (hShaped : w.Shaped)
    {part : List Char}
    (hMem : part ∈ w.parts)
    (hOther : ¬ Fits (partMax + 1) part) :
    read? w.text.toList = none := by
  cases hRead : read? w.text.toList with
  | none =>
      rfl
  | some key =>
      rcases (read?_eq_some_iff hShaped).mp hRead with
        ⟨r, hNames, -⟩
      exact absurd (hNames.fits part hMem) hOther

/- A text from which something is read has this form. -/
theorem exists_shaped
    {text : String}
    {key : UInt32}
    (hRead : read? text.toList = some key) :
    ∃ w : Writing, w.Shaped ∧ w.text = text := by
  unfold read? at hRead
  simp only [Option.bind_eq_bind, Option.bind_eq_some_iff]
    at hRead
  rcases hRead with
    ⟨sides, hCut, modem, hModem, rest, hAfter, application,
      hApplication, -⟩
  rcases Text.cut?_eq_some_iff.mp hCut with ⟨hText, hComma⟩
  rcases Text.pads_trim text.toList with ⟨start, stop, hPads⟩
  rcases Text.pads_trim sides.2 with ⟨before, after, hSecond⟩
  rcases exists_marking sides.1 with ⟨mark, hFirst, hMarker⟩
  rcases PairText.exists_parted hModem with
    ⟨p, hParted, lead, behind, hFront⟩
  rcases PairText.exists_parted hApplication with
    ⟨q, hParted', inner, tail, hInner⟩
  rw [Text.after?_eq_some_iff.mp hAfter, hInner] at hSecond
  rw [hFront] at hFirst hMarker
  rw [hFirst] at hComma
  let w : Writing :=
    ⟨start.append lead, p, behind, mark, before, inner, q,
      tail.append (after.append stop)⟩
  have hWhole :
      lead.blanks ++ (w.front ++ marking mark) =
        lead.blanks ++ p.text ++ behind.blanks ++
          marking mark := by
    simp [w, front]
  refine ⟨w, ⟨hParted, hParted', ?_, ?_⟩, ?_⟩
  · rw [← hWhole] at hComma
    intro hMem
    exact hComma (List.mem_append_right _ hMem)
  · intro hInfix
    apply hMarker
    rw [List.append_assoc]
    exact hInfix.trans (List.suffix_append _ _).isInfix
  · apply String.toList_inj.mp
    rw [Writing.text, String.toList_ofList, hPads, hText,
      hFirst, hSecond]
    simp [w, front, back, Gap.append]

end Writing

/-
  The key of a text tells which release the text names, and keys
  are ordered as releases are: plain builds first, then by the
  parts, the most important one first. No step on the way to a
  key goes past the largest word.

  Texts of the form of a version with any other part, and texts
  of any other form, have the key zero.
-/
theorem keys_faithful_and_ordered :
    (∀ (w : Writing) (r : Release), w.Names r →
      (key w.text).toNat = r.number ∧
        ∀ n ∈ r.steps, n < UInt32.size) ∧
    (∀ (w w' : Writing) (r r' : Release),
      w.Names r → w'.Names r' →
        (key w.text = key w'.text ↔ r = r') ∧
          (key w.text < key w'.text ↔ r.ranks < r'.ranks)) ∧
    (∀ w : Writing, w.Shaped →
      ∀ part ∈ w.parts, ¬ Fits (partMax + 1) part →
        key w.text = 0) ∧
    (∀ text, (¬ ∃ w : Writing, w.Shaped ∧ w.text = text) →
      key text = 0) := by
  refine ⟨?_, ?_, ?_, ?_⟩
  · intro w r hNames
    exact ⟨hNames.toNat_key, hNames.regular.steps_lt⟩
  · intro w w' r r' hNames hNames'
    have hNumber := hNames.regular.number_inj hNames'.regular
    have hOrder := hNames.regular.number_lt_iff hNames'.regular
    rw [← UInt32.toNat_inj, UInt32.lt_iff_toNat_lt,
      hNames.toNat_key, hNames'.toNat_key]
    exact ⟨hNumber, hOrder⟩
  · intro w hShaped part hMem hOther
    unfold key
    rw [Writing.read?_of_not_fits hShaped hMem hOther]
    rfl
  · intro text hNone
    unfold key
    cases hRead : read? text.toList with
    | none =>
        rfl
    | some key =>
        exact absurd (Writing.exists_shaped hRead) hNone

/- A release of an engineering build, with blanks and zeros. -/
def engineeringWriting : Writing where
  start := .of [' '] rfl
  modem := ⟨['0', '3'], ['0', '1', '5']⟩
  behind := .of [' '] rfl
  mark := some ['0', '1']
  before := .of [' ', ' '] rfl
  inner := .none
  application := ⟨['0', '0'], ['0', '2']⟩
  stop := .of ['\r'] rfl

/- A text with two parts of its own. -/
def plainWriting
    (minor minor' : List Char) : Writing where
  start := .none
  modem := ⟨['0', '2'], minor⟩
  behind := .none
  mark := none
  before := .none
  inner := .none
  application := ⟨['0', '0'], minor'⟩
  stop := .none

/- An engineering build comes after a later plain build. -/
theorem keys_of_engineering_build :
    let engineering : Release := ⟨true, (3, 15), (0, 2)⟩
    let plain : Release := ⟨false, (2, 99), (0, 1)⟩
    let later := plainWriting ['9', '9'] ['1']
    let tooLarge := plainWriting ['1', '0', '0'] ['1']
    engineeringWriting.text = " 03.015 _ENG01,  A00.02\r" ∧
      engineeringWriting.Names engineering ∧
      later.text = "02.99,A00.1" ∧
      later.Names plain ∧
      (key engineeringWriting.text).toNat = 103150002 ∧
      key later.text < key engineeringWriting.text ∧
      tooLarge.text = "02.100,A00.1" ∧
      tooLarge.Shaped ∧
      key tooLarge.text = 0 ∧
      key "02.06" = 0 := by
  intro engineering plain later tooLarge
  rcases keys_faithful_and_ordered with
    ⟨hFaithful, hOrdered, hOutside, hShapeless⟩
  have hNames : engineeringWriting.Names engineering := by
    decide
  have hNames' : later.Names plain := by
    decide
  have hShaped : tooLarge.Shaped :=
    { modem := ⟨by decide, by decide⟩
      application := ⟨by decide, by decide⟩
      comma := by decide
      marker := by decide }
  have hMem : ['1', '0', '0'] ∈ tooLarge.parts := by
    decide
  have hLarge : ¬ Fits (partMax + 1) ['1', '0', '0'] := by
    rintro ⟨n, hSmall, hDenotes⟩
    have hValue : 100 = n := hDenotes.value
    have hPart : n < 100 := hSmall
    omega
  have hNoComma :
      ¬ ∃ w : Writing, w.Shaped ∧ w.text = "02.06" := by
    rintro ⟨w, -, hText⟩
    have hMem : ',' ∈ w.text.toList := by
      simp [Writing.text]
    rw [hText] at hMem
    revert hMem
    decide
  have hNumber :
      Release.number ⟨true, (3, 15), (0, 2)⟩ = 103150002 := by
    simp [Release.number, Release.base]
  exact
    ⟨rfl, hNames, rfl, hNames',
      (hFaithful _ _ hNames).1.trans hNumber,
      (hOrdered _ _ _ _ hNames' hNames).2.mpr (by decide), rfl,
      hShaped, hOutside _ hShaped _ hMem hLarge,
      hShapeless _ hNoComma⟩

end Version

end Fota
