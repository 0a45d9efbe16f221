import Fota.Text.Blank
import Fota.Text.Field

/-
  This file shows what taking a text apart gives: a text with
  blanks around it, one with a separator or a marker in it, and
  one of several fields.

  Key definitions include:
    * `Text.Gap`
    * `Text.Pads`
    * `Text.Tight`

  The main statements are `Text.trim_of_pads`,
  `Text.cut?_eq_some_iff`, `Text.upTo?_eq_some_iff` and
  `Text.map_trim_fields`.
-/

namespace Fota

namespace Text

------------------------------------------------------------
-- Blanks around a Text
------------------------------------------------------------

/- A text of blanks, of any length. -/
structure Gap where
  blanks : List Char
  blank : ∀ c ∈ blanks, isBlank c = true

namespace Gap

/- Blanks that are checked one by one. -/
def of
    (blanks : List Char)
    (hBlank : blanks.all isBlank = true) : Gap where
  blanks := blanks
  blank := List.all_eq_true.mp hBlank

/- No blanks at all. -/
def none : Gap where
  blanks := []
  blank := nofun

/- The blanks of two texts, one behind the other. -/
def append
    (first second : Gap) : Gap where
  blanks := first.blanks ++ second.blanks
  blank := by
    intro c hMem
    rcases List.mem_append.mp hMem with hFirst | hSecond
    · exact first.blank c hFirst
    · exact second.blank c hSecond

end Gap

/- A text stands in another with nothing but blanks around it. -/
def Pads
    (text cs : List Char) : Prop :=
  ∃ front back : Gap, cs = front.blanks ++ text ++ back.blanks

/- A text that neither begins nor ends with a blank. -/
structure Tight
    (cs : List Char) : Prop where
  first : ∀ c, cs.head? = some c → isBlank c = false
  last : ∀ c, cs.getLast? = some c → isBlank c = false

variable {text cs us : List Char}

theorem trimEnd_append_blanks
    (hBlank : ∀ u ∈ us, isBlank u = true)
    (cs : List Char) :
    trimEnd (cs ++ us) = trimEnd cs := by
  have hReverse : ∀ u ∈ us.reverse, isBlank u = true := by
    intro u hMem
    exact hBlank u (List.mem_reverse.mp hMem)
  unfold trimEnd
  rw [List.reverse_append,
    List.dropWhile_append_of_pos hReverse]

/- Trailing blanks are trimmed from any text. -/
theorem trim_append_gap
    (gap : Gap)
    (cs : List Char) :
    trim (cs ++ gap.blanks) = trim cs := by
  unfold trim trimStart
  rw [List.dropWhile_append]
  split
  · next hNothing =>
      have hStart : cs.dropWhile isBlank = [] :=
        List.isEmpty_iff.mp hNothing
      have hGap : gap.blanks.dropWhile isBlank = [] := by
        rw [← List.append_nil gap.blanks,
          List.dropWhile_append_of_pos gap.blank]
        rfl
      rw [hStart, hGap]
  · exact trimEnd_append_blanks gap.blank _

/- What is around a text is trimmed along with its own blanks. -/
theorem trim_of_pads
    (hPads : Pads text cs) :
    trim cs = trim text := by
  rcases hPads with ⟨front, back, rfl⟩
  rw [trim_append_gap, trim_blanks_append front.blank]

theorem dropWhile_of_head
    (hHead : ∀ c, cs.head? = some c → isBlank c = false) :
    cs.dropWhile isBlank = cs := by
  cases cs with
  | nil =>
      rfl
  | cons c cs =>
      have hKept := hHead c rfl
      exact List.dropWhile_cons_of_neg (by simp [hKept])

/- A text without blanks at its ends is not trimmed. -/
theorem Tight.trim_eq
    (hTight : Tight cs) :
    trim cs = cs := by
  have hReverse :
      ∀ c, cs.reverse.head? = some c → isBlank c = false := by
    intro c hHead
    rw [List.head?_reverse] at hHead
    exact hTight.last c hHead
  unfold trim trimStart trimEnd
  rw [dropWhile_of_head hTight.first,
    dropWhile_of_head hReverse, List.reverse_reverse]

/- A text without any blanks has none at its ends. -/
theorem tight_of_no_blank
    (hKept : ∀ c ∈ cs, isBlank c = false) :
    Tight cs where
  first := by
    intro c hHead
    exact hKept c (List.mem_of_mem_head? hHead)
  last := by
    intro c hLast
    exact hKept c (List.mem_of_mem_getLast? hLast)

/- The ends of a text are those of its first and last part. -/
theorem tight_append
    {last : List Char}
    (hFirst : Tight cs)
    (hLast : Tight last)
    (hSome : cs ≠ [])
    (hSome' : last ≠ [])
    (middle : List Char) :
    Tight (cs ++ middle ++ last) where
  first := by
    intro c hHead
    have hKept : cs.head?.isSome = true :=
      List.isSome_head?.mpr hSome
    rw [List.append_assoc, List.head?_append,
      Option.or_of_isSome hKept] at hHead
    exact hFirst.first c hHead
  last := by
    intro c hEnd
    have hKept : last.getLast?.isSome = true :=
      List.getLast?_isSome.mpr hSome'
    rw [List.getLast?_append, Option.or_of_isSome hKept] at hEnd
    exact hLast.last c hEnd

theorem blank_of_mem_takeWhile
    (cs : List Char) :
    ∀ c ∈ cs.takeWhile isBlank, isBlank c = true :=
  List.all_eq_true.mp List.all_takeWhile

/- Only blanks are taken from the front of a text. -/
theorem exists_trimStart
    (cs : List Char) :
    ∃ front : Gap, cs = front.blanks ++ trimStart cs :=
  ⟨⟨cs.takeWhile isBlank, blank_of_mem_takeWhile cs⟩,
    List.takeWhile_append_dropWhile.symm⟩

/- Only blanks are taken from its back. -/
theorem exists_trimEnd
    (cs : List Char) :
    ∃ back : Gap, cs = trimEnd cs ++ back.blanks := by
  refine ⟨⟨(cs.reverse.takeWhile isBlank).reverse, ?_⟩, ?_⟩
  · intro c hMem
    exact
      blank_of_mem_takeWhile _ c (List.mem_reverse.mp hMem)
  · unfold trimEnd
    rw [← List.reverse_append, List.takeWhile_append_dropWhile,
      List.reverse_reverse]

/- A trimmed text stands in its text with blanks around it. -/
theorem pads_trim
    (cs : List Char) :
    Pads (trim cs) cs := by
  rcases exists_trimStart cs with ⟨front, hFront⟩
  rcases exists_trimEnd (trimStart cs) with ⟨back, hBack⟩
  refine ⟨front, back, ?_⟩
  rw [List.append_assoc]
  unfold trim
  rw [← hBack]
  exact hFront

/- It neither begins nor ends with a blank. -/
theorem tight_trim
    (cs : List Char) :
    Tight (trim cs) := by
  have hHead :
      ∀ (us : List Char) (c : Char),
        (us.dropWhile isBlank).head? = some c →
          isBlank c = false := by
    intro us c hHead
    have hFirst := List.head?_dropWhile_not isBlank us
    rw [hHead] at hFirst
    exact hFirst
  constructor
  · intro c hFirst
    rcases exists_trimEnd (trimStart cs) with ⟨back, hBack⟩
    apply hHead cs c
    change (trimStart cs).head? = some c
    rw [hBack, List.head?_append]
    exact Option.or_eq_some_iff.mpr (.inl hFirst)
  · intro c hLast
    unfold trim trimEnd at hLast
    rw [List.getLast?_reverse] at hLast
    exact hHead _ c hLast

/- A text is tight exactly when nothing is trimmed from it. -/
instance
    (cs : List Char) :
    Decidable (Tight cs) :=
  decidable_of_iff (trim cs = cs)
    ⟨fun hTrim => hTrim ▸ tight_trim cs, Tight.trim_eq⟩

/- What is trimmed behind a tight text is not part of it. -/
theorem Tight.trim_append
    (hTight : Tight text)
    (hSome : text ≠ [])
    (cs : List Char) :
    trim (text ++ cs) = text ++ trimEnd cs := by
  have hStart :
      ∀ c, (text ++ cs).head? = some c → isBlank c = false := by
    intro c hHead
    rw [List.head?_append,
      Option.or_of_isSome (List.isSome_head?.mpr hSome)] at hHead
    exact hTight.first c hHead
  have hEnd :
      ∀ c, text.reverse.head? = some c → isBlank c = false := by
    intro c hHead
    rw [List.head?_reverse] at hHead
    exact hTight.last c hHead
  unfold trim trimStart trimEnd
  rw [dropWhile_of_head hStart, List.reverse_append,
    List.dropWhile_append]
  split
  · next hNothing =>
      have hRest : cs.reverse.dropWhile isBlank = [] :=
        List.isEmpty_iff.mp hNothing
      rw [hRest, dropWhile_of_head hEnd, List.reverse_reverse,
        List.reverse_nil, List.append_nil]
  · rw [List.reverse_append, List.reverse_reverse]

------------------------------------------------------------
-- Separators
------------------------------------------------------------

variable
  {sep : Char}
  {front rest : List Char}

/- A text is cut at its first separator. -/
theorem cut?_eq_some_iff :
    cut? sep cs = some (front, rest) ↔
      cs = front ++ sep :: rest ∧ sep ∉ front := by
  induction cs generalizing front with
  | nil =>
      simp [cut?]
  | cons c cs ih =>
      rw [cut?]
      by_cases hSep : c = sep
      · rw [if_pos hSep]
        cases front with
        | nil =>
            simp [hSep, eq_comm]
        | cons f front =>
            refine iff_of_false (by simp) ?_
            rintro ⟨hText, hFree⟩
            rw [List.cons_append, List.cons.injEq] at hText
            rw [← hText.1, hSep] at hFree
            exact hFree List.mem_cons_self
      · rw [if_neg hSep, Option.map_eq_some_iff]
        cases front with
        | nil =>
            refine iff_of_false ?_ ?_
            · rintro ⟨sides, -, hSides⟩
              simp at hSides
            · rintro ⟨hText, -⟩
              rw [List.nil_append, List.cons.injEq] at hText
              exact hSep hText.1
        | cons f front =>
            rw [List.mem_cons, not_or]
            constructor
            · rintro ⟨sides, hCut, hSides⟩
              rw [Prod.mk.injEq, List.cons.injEq] at hSides
              rcases hSides with ⟨⟨rfl, rfl⟩, rfl⟩
              rcases ih.mp hCut with ⟨rfl, hFree⟩
              exact ⟨rfl, Ne.symm hSep, hFree⟩
            · rintro ⟨hText, -, hFree⟩
              rw [List.cons_append, List.cons.injEq] at hText
              rcases hText with ⟨rfl, rfl⟩
              exact
                ⟨(front, rest), ih.mpr ⟨rfl, hFree⟩, rfl⟩

------------------------------------------------------------
-- Fields
------------------------------------------------------------

/- A text with separators has a last one. -/
theorem exists_last_field
    (hSep : sep ∈ cs) :
    ∃ front last,
      cs = front ++ sep :: last ∧ sep ∉ last := by
  rcases List.eq_append_cons_of_mem
    (List.mem_reverse.mpr hSep) with
    ⟨last, front, hText, hFree⟩
  refine ⟨front.reverse, last.reverse, ?_, ?_⟩
  · rw [← List.reverse_reverse cs, hText]
    simp
  · rw [List.mem_reverse]
    exact hFree

/- The fields of joined texts are these texts. -/
theorem fields_intercalate
    {texts : List (List Char)}
    (hSome : texts ≠ [])
    (hFree : ∀ text ∈ texts, sep ∉ text) :
    fields sep ([sep].intercalate texts) = texts := by
  induction texts with
  | nil =>
      exact absurd rfl hSome
  | cons text texts ih =>
      have hText := hFree text List.mem_cons_self
      by_cases hLater : texts = []
      · subst hLater
        rw [List.intercalate_singleton, fields_of_not_mem hText]
      · have hFreeLater : ∀ text ∈ texts, sep ∉ text := by
          intro later hMem
          exact hFree later (List.mem_cons_of_mem text hMem)
        rw [List.intercalate_cons_of_ne_nil hLater,
          List.append_assoc, List.singleton_append,
          fields_append hText, ih hLater hFreeLater]

/- A separator that is not blank is in no gap. -/
theorem Gap.not_mem
    (hSep : isBlank sep = false)
    (gap : Gap) :
    sep ∉ gap.blanks := by
  intro hMem
  rw [gap.blank sep hMem] at hSep
  cases hSep

/- Blanks in front of a text change its first field only. -/
theorem map_trim_fields_gap_append
    (hSep : isBlank sep = false)
    (gap : Gap)
    (cs : List Char) :
    (fields sep (gap.blanks ++ cs)).map trim =
      (fields sep cs).map trim := by
  have hTrim :
      ∀ us, trim (gap.blanks ++ us) = trim us :=
    fun us => trim_blanks_append gap.blank
  have hGap := gap.not_mem hSep
  by_cases hMem : sep ∈ cs
  · rcases List.eq_append_cons_of_mem hMem with
      ⟨first, rest, rfl, hFirst⟩
    have hFirst' : sep ∉ gap.blanks ++ first := by
      rw [List.mem_append, not_or]
      exact ⟨hGap, hFirst⟩
    rw [← List.append_assoc, fields_append hFirst',
      fields_append hFirst, List.map_cons, List.map_cons, hTrim]
  · have hMem' : sep ∉ gap.blanks ++ cs := by
      rw [List.mem_append, not_or]
      exact ⟨hGap, hMem⟩
    rw [fields_of_not_mem hMem', fields_of_not_mem hMem,
      List.map_singleton, List.map_singleton, hTrim]

/- Blanks behind a text change its last field only. -/
theorem map_trim_fields_append_gap
    (hSep : isBlank sep = false)
    (gap : Gap)
    (cs : List Char) :
    (fields sep (cs ++ gap.blanks)).map trim =
      (fields sep cs).map trim := by
  have hGap := gap.not_mem hSep
  by_cases hMem : sep ∈ cs
  · rcases exists_last_field hMem with
      ⟨front, last, rfl, hLast⟩
    have hLast' : sep ∉ last ++ gap.blanks := by
      rw [List.mem_append, not_or]
      exact ⟨hLast, hGap⟩
    rw [List.append_assoc, List.cons_append,
      fields_append_fields, fields_append_fields,
      fields_of_not_mem hLast', fields_of_not_mem hLast,
      List.map_append, List.map_append, List.map_singleton,
      List.map_singleton, trim_append_gap]
  · have hMem' : sep ∉ cs ++ gap.blanks := by
      rw [List.mem_append, not_or]
      exact ⟨hMem, hGap⟩
    rw [fields_of_not_mem hMem', fields_of_not_mem hMem,
      List.map_singleton, List.map_singleton, trim_append_gap]

/- Trimming a text does not change its trimmed fields. -/
theorem map_trim_fields_trimEnd
    (hSep : isBlank sep = false)
    (cs : List Char) :
    (fields sep (trimEnd cs)).map trim =
      (fields sep cs).map trim := by
  rcases exists_trimEnd cs with ⟨back, hText⟩
  calc
    (fields sep (trimEnd cs)).map trim =
        (fields sep (trimEnd cs ++ back.blanks)).map trim :=
      (map_trim_fields_append_gap hSep back _).symm
    _ = (fields sep cs).map trim := by
      rw [← hText]

theorem map_trim_fields
    (hSep : isBlank sep = false)
    (cs : List Char) :
    (fields sep (trim cs)).map trim =
      (fields sep cs).map trim := by
  rcases exists_trimStart cs with ⟨front, hText⟩
  calc
    (fields sep (trim cs)).map trim =
        (fields sep (trimStart cs)).map trim :=
      map_trim_fields_trimEnd hSep (trimStart cs)
    _ = (fields sep
          (front.blanks ++ trimStart cs)).map trim :=
      (map_trim_fields_gap_append hSep front _).symm
    _ = (fields sep cs).map trim := by
      rw [← hText]

------------------------------------------------------------
-- Markers
------------------------------------------------------------

variable
  {m : Char}
  {ms : List Char}

/-
  A marker whose first character comes once in it does not
  begin in front of another one and end inside it.
-/
theorem prefix_of_prefix_append
    (hOnce : m ∉ ms)
    (hPrefix : ms <+: front ++ m :: rest) :
    ms <+: front := by
  rcases List.prefix_or_prefix_of_prefix hPrefix
    (List.prefix_append front (m :: rest)) with
    hFront | ⟨tail, rfl⟩
  · exact hFront
  · cases tail with
    | nil =>
        exact (List.append_nil front).symm ▸ List.prefix_refl front
    | cons t tail =>
        rw [List.prefix_append_right_inj, List.cons_prefix_cons]
          at hPrefix
        rw [hPrefix.1] at hOnce
        exact absurd (by simp) hOnce

/- Without a marker there is nothing in front of one. -/
theorem upTo?_eq_none_iff :
    upTo? (m :: ms) cs = none ↔ ¬ (m :: ms) <:+: cs := by
  induction cs with
  | nil =>
      simp [upTo?]
  | cons c cs ih =>
      rw [upTo?, List.infix_cons_iff, ← leads_iff_prefix]
      by_cases hLeads : leads (m :: ms) (c :: cs) = true
      · simp [hLeads]
      · rw [if_neg hLeads, Option.map_eq_none_iff, ih,
          or_iff_right hLeads]

/- The text in front of the first marker holds none. -/
theorem upTo?_eq_some_iff
    (hOnce : m ∉ ms) :
    upTo? (m :: ms) cs = some front ↔
      (∃ rest, cs = front ++ (m :: ms) ++ rest) ∧
        ¬ (m :: ms) <:+: front := by
  induction cs generalizing front with
  | nil =>
      simp [upTo?]
  | cons c cs ih =>
      rw [upTo?]
      by_cases hLeads : leads (m :: ms) (c :: cs) = true
      · rw [if_pos hLeads, Option.some.injEq]
        have hPrefix := leads_iff_prefix.mp hLeads
        constructor
        · rintro rfl
          rcases hPrefix with ⟨rest, hText⟩
          exact ⟨⟨rest, hText.symm⟩, by simp⟩
        · rintro ⟨⟨rest, hText⟩, hFree⟩
          cases front with
          | nil =>
              rfl
          | cons f front =>
              rw [hText, List.append_assoc, List.cons_append,
                List.cons_prefix_cons] at hPrefix
              have hEarlier :=
                prefix_of_prefix_append hOnce hPrefix.2
              refine absurd ?_ hFree
              rw [hPrefix.1]
              exact
                (List.cons_prefix_cons.mpr
                  ⟨rfl, hEarlier⟩).isInfix
      · rw [if_neg hLeads, Option.map_eq_some_iff]
        have hPrefix : ¬ (m :: ms) <+: (c :: cs) :=
          hLeads ∘ leads_iff_prefix.mpr
        cases front with
        | nil =>
            refine iff_of_false (by simp) ?_
            rintro ⟨⟨rest, hText⟩, -⟩
            exact hPrefix ⟨rest, hText.symm⟩
        | cons f front =>
            rw [List.infix_cons_iff, not_or]
            constructor
            · rintro ⟨found, hFound, hEq⟩
              rw [List.cons.injEq] at hEq
              rcases hEq with ⟨rfl, rfl⟩
              rcases ih.mp hFound with ⟨⟨rest, rfl⟩, hFree⟩
              refine ⟨⟨rest, rfl⟩, ?_, hFree⟩
              intro hEarlier
              apply hPrefix
              rw [List.append_assoc]
              exact
                hEarlier.trans
                  (List.prefix_append (c :: found) _)
            · rintro ⟨⟨rest, hText⟩, -, hFree⟩
              rw [List.cons_append, List.cons_append,
                List.cons.injEq] at hText
              rcases hText with ⟨rfl, rfl⟩
              exact ⟨front, ih.mpr ⟨⟨rest, rfl⟩, hFree⟩, rfl⟩

end Text

end Fota
