/-
  This file defines how a line of text is taken apart: leads,
  tails, separators, markers and quotes.

  Key definitions include:
    * `Text.after?`
    * `Text.before?`
    * `Text.upTo?`
    * `Text.cut?`
    * `Text.fields`
    * `Text.unquote`

  The main statements say which text is a single field and where
  the first of several fields ends.
-/

namespace Fota

namespace Text

------------------------------------------------------------
-- Leads and Tails
------------------------------------------------------------

/- The text behind a lead, when the text begins with it. -/
def after? :
    List Char →
      List Char →
      Option (List Char)
| [], cs => some cs
| _ :: _, [] => none
| l :: lead, c :: cs =>
    if l = c then after? lead cs else none

/- The text before a tail, when the text ends with it. -/
def before?
    (tail cs : List Char) : Option (List Char) :=
  (after? tail.reverse cs.reverse).map List.reverse

/- A text has a lead exactly when it is the lead and a rest. -/
theorem after?_eq_some_iff
    {lead cs rest : List Char} :
    after? lead cs = some rest ↔ cs = lead ++ rest := by
  induction lead generalizing cs with
  | nil =>
      simp [after?]
  | cons l lead ih =>
      cases cs with
      | nil =>
          simp [after?]
      | cons c cs =>
          by_cases hEq : l = c
          · subst hEq
            simp [after?, ih]
          · have hNe : ¬ c = l := fun h => hEq h.symm
            simp [after?, hEq, hNe]

/- Whether a text begins with a lead. -/
def leads
    (lead cs : List Char) : Bool :=
  (after? lead cs).isSome

/- A text has a lead exactly when the lead is a prefix of it. -/
theorem leads_iff_prefix
    {lead cs : List Char} :
    leads lead cs = true ↔ lead <+: cs := by
  unfold leads
  rw [Option.isSome_iff_exists]
  constructor
  · rintro ⟨rest, hRest⟩
    exact ⟨rest, (after?_eq_some_iff.mp hRest).symm⟩
  · rintro ⟨rest, hRest⟩
    exact ⟨rest, after?_eq_some_iff.mpr hRest.symm⟩

/- Without the lead there is nothing behind it. -/
theorem after?_of_not_leads
    {lead cs : List Char}
    (hOther : leads lead cs = false) :
    after? lead cs = none := by
  simpa [leads] using hOther

------------------------------------------------------------
-- Separators and Markers
------------------------------------------------------------

/- The text before the first occurrence of a marker. -/
def upTo?
    (marker : List Char) :
    List Char → Option (List Char)
| [] => if marker = [] then some [] else none
| c :: cs =>
    if leads marker (c :: cs) then
      some []
    else
      (upTo? marker cs).map (c :: ·)

/- The two sides of the first occurrence of a separator. -/
def cut?
    (sep : Char) :
    List Char → Option (List Char × List Char)
| [] => none
| c :: cs =>
    if c = sep then
      some ([], cs)
    else
      (cut? sep cs).map (fun sides => (c :: sides.1, sides.2))

/- Put a character in front of the first of several fields. -/
private def consField
    (c : Char) :
    List (List Char) → List (List Char)
| [] => [[c]]
| field :: fields => (c :: field) :: fields

/-
  The fields between the occurrences of a separator. There is
  one field more than there are separators.
-/
def fields
    (sep : Char) :
    List Char → List (List Char)
| [] => [[]]
| c :: cs =>
    if c = sep then
      [] :: fields sep cs
    else
      consField c (fields sep cs)

/- There is a field in any text. -/
theorem fields_ne_nil
    {sep : Char}
    (cs : List Char) :
    fields sep cs ≠ [] := by
  cases cs with
  | nil =>
      exact List.cons_ne_nil _ _
  | cons c cs =>
      rw [fields]
      split
      · exact List.cons_ne_nil _ _
      · cases fields sep cs <;> exact List.cons_ne_nil _ _

/- A text without separators is a single field. -/
theorem fields_of_not_mem
    {sep : Char}
    {cs : List Char}
    (hSep : sep ∉ cs) :
    fields sep cs = [cs] := by
  induction cs with
  | nil =>
      rfl
  | cons c cs ih =>
      have hHead : c ≠ sep := by
        intro hEq
        exact hSep (by simp [hEq])
      have hTail : sep ∉ cs := by
        intro hMem
        exact hSep (by simp [hMem])
      rw [fields, if_neg hHead, ih hTail]
      rfl

/- The first separator ends the first field. -/
theorem fields_append
    {sep : Char}
    {field rest : List Char}
    (hSep : sep ∉ field) :
    fields sep (field ++ sep :: rest) =
      field :: fields sep rest := by
  induction field with
  | nil =>
      simp [fields]
  | cons c cs ih =>
      have hHead : c ≠ sep := by
        intro hEq
        exact hSep (by simp [hEq])
      have hTail : sep ∉ cs := by
        intro hMem
        exact hSep (by simp [hMem])
      rw [List.cons_append, fields, if_neg hHead, ih hTail]
      rfl

/- The fields on both sides of a separator are the fields. -/
theorem fields_append_fields
    {sep : Char}
    (first second : List Char) :
    fields sep (first ++ sep :: second) =
      fields sep first ++ fields sep second := by
  induction first with
  | nil =>
      simp [fields]
  | cons c cs ih =>
      rw [List.cons_append, fields, fields]
      split
      · rw [ih]
        rfl
      · rw [ih]
        cases hFields : fields sep cs with
        | nil =>
            exact absurd hFields (fields_ne_nil cs)
        | cons field rest =>
            rfl

/- What is in a field is in the text. -/
theorem mem_of_mem_field
    {sep c : Char}
    {field cs : List Char}
    (hField : field ∈ fields sep cs)
    (hMem : c ∈ field) :
    c ∈ cs := by
  induction cs generalizing field with
  | nil =>
      rw [fields, List.mem_singleton] at hField
      rw [hField] at hMem
      cases hMem
  | cons d cs ih =>
      rw [fields] at hField
      split at hField
      · rcases List.mem_cons.mp hField with rfl | hLater
        · cases hMem
        · exact List.mem_cons_of_mem _ (ih hLater hMem)
      · cases hFields : fields sep cs with
        | nil =>
            exact absurd hFields (fields_ne_nil cs)
        | cons head rest =>
            rw [hFields] at hField ih
            rcases List.mem_cons.mp hField with rfl | hLater
            · rcases List.mem_cons.mp hMem with rfl | hMem
              · exact List.mem_cons_self
              · exact
                  List.mem_cons_of_mem _
                    (ih List.mem_cons_self hMem)
            · exact
                List.mem_cons_of_mem _
                  (ih (List.mem_cons_of_mem _ hLater) hMem)

------------------------------------------------------------
-- Quotes
------------------------------------------------------------

/-
  The text between double quotes. A text that is not enclosed
  in two of them stays as it is.
-/
def unquote
    (cs : List Char) : List Char :=
  ((after? ['"'] cs).bind (before? ['"'])).getD cs

/- A text ends with a tail exactly when it has it behind it. -/
theorem before?_eq_some_iff
    {tail cs front : List Char} :
    before? tail cs = some front ↔ cs = front ++ tail := by
  unfold before?
  rw [Option.map_eq_some_iff]
  simp only [after?_eq_some_iff]
  constructor
  · rintro ⟨rest, hReverse, rfl⟩
    rw [← List.reverse_inj, hReverse, List.reverse_append,
      List.reverse_reverse]
  · rintro rfl
    exact
      ⟨front.reverse, List.reverse_append, List.reverse_reverse _⟩

/-
  What is between the quotes is a text without quotes just if
  this text was quoted, or is there without quotes.
-/
theorem unquote_eq_iff
    {text cs : List Char}
    (hText : '"' ∉ text) :
    unquote cs = text ↔
      cs = '"' :: (text ++ ['"']) ∨ cs = text := by
  have hQuoted :
      ∀ inner,
        (after? ['"'] cs).bind (before? ['"']) = some inner ↔
          cs = '"' :: (inner ++ ['"']) := by
    intro inner
    rw [Option.bind_eq_some_iff]
    simp only [after?_eq_some_iff, before?_eq_some_iff]
    constructor
    · rintro ⟨rest, hRest, rfl⟩
      exact hRest
    · intro hInner
      exact ⟨_, hInner, rfl⟩
  unfold unquote
  cases hInner :
      (after? ['"'] cs).bind (before? ['"']) with
  | some inner =>
      have hCs := (hQuoted inner).mp hInner
      rw [Option.getD_some, hCs]
      constructor
      · rintro rfl
        exact .inl rfl
      · rintro (hSame | hPlain)
        · simpa using hSame
        · rw [← hPlain] at hText
          exact absurd List.mem_cons_self hText
  | none =>
      have hOther : cs ≠ '"' :: (text ++ ['"']) := by
        intro hCs
        rw [(hQuoted text).mpr hCs] at hInner
        cases hInner
      rw [Option.getD_none, or_iff_right hOther]

/- Quotes around any text are taken away. -/
theorem unquote_quoted
    (text : List Char) :
    unquote ('"' :: (text ++ ['"'])) = text := by
  have hInner :
      before? ['"'] (text ++ ['"']) = some text :=
    before?_eq_some_iff.mpr rfl
  have hQuoted :
      (after? ['"'] ('"' :: (text ++ ['"']))).bind
          (before? ['"']) =
        some text :=
    hInner
  unfold unquote
  rw [hQuoted, Option.getD_some]

end Text

end Fota
