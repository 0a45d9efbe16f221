import Mathlib.Data.List.Forall2
import Fota.Modem.Report
import Fota.Proofs.Text.Numerals
import Fota.Proofs.Text.Parts

/-
  This file shows that the reports of the modem are read back
  exactly, for all values that they may have and with any blanks
  around their fields. A line with a number that is out of range,
  or is none at all, is not read as another one: it is rejected.

  Key definitions include:
    * `Report.Splits`
    * `Report.Item`
    * `Report.Renders`
    * `Report.Overruns`
    * `Report.Checks`

  The main statement is `Report.read_back_or_rejected`. It rests
  on `Report.fields?_of_splits`, which says which fields a line
  has, and on a lemma for each of the forms of a report.
-/

namespace Fota

namespace Report

------------------------------------------------------------
-- Lines of Fields
------------------------------------------------------------

/- A line has these fields behind a lead. -/
structure Splits
    (lead : List Char)
    (texts : List (List Char))
    (line : String) : Prop where
  free : ∀ text ∈ texts, ',' ∉ text
  joined : line.toList = lead ++ [','].intercalate texts

variable
  {lead : List Char}
  {texts : List (List Char)}
  {line : String}

/- The trimmed fields of the text behind the lead. -/
theorem Splits.map_trim
    (hSplits : Splits lead texts line)
    (hSome : texts ≠ []) :
    (Text.fields ',' ([','].intercalate texts)).map Text.trim =
      texts.map Text.trim := by
  rw [Text.fields_intercalate hSome hSplits.free]

/- Nothing but blanks behind the lead is a single empty field. -/
theorem Splits.trim_eq_nil_iff
    (hSplits : Splits lead texts line)
    (hSome : texts ≠ []) :
    Text.trim ([','].intercalate texts) = [] ↔
      texts.map Text.trim = [[]] := by
  constructor
  · intro hNothing
    rw [← hSplits.map_trim hSome,
      ← Text.map_trim_fields (by decide), hNothing]
    rfl
  · intro hSingle
    rcases List.map_eq_singleton_iff.mp hSingle with
      ⟨text, rfl, hBlank⟩
    rw [List.intercalate_singleton, hBlank]

/- A line has the fields it was joined from, each trimmed. -/
theorem fields?_of_splits
    (hSplits : Splits lead texts line)
    (hSome : texts ≠ []) :
    fields? lead line =
      if texts.map Text.trim = [[]] then
        none
      else
        some (texts.map Text.trim) := by
  have hFields :
      (Text.fields ','
          (Text.trim ([','].intercalate texts))).map Text.trim =
        texts.map Text.trim := by
    rw [Text.map_trim_fields (by decide),
      hSplits.map_trim hSome]
  rw [fields?_of_lead hSplits.joined, hFields]
  exact
    if_congr (hSplits.trim_eq_nil_iff hSome) rfl rfl

------------------------------------------------------------
-- Items of a Report
------------------------------------------------------------

/- What a field says: a number, a quoted text, or anything. -/
inductive Item where
  | number (n : Nat)
  | quoted (text : List Char)
  | any

namespace Item

/- The field spells the item, with any blanks around it. -/
def Spelled :
    Item → List Char → Prop
| number n, cs =>
    ∃ digits, Decimal.Denotes digits n ∧ Text.Pads digits cs
| quoted text, cs =>
    ',' ∉ text ∧ Text.Pads ('"' :: (text ++ ['"'])) cs
| any, cs => ',' ∉ cs

/- A text without a comma has none with blanks around it. -/
theorem comma_not_mem_of_pads
    {text cs : List Char}
    (hText : ',' ∉ text)
    (hPads : Text.Pads text cs) :
    ',' ∉ cs := by
  rcases hPads with ⟨front, back, rfl⟩
  have hFront : ',' ∉ front.blanks := front.not_mem (by decide)
  have hBack : ',' ∉ back.blanks := back.not_mem (by decide)
  simp only [List.mem_append, not_or]
  exact ⟨⟨hFront, hText⟩, hBack⟩

/- No item has a comma. -/
theorem Spelled.comma_not_mem
    {item : Item}
    {cs : List Char}
    (hSpelled : item.Spelled cs) :
    ',' ∉ cs := by
  cases item with
  | number n =>
      rcases hSpelled with ⟨digits, hDenotes, hPads⟩
      exact
        comma_not_mem_of_pads (hDenotes.not_mem (by decide))
          hPads
  | quoted text =>
      rcases hSpelled with ⟨hText, hPads⟩
      refine comma_not_mem_of_pads ?_ hPads
      simpa using hText
  | any =>
      exact hSpelled

/- A spelled number is denoted by the trimmed field. -/
theorem Spelled.denotes
    {n : Nat}
    {cs : List Char}
    (hSpelled : (number n).Spelled cs) :
    Decimal.Denotes (Text.trim cs) n := by
  rcases hSpelled with ⟨digits, hDenotes, hPads⟩
  have hTight : Text.Tight digits :=
    Text.tight_of_no_blank fun c hMem =>
      Decimal.isBlank_of_isDigit (hDenotes.digits c hMem)
  rw [Text.trim_of_pads hPads, hTight.trim_eq]
  exact hDenotes

/- So it is read from the field, whatever its width. -/
theorem Spelled.readWord?
    {w : UInt32}
    {cs : List Char}
    (hSpelled : (number w.toNat).Spelled cs) :
    Decimal.readWord? (Text.trim cs) = some w :=
  Decimal.readWord?_eq_some_iff.mpr hSpelled.denotes

theorem Spelled.readHalf?
    {h : UInt16}
    {cs : List Char}
    (hSpelled : (number h.toNat).Spelled cs) :
    Decimal.readHalf? (Text.trim cs) = some h :=
  Decimal.readHalf?_eq_some_iff.mpr hSpelled.denotes

theorem Spelled.readByte?
    {b : UInt8}
    {cs : List Char}
    (hSpelled : (number b.toNat).Spelled cs) :
    Decimal.readByte? (Text.trim cs) = some b :=
  Decimal.readByte?_eq_some_iff.mpr hSpelled.denotes

/- A quoted text is what is between the quotes. -/
theorem Spelled.ofString?
    {limit : Nat}
    {t : BoundedText limit}
    {cs : List Char}
    (hSpelled : (quoted t.toList).Spelled cs) :
    BoundedText.ofString? limit
        (String.ofList (Text.unquote (Text.trim cs))) =
      some t := by
  have hTrim :
      Text.trim ('"' :: (t.toList ++ ['"'])) =
        '"' :: (t.toList ++ ['"']) :=
    Text.trim_of_ends rfl rfl
  rw [Text.trim_of_pads hSpelled.2, hTrim, Text.unquote_quoted]
  exact BoundedText.ofString?_eq_some_iff.mpr String.ofList_toList

/- What a field spells is decided on the trimmed field. -/
instance
    (item : Item)
    (cs : List Char) :
    Decidable (item.Spelled cs) :=
  match item with
  | number n =>
      decidable_of_iff (Decimal.Denotes (Text.trim cs) n)
        ⟨fun hDenotes => ⟨_, hDenotes, Text.pads_trim cs⟩,
          Spelled.denotes⟩
  | quoted text =>
      decidable_of_iff
        (',' ∉ text ∧
          Text.trim cs = '"' :: (text ++ ['"']))
        ⟨fun ⟨hText, hTrim⟩ =>
            ⟨hText, hTrim ▸ Text.pads_trim cs⟩,
          fun ⟨hText, hPads⟩ =>
            ⟨hText, (Text.trim_of_pads hPads).trans
              (Text.trim_of_ends rfl rfl)⟩⟩
  | any => inferInstanceAs (Decidable (',' ∉ cs))

end Item

/- A line reports these items behind a lead. -/
def Renders
    (lead : List Char)
    (items : List Item)
    (line : String) : Prop :=
  ∃ texts,
    List.Forall₂ Item.Spelled items texts ∧
      line.toList = lead ++ [','].intercalate texts

variable {items : List Item}

/- Such a line is split into one field for each item. -/
theorem Renders.exists_splits
    (hRenders : Renders lead items line) :
    ∃ texts,
      List.Forall₂ Item.Spelled items texts ∧
        Splits lead texts line := by
  rcases hRenders with ⟨texts, hTexts, hLine⟩
  refine ⟨texts, hTexts, ?_, hLine⟩
  clear hLine
  induction hTexts with
  | nil =>
      nofun
  | cons hFirst _ ih =>
      intro text hMem
      rcases List.mem_cons.mp hMem with rfl | hLater
      · exact hFirst.comma_not_mem
      · exact ih text hLater

/- Fields of which the first is a number are there. -/
theorem Renders.exists_fields
    {n : Nat}
    (hRenders : Renders lead (.number n :: items) line) :
    ∃ first texts,
      (Item.number n).Spelled first ∧
        List.Forall₂ Item.Spelled items texts ∧
          fields? lead line =
            some ((first :: texts).map Text.trim) := by
  rcases hRenders.exists_splits with ⟨texts, hTexts, hSplits⟩
  rcases List.forall₂_cons_left_iff.mp hTexts with
    ⟨first, later, hFirst, hLater, rfl⟩
  have hFilled :
      (first :: later).map Text.trim ≠ [[]] := by
    intro hSingle
    rw [List.map_cons, List.cons.injEq] at hSingle
    exact hFirst.denotes.some hSingle.1
  refine ⟨first, later, hFirst, hLater, ?_⟩
  rw [fields?_of_splits hSplits (List.cons_ne_nil first later),
    if_neg hFilled]

------------------------------------------------------------
-- Reports Read Back
------------------------------------------------------------

section ReadBack

variable
  {profile : UInt32}
  {command status : UInt16}
  {result : UInt8}

/- A completion without status and digest has none of them. -/
theorem completion?_short
    (hRenders :
      Renders completionLead
        [.number profile.toNat, .number command.toNat,
          .number result.toNat]
        line) :
    completion? line = some ⟨command, result, 0, .empty⟩ := by
  rcases hRenders.exists_fields with
    ⟨_, _, hProfile, hTexts, hFields⟩
  rcases hTexts with _ | ⟨hCommand, _ | ⟨hResult, ⟨⟩⟩⟩
  simp [completion?, completionTail?, hFields,
    hProfile.readWord?, hCommand.readHalf?, hResult.readByte?]

/- With both of them it has them as they were reported. -/
theorem completion?_full
    {digest : BoundedText digestSize}
    (hRenders :
      Renders completionLead
        (.number profile.toNat :: .number command.toNat ::
          .number result.toNat :: .number status.toNat ::
            .quoted digest.toList :: items)
        line) :
    completion? line =
      some ⟨command, result, status, digest⟩ := by
  rcases hRenders.exists_fields with
    ⟨_, _, hProfile, hTexts, hFields⟩
  rcases hTexts with
    _ | ⟨hCommand, _ | ⟨hResult, _ | ⟨hStatus,
      _ | ⟨hDigest, -⟩⟩⟩⟩
  simp [completion?, completionTail?, hFields,
    hProfile.readWord?, hCommand.readHalf?, hResult.readByte?,
    hStatus.readHalf?, hDigest.ofString?]

/- Class and code of a transfer error are read. -/
theorem transferError?_of_renders
    {cls code : UInt16}
    (hRenders :
      Renders "+UHTTPER:".toList
        (.number profile.toNat :: .number cls.toNat ::
          .number code.toNat :: items)
        line) :
    transferError? line = some (cls, code) := by
  rcases hRenders.exists_fields with
    ⟨_, _, hProfile, hTexts, hFields⟩
  rcases hTexts with _ | ⟨hClass, _ | ⟨hCode, -⟩⟩
  unfold transferError?
  rw [hFields]
  simp [hProfile.readWord?, hClass.readHalf?, hCode.readHalf?]

/- The status of the profile that was asked for is read. -/
theorem contextActive?_of_renders
    {asked : UInt8}
    {status : UInt32}
    (hRenders :
      Renders "+UPSND:".toList
        (.number asked.toNat :: .number 8 ::
          .number status.toNat :: items)
        line) :
    contextActive? asked line = some (status == 1) := by
  rw [← UInt8.toNat_toUInt32] at hRenders
  rcases hRenders.exists_fields with
    ⟨_, _, hProfile, hTexts, hFields⟩
  rcases hTexts with
    _ | ⟨hParameter, _ | ⟨hStatus, -⟩⟩
  have hParameter :
      (Item.number activityParameter.toNat).Spelled _ :=
    hParameter
  unfold contextActive?
  rw [hFields]
  simp [hProfile.readWord?, hParameter.readWord?,
    hStatus.readWord?]

/- The progress of an install is read. -/
theorem progress?_of_renders
    {progress : UInt8}
    (hRenders :
      Renders progressLead (.number progress.toNat :: items)
        line) :
    progress? line = some progress := by
  rcases hRenders.exists_fields with
    ⟨_, _, hProgress, -, hFields⟩
  simp [progress?, hFields, hProgress.readByte?]

end ReadBack

------------------------------------------------------------
-- Reports Rejected
------------------------------------------------------------

/- A field of a line is no number below the limit for it. -/
def Overruns
    (lead : List Char)
    (limits : List Nat)
    (line : String) : Prop :=
  ∃ texts, Splits lead texts line ∧
    ∃ entry ∈ limits.zip texts,
      ¬ Decimal.Fits entry.1 (Text.trim entry.2)

/- A parser gives a result only if each number is in range. -/
def Checks
    {α : Type}
    (lead : List Char)
    (limits : List Nat)
    (parser : String → Option α) : Prop :=
  ∀ line value, parser line = some value →
    ∃ fields, fields? lead line = some fields ∧
      ∀ entry ∈ limits.zip fields,
        Decimal.Fits entry.1 entry.2

/- Such a parser rejects any line with a number out of range. -/
theorem Checks.eq_none
    {α : Type}
    {limits : List Nat}
    {parser : String → Option α}
    (hChecks : Checks lead limits parser)
    (hOverruns : Overruns lead limits line) :
    parser line = none := by
  rcases hOverruns with ⟨texts, hSplits, entry, hMem, hOther⟩
  have hSome : texts ≠ [] := by
    rintro rfl
    rw [List.zip_nil_right] at hMem
    cases hMem
  cases hRead : parser line with
  | none =>
      rfl
  | some value =>
      rcases hChecks line value hRead with
        ⟨fields, hFields, hFits⟩
      rw [fields?_of_splits hSplits hSome] at hFields
      split at hFields
      · cases hFields
      · cases hFields
        have hEntry :
            (entry.1, Text.trim entry.2) ∈
              limits.zip (texts.map Text.trim) := by
          rw [List.zip_map_right]
          exact List.mem_map_of_mem hMem
        exact absurd (hFits _ hEntry) hOther

/- The status of a completion is checked if there is one. -/
theorem fits_of_completionTail?
    {tail : List (List Char)}
    {value : UInt16 × BoundedText digestSize}
    (hRead : completionTail? tail = some value) :
    ∀ entry ∈ [UInt16.size].zip tail,
      Decimal.Fits entry.1 entry.2 := by
  rcases tail with _ | ⟨status, more⟩
  · nofun
  · have hStatus :
        ∃ status', Decimal.readHalf? status = some status' := by
      cases more with
      | nil =>
          rcases Option.bind_eq_some_iff.mp hRead with
            ⟨status', hStatus, -⟩
          exact ⟨status', hStatus⟩
      | cons digest more =>
          rcases Option.bind_eq_some_iff.mp hRead with
            ⟨status', hStatus, -⟩
          exact ⟨status', hStatus⟩
    rcases hStatus with ⟨status', hStatus⟩
    intro entry hMem
    rw [List.zip_cons_cons, List.zip_nil_left,
      List.mem_singleton] at hMem
    have hFits : Decimal.Fits UInt16.size status :=
      Decimal.fits_of_map_read? (by decide) hStatus
    rw [hMem]
    exact hFits

/- Profile, command, result and status of a completion. -/
def completionLimits : List Nat :=
  [UInt32.size, UInt16.size, UInt8.size, UInt16.size]

theorem completion?_checks :
    Checks completionLead completionLimits completion? := by
  intro line value hRead
  rcases Option.bind_eq_some_iff.mp hRead with
    ⟨fields, hFields, hRead⟩
  refine ⟨fields, hFields, ?_⟩
  split at hRead
  · next profile command result tail =>
      simp only [Option.bind_eq_bind, Option.bind_eq_some_iff]
        at hRead
      rcases hRead with
        ⟨_, hProfile, _, hCommand, _, hResult, _, hTail, -⟩
      simp only [completionLimits, List.zip_cons_cons,
        List.forall_mem_cons]
      exact
        ⟨Decimal.fits_of_map_read? (by decide) hProfile,
          Decimal.fits_of_map_read? (by decide) hCommand,
          Decimal.fits_of_map_read? (by decide) hResult,
          fits_of_completionTail? hTail⟩
  · cases hRead

/- Profile, class and code of a transfer error. -/
def errorLimits : List Nat :=
  [UInt32.size, UInt16.size, UInt16.size]

theorem transferError?_checks :
    Checks "+UHTTPER:".toList errorLimits transferError? := by
  intro line value hRead
  rcases Option.bind_eq_some_iff.mp hRead with
    ⟨fields, hFields, hRead⟩
  refine ⟨fields, hFields, ?_⟩
  split at hRead
  · next profile cls code tail =>
      simp only [Option.bind_eq_bind, Option.bind_eq_some_iff]
        at hRead
      rcases hRead with ⟨_, hProfile, _, hClass, _, hCode, -⟩
      simp only [errorLimits, List.zip_cons_cons,
        List.zip_nil_left, List.forall_mem_cons]
      exact
        ⟨Decimal.fits_of_map_read? (by decide) hProfile,
          Decimal.fits_of_map_read? (by decide) hClass,
          Decimal.fits_of_map_read? (by decide) hCode, nofun⟩
  · cases hRead

/- Profile, parameter and status of a context. -/
def contextLimits : List Nat :=
  [UInt32.size, UInt32.size, UInt32.size]

theorem contextActive?_checks
    (asked : UInt8) :
    Checks "+UPSND:".toList contextLimits
      (contextActive? asked) := by
  intro line value hRead
  rcases Option.bind_eq_some_iff.mp hRead with
    ⟨fields, hFields, hRead⟩
  refine ⟨fields, hFields, ?_⟩
  split at hRead
  · next profile parameter tail =>
      rcases Option.bind_eq_some_iff.mp hRead with
        ⟨profile', hProfile, hRead⟩
      split at hRead
      · cases hRead
      · rcases Option.bind_eq_some_iff.mp hRead with
          ⟨parameter', hParameter, hRead⟩
        split at hRead
        · cases hRead
        · simp only [Option.bind_eq_bind,
            Option.bind_eq_some_iff] at hRead
          rcases hRead with ⟨status, hHead, _, hStatus, -⟩
          rcases List.head?_eq_some_iff.mp hHead with
            ⟨more, rfl⟩
          simp only [contextLimits, List.zip_cons_cons,
            List.zip_nil_left, List.forall_mem_cons]
          exact
            ⟨Decimal.fits_of_map_read? (by decide) hProfile,
              Decimal.fits_of_map_read? (by decide) hParameter,
              Decimal.fits_of_map_read? (by decide) hStatus,
              nofun⟩
  · cases hRead

/- The progress of an install. -/
def progressLimits : List Nat :=
  [UInt8.size]

theorem progress?_checks :
    Checks progressLead progressLimits progress? := by
  intro line value hRead
  rcases Option.bind_eq_some_iff.mp hRead with
    ⟨fields, hFields, hRead⟩
  refine ⟨fields, hFields, ?_⟩
  split at hRead
  · next progress more =>
      simp only [progressLimits, List.zip_cons_cons,
        List.zip_nil_left, List.forall_mem_cons]
      exact
        ⟨Decimal.fits_of_map_read? (by decide) hRead, nofun⟩
  · cases hRead

------------------------------------------------------------
-- Contexts Deactivated
------------------------------------------------------------

/- A notice that names the context first. -/
def Pdn
    (form : List Char) : Prop :=
  form = "ME PDN DEACT".toList ∨ form = "NW PDN DEACT".toList

/- A notice that names the context last. -/
def Deact
    (form : List Char) : Prop :=
  form = "ME DEACT".toList ∨ form = "NW DEACT".toList

variable
  {form : List Char}
  {gap : Text.Gap}

/-
  Blanks around a notice are trimmed, and those behind its last
  field are trimmed along with it.
-/
theorem deactivation?_of_splits
    (hTight : Text.Tight form)
    (hForm : form ≠ [])
    (hSplits :
      Splits (contextLead ++ gap.blanks ++ form) texts line) :
    deactivation? line =
      (deactivatedField?
        (form ++
          Text.trimEnd ([','].intercalate texts))).bind
        (fun field => Decimal.readByte? (Text.trim field)) := by
  have hLine := hSplits.joined
  rw [List.append_assoc, List.append_assoc] at hLine
  unfold deactivation?
  rw [Text.after?_eq_some_iff.mpr hLine]
  change Option.bind _ _ = _
  rw [Option.bind_some, Text.trim_blanks_append gap.blank,
    hTight.trim_append hForm]
  rfl

theorem Splits.map_trim_trimEnd
    (hSplits : Splits lead texts line)
    (hSome : texts ≠ []) :
    (Text.fields ','
        (Text.trimEnd ([','].intercalate texts))).map
          Text.trim =
      texts.map Text.trim := by
  rw [Text.map_trim_fields_trimEnd (by decide),
    hSplits.map_trim hSome]

/- The first field is read behind one form of a notice. -/
theorem Pdn.deactivation?_eq
    (hPdn : Pdn form)
    (hSplits :
      Splits (contextLead ++ gap.blanks ++ form) texts line)
    (hSome : texts ≠ []) :
    deactivation? line =
      (texts.map Text.trim).head?.bind Decimal.readByte? := by
  have hTight : Text.Tight form := by
    rcases hPdn with rfl | rfl <;> decide
  have hFilled : form ≠ [] := by
    rcases hPdn with rfl | rfl <;> decide
  rw [deactivation?_of_splits hTight hFilled hSplits,
    deactivatedField?_of_pdn hPdn,
    ← hSplits.map_trim_trimEnd hSome, List.head?_map,
    Option.bind_map]
  rfl

/- The last field is read behind the other one. -/
theorem Deact.deactivation?_eq
    (hDeact : Deact form)
    (hSplits :
      Splits (contextLead ++ gap.blanks ++ form) texts line)
    (hSome : texts ≠ []) :
    deactivation? line =
      (texts.map Text.trim).getLast?.bind
        Decimal.readByte? := by
  have hTight : Text.Tight form := by
    rcases hDeact with rfl | rfl <;> decide
  have hFilled : form ≠ [] := by
    rcases hDeact with rfl | rfl <;> decide
  rw [deactivation?_of_splits hTight hFilled hSplits,
    deactivatedField?_of_deact hDeact,
    ← hSplits.map_trim_trimEnd hSome, List.getLast?_map,
    Option.bind_map]
  rfl

/- The context is read from the field that names it. -/
theorem Pdn.deactivation?_of_renders
    {context : UInt8}
    (hPdn : Pdn form)
    (hRenders :
      Renders (contextLead ++ gap.blanks ++ form)
        (.number context.toNat :: items) line) :
    deactivation? line = some context := by
  rcases hRenders.exists_splits with ⟨texts, hTexts, hSplits⟩
  rcases List.forall₂_cons_left_iff.mp hTexts with
    ⟨first, later, hFirst, -, rfl⟩
  rw [hPdn.deactivation?_eq hSplits
    (List.cons_ne_nil first later)]
  exact hFirst.readByte?

theorem Deact.deactivation?_of_renders
    {context : UInt8}
    (hDeact : Deact form)
    (hRenders :
      Renders (contextLead ++ gap.blanks ++ form)
        [.any, .any, .number context.toNat] line) :
    deactivation? line = some context := by
  rcases hRenders.exists_splits with ⟨texts, hTexts, hSplits⟩
  rcases hTexts with
    _ | ⟨hKind, _ | ⟨hAddress, _ | ⟨hContext, ⟨⟩⟩⟩⟩
  rw [hDeact.deactivation?_eq hSplits (List.cons_ne_nil _ _)]
  exact hContext.readByte?

/- A context out of range is not read as another one. -/
theorem Pdn.deactivation?_eq_none
    (hPdn : Pdn form)
    (hOverruns :
      Overruns (contextLead ++ gap.blanks ++ form)
        [UInt8.size] line) :
    deactivation? line = none := by
  rcases hOverruns with ⟨texts, hSplits, entry, hMem, hOther⟩
  rcases texts with _ | ⟨first, later⟩
  · cases hMem
  · rw [List.zip_cons_cons, List.zip_nil_left,
      List.mem_singleton] at hMem
    subst hMem
    rw [hPdn.deactivation?_eq hSplits
      (List.cons_ne_nil first later)]
    exact Decimal.readByte?_eq_none hOther

theorem Deact.deactivation?_eq_none
    (hDeact : Deact form)
    {text : List Char}
    (hSplits :
      Splits (contextLead ++ gap.blanks ++ form) texts line)
    (hLast : texts.getLast? = some text)
    (hOther :
      ¬ Decimal.Fits UInt8.size (Text.trim text)) :
    deactivation? line = none := by
  have hSome : texts ≠ [] := by
    rintro rfl
    cases hLast
  rw [hDeact.deactivation?_eq hSplits hSome,
    List.getLast?_map, hLast]
  exact Decimal.readByte?_eq_none hOther

------------------------------------------------------------
-- Faithful Reading
------------------------------------------------------------

/-
  For all values, and with any blanks around the fields, each
  report is read back exactly. A digest may be any text of the
  right size without a comma. Fields that are not read may have
  any content, as may those behind the last one that is read.

  When a number that is read is out of its range, or the field is
  no number, then the line as a whole is rejected.
-/
theorem read_back_or_rejected :
    (∀ (line : String) (profile : UInt32) (command : UInt16)
        (result : UInt8),
      Renders completionLead
          [.number profile.toNat, .number command.toNat,
            .number result.toNat]
          line →
        completion? line =
          some ⟨command, result, 0, .empty⟩) ∧
    (∀ (line : String) (profile : UInt32)
        (command status : UInt16) (result : UInt8)
        (digest : BoundedText digestSize) (more : List Item),
      Renders completionLead
          (.number profile.toNat :: .number command.toNat ::
            .number result.toNat :: .number status.toNat ::
              .quoted digest.toList :: more)
          line →
        completion? line =
          some ⟨command, result, status, digest⟩) ∧
    (∀ (line : String) (profile : UInt32) (cls code : UInt16)
        (more : List Item),
      Renders "+UHTTPER:".toList
          (.number profile.toNat :: .number cls.toNat ::
            .number code.toNat :: more)
          line →
        transferError? line = some (cls, code)) ∧
    (∀ (line : String) (asked : UInt8) (status : UInt32)
        (more : List Item),
      Renders "+UPSND:".toList
          (.number asked.toNat :: .number 8 ::
            .number status.toNat :: more)
          line →
        contextActive? asked line = some (status == 1)) ∧
    (∀ (line : String) (progress : UInt8) (more : List Item),
      Renders progressLead (.number progress.toNat :: more)
          line →
        progress? line = some progress) ∧
    (∀ (line : String) (gap : Text.Gap) (form : List Char)
        (context : UInt8) (more : List Item),
      Pdn form →
      Renders (contextLead ++ gap.blanks ++ form)
          (.number context.toNat :: more) line →
        deactivation? line = some context) ∧
    (∀ (line : String) (gap : Text.Gap) (form : List Char)
        (context : UInt8),
      Deact form →
      Renders (contextLead ++ gap.blanks ++ form)
          [.any, .any, .number context.toNat] line →
        deactivation? line = some context) ∧
    (∀ line, Overruns completionLead completionLimits line →
      completion? line = none) ∧
    (∀ line, Overruns "+UHTTPER:".toList errorLimits line →
      transferError? line = none) ∧
    (∀ line asked,
      Overruns "+UPSND:".toList contextLimits line →
        contextActive? asked line = none) ∧
    (∀ line, Overruns progressLead progressLimits line →
      progress? line = none) ∧
    (∀ (line : String) (gap : Text.Gap) (form : List Char),
      Pdn form →
      Overruns (contextLead ++ gap.blanks ++ form)
          [UInt8.size] line →
        deactivation? line = none) ∧
    (∀ (line : String) (gap : Text.Gap) (form : List Char)
        (texts : List (List Char)) (last : List Char),
      Deact form →
      Splits (contextLead ++ gap.blanks ++ form) texts line →
      texts.getLast? = some last →
      ¬ Decimal.Fits UInt8.size (Text.trim last) →
        deactivation? line = none) := by
  refine
    ⟨?_, ?_, ?_, ?_, ?_, ?_, ?_, ?_, ?_, ?_, ?_, ?_, ?_⟩
  · intro _ _ _ _
    exact completion?_short
  · intro _ _ _ _ _ _ _
    exact completion?_full
  · intro _ _ _ _ _
    exact transferError?_of_renders
  · intro _ _ _ _
    exact contextActive?_of_renders
  · intro _ _ _
    exact progress?_of_renders
  · intro _ _ _ _ _
    exact Pdn.deactivation?_of_renders
  · intro _ _ _ _
    exact Deact.deactivation?_of_renders
  · intro _
    exact completion?_checks.eq_none
  · intro _
    exact transferError?_checks.eq_none
  · intro _ asked
    exact (contextActive?_checks asked).eq_none
  · intro _
    exact progress?_checks.eq_none
  · intro _ _ _
    exact Pdn.deactivation?_eq_none
  · intro _ _ _ _ _ hDeact
    exact hDeact.deactivation?_eq_none

/-
  Lines as they may arrive in an update. The last two have a
  command and a context that would be 100 and 1 in fewer bits.
-/
theorem reports_of_an_update :
    completion? "+UUHTTPCR: 0, 100 ,1,200, \"09c1 a98d\"" =
        some ⟨100, 1, 200, ⟨"09c1 a98d", by decide⟩⟩ ∧
      contextActive? 3 "+UPSND: 3,8,01" = some true ∧
      deactivation? "+CGEV:  NW PDN DEACT 2 ,0" = some 2 ∧
      deactivation? "+CGEV: ME DEACT \"IP\",10.0.0.1,255" =
        some 255 ∧
      completion? "+UUHTTPCR: 0,65636,1" = none ∧
      deactivation? "+CGEV: ME PDN DEACT 257" = none := by
  rcases read_back_or_rejected with
    ⟨-, hCompletion, -, hActive, -, hPdn, hDeact, hOverruns, -,
      -, -, hOverruns', -⟩
  let space : Text.Gap := .of [' '] rfl
  refine ⟨?_, ?_, ?_, ?_, ?_, ?_⟩
  · refine hCompletion _ 0 100 200 1 ⟨"09c1 a98d", _⟩ []
      ⟨[" 0".toList, " 100 ".toList, "1".toList, "200".toList,
        " \"09c1 a98d\"".toList], ?_, ?_⟩ <;> decide
  · refine hActive _ 3 1 []
      ⟨[" 3".toList, "8".toList, "01".toList], ?_, ?_⟩ <;>
      decide
  · refine hPdn _ (space.append space) _ 2 [.any] (.inr rfl)
      ⟨[" 2 ".toList, "0".toList], ?_, ?_⟩ <;> decide
  · refine hDeact _ space _ 255 (.inl rfl)
      ⟨[" \"IP\"".toList, "10.0.0.1".toList, "255".toList],
        ?_, ?_⟩ <;> decide
  · exact hOverruns _
      ⟨[" 0".toList, "65636".toList, "1".toList],
        ⟨by decide, by decide⟩, (UInt16.size, "65636".toList),
        by decide, by decide⟩
  · exact hOverruns' _ space _ (.inl rfl)
      ⟨[" 257".toList], ⟨by decide, by decide⟩,
        (UInt8.size, " 257".toList), by decide, by decide⟩

end Report

end Fota
