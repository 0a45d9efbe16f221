import Fota.Proofs.Modem.CommandLines

/-
  This file shows when an image is found in the list of files of
  the modem, for all names of files and lists, and however the
  answer arrives. A name in the list is found, unless it has a
  comma or the line of the list is too long for the client. What
  stands between two commas in a listed name is taken for a name
  of its own.

  Key definitions include:
    * `Report.listing`
    * `Report.Hides`
    * `Received.Says`
    * `Port.Brings`

  The main statements are `Report.lists_listing`, for a line,
  and `Client.hasImage_of_listing`, for the procedure.
-/

namespace Fota

open LineBuffer (holding room)

------------------------------------------------------------
-- Lists of Files
------------------------------------------------------------

namespace Report

/- What a line with the list of files begins with. -/
def listingLead : List Char :=
  "+ULSTFILE:".toList

/- Names between quotes, separated by commas. -/
def joined : List String → List Char
| [] => []
| [name] => '"' :: (name.toList ++ ['"'])
| name :: names =>
    '"' :: (name.toList ++ ['"']) ++ ',' :: joined names

/- The line with the list of files, with any gap before it. -/
def listing
    (gap : Nat)
    (names : List String) : String :=
  String.ofList
    (listingLead ++ (List.replicate gap ' ' ++ joined names))

/- Something between two commas of the name reads as the text. -/
def Hides
    (name text : List Char) : Prop :=
  ∃ piece ∈ (Text.fields ',' name).tail.dropLast,
    Text.trim piece = text

/- A field of the list names the text. -/
def Matches
    (text field : List Char) : Prop :=
  Text.unquote (Text.trim field) = text

variable
  {name names text field cs : List Char}

/- A name that is listed with its quotes is never trimmed. -/
theorem trim_quoted
    (name : List Char) :
    Text.trim ('"' :: (name ++ ['"'])) =
      '"' :: (name ++ ['"']) :=
  Text.trim_of_ends rfl rfl

/-
  A field is matched by its quotes: with both of them it has to
  be the quoted text, without any the trimmed one. With a single
  one it is no text at all.
-/
theorem matches_iff
    (hText : '"' ∉ text) :
    Matches text field ↔
      Text.trim field = '"' :: (text ++ ['"']) ∨
        Text.trim field = text :=
  Text.unquote_eq_iff hText

theorem count_of_matches
    (hText : '"' ∉ text)
    (hMatches : Matches text field) :
    field.count '"' = 2 ∨ field.count '"' = 0 := by
  rw [← Text.count_trim rfl field]
  rcases (matches_iff hText).mp hMatches with
    hQuoted | hPlain
  · left
    rw [hQuoted, List.count_cons_self, List.count_append,
      List.count_eq_zero_of_not_mem hText]
    rfl
  · right
    rw [hPlain, List.count_eq_zero_of_not_mem hText]

theorem matches_of_no_quote
    (hField : '"' ∉ field)
    (hText : '"' ∉ text) :
    Matches text field ↔ Text.trim field = text := by
  rw [matches_iff hText]
  apply or_iff_right
  intro hQuoted
  have hCount :
      (Text.trim field).count '"' = field.count '"' :=
    Text.count_trim rfl field
  rw [hQuoted, List.count_eq_zero_of_not_mem hField,
    List.count_cons_self] at hCount
  omega

/- A whole name is matched as it stands. -/
theorem matches_quoted
    (hText : '"' ∉ text) :
    Matches text ('"' :: (name ++ ['"'])) ↔ name = text := by
  rw [matches_iff hText, trim_quoted]
  constructor
  · rintro (hSame | hPlain)
    · simpa using hSame
    · rw [← hPlain] at hText
      exact absurd List.mem_cons_self hText
  · rintro rfl
    exact .inl rfl

/- The parts of a name with a comma, without and with quotes. -/
theorem exists_parts
    (hComma : ',' ∈ name) :
    ∃ (first : List Char) (inner : List (List Char))
      (last : List Char),
      Text.fields ',' name = first :: (inner ++ [last]) ∧
        Text.fields ',' ('"' :: (name ++ ['"'])) =
          ('"' :: first) :: (inner ++ [last ++ ['"']]) := by
  rcases List.eq_append_cons_of_mem hComma with
    ⟨first, rest, rfl, hFirst⟩
  have hQuote : ',' ∉ '"' :: first := by
    simp [hFirst]
  have hSplit :
      '"' :: (first ++ ',' :: rest ++ ['"']) =
        '"' :: first ++ ',' :: (rest ++ ['"']) := by
    simp
  rw [hSplit, Text.fields_append hFirst,
    Text.fields_append hQuote]
  by_cases hMore : ',' ∈ rest
  · rcases Text.exists_last_field hMore with
      ⟨inner, last, hRest, hLast⟩
    have hEnd : ',' ∉ last ++ ['"'] := by
      simpa using hLast
    refine ⟨first, Text.fields ',' inner, last, ?_, ?_⟩
    · rw [hRest, Text.fields_append_fields,
        Text.fields_of_not_mem hLast]
    · rw [hRest, List.append_assoc, List.cons_append,
        Text.fields_append_fields, Text.fields_of_not_mem hEnd]
  · have hEnd : ',' ∉ rest ++ ['"'] := by
      simpa using hMore
    refine ⟨first, [], rest, ?_, ?_⟩
    · rw [Text.fields_of_not_mem hMore]
      rfl
    · rw [Text.fields_of_not_mem hEnd]
      rfl

/-
  A quoted name is matched as a whole if it has no comma. Else
  its quotes are parted, and only what stands between two commas
  may be matched.
-/
theorem exists_match_quoted
    (hName : '"' ∉ name)
    (hText : '"' ∉ text) :
    (∃ field ∈ Text.fields ',' ('"' :: (name ++ ['"'])),
        Matches text field) ↔
      (name = text ∧ ',' ∉ text) ∨ Hides name text := by
  by_cases hComma : ',' ∈ name
  · rcases exists_parts hComma with
      ⟨first, inner, last, hParts, hQuoted⟩
    have hPlain : ∀ piece ∈ first :: (inner ++ [last]),
        '"' ∉ piece := by
      intro piece hPiece hMem
      rw [← hParts] at hPiece
      exact hName (Text.mem_of_mem_field hPiece hMem)
    have hWhole : ¬ (name = text ∧ ',' ∉ text) := by
      rintro ⟨rfl, hNone⟩
      exact hNone hComma
    -- The first part and the last one keep a quote each.
    have hFirst : ¬ Matches text ('"' :: first) := by
      intro hMatches
      have hCount := count_of_matches hText hMatches
      rw [List.count_cons_self,
        List.count_eq_zero_of_not_mem (hPlain first (by simp))]
        at hCount
      omega
    have hLast : ¬ Matches text (last ++ ['"']) := by
      intro hMatches
      have hCount := count_of_matches hText hMatches
      rw [List.count_append,
        List.count_eq_zero_of_not_mem (hPlain last (by simp))]
        at hCount
      simp at hCount
    rw [or_iff_right hWhole, hQuoted]
    unfold Hides
    rw [hParts, List.tail_cons, List.dropLast_concat]
    constructor
    · rintro ⟨field, hMem, hMatches⟩
      rw [List.mem_cons, List.mem_append, List.mem_singleton]
        at hMem
      rcases hMem with rfl | hInner | rfl
      · exact absurd hMatches hFirst
      · have hField := hPlain field (by simp [hInner])
        refine ⟨field, hInner, ?_⟩
        rwa [← matches_of_no_quote hField hText]
      · exact absurd hMatches hLast
    · rintro ⟨piece, hInner, hTrim⟩
      refine ⟨piece, by simp [hInner], ?_⟩
      rw [matches_of_no_quote (hPlain piece (by simp [hInner]))
        hText]
      exact hTrim
  · have hQuoted : ',' ∉ '"' :: (name ++ ['"']) := by
      simpa using hComma
    have hNothing : ¬ Hides name text := by
      rintro ⟨piece, hPiece, -⟩
      rw [Text.fields_of_not_mem hComma] at hPiece
      cases hPiece
    rw [Text.fields_of_not_mem hQuoted, or_iff_left hNothing]
    simp only [List.mem_singleton, exists_eq_left,
      matches_quoted hText]
    constructor
    · rintro rfl
      exact ⟨rfl, hComma⟩
    · exact And.left

/- The fields of joined names are those of each of them. -/
theorem fields_joined
    {names : List String}
    (hSome : names ≠ []) :
    Text.fields ',' (joined names) =
      names.flatMap fun name =>
        Text.fields ',' ('"' :: (name.toList ++ ['"'])) := by
  induction names using joined.induct with
  | case1 =>
      exact absurd rfl hSome
  | case2 name =>
      simp [joined]
  | case3 name names hMore ih =>
      have hLater : names ≠ [] := by
        rintro rfl
        exact hMore rfl
      rw [joined, Text.fields_append_fields, ih hLater,
        List.flatMap_cons]
      exact hMore

/- Joined names begin and end with a quote, if there are any. -/
theorem exists_joined
    {names : List String}
    (hSome : names ≠ []) :
    ∃ inner, joined names = '"' :: (inner ++ ['"']) := by
  induction names using joined.induct with
  | case1 =>
      exact absurd rfl hSome
  | case2 name =>
      exact ⟨name.toList, rfl⟩
  | case3 name names hMore ih =>
      have hLater : names ≠ [] := by
        rintro rfl
        exact hMore rfl
      rcases ih hLater with ⟨inner, hInner⟩
      refine
        ⟨name.toList ++ '"' :: ',' :: '"' :: inner, ?_⟩
      rw [joined, hInner]
      · simp
      · exact hMore

theorem joined_eq_nil_iff
    {names : List String} :
    joined names = [] ↔ names = [] := by
  constructor
  · intro hNone
    refine Classical.byContradiction fun hSome => ?_
    rcases exists_joined hSome with ⟨inner, hInner⟩
    rw [hNone] at hInner
    cases hInner
  · rintro rfl
    rfl

theorem trim_joined
    (names : List String) :
    Text.trim (joined names) = joined names := by
  by_cases hSome : names = []
  · rw [hSome]
    rfl
  · rcases exists_joined hSome with ⟨inner, hInner⟩
    rw [hInner, trim_quoted]

/- A client trims the line to its lead and the rest of it. -/
theorem exists_trim_listing
    (gap : Nat)
    (names : List String) :
    ∃ rest,
      Text.trim (listing gap names).toList =
          listingLead ++ rest ∧
        Text.trim rest = joined names := by
  have hLead :
      listingLead = '+' :: ("ULSTFILE".toList ++ [':']) :=
    rfl
  have hBlank : ∀ c ∈ List.replicate gap ' ',
      Text.isBlank c = true := by
    intro c hMem
    rw [List.eq_of_mem_replicate hMem]
    rfl
  unfold listing
  rw [String.toList_ofList]
  by_cases hSome : names = []
  · refine ⟨[], ?_, ?_⟩
    · rw [hSome, joined, List.append_nil, List.append_nil, hLead]
      exact
        (Text.trim_append_gap ⟨_, hBlank⟩ _).trans
          (Text.trim_of_ends rfl rfl)
    · rw [hSome]
      rfl
  · refine ⟨List.replicate gap ' ' ++ joined names, ?_, ?_⟩
    · rcases exists_joined hSome with ⟨inner, hInner⟩
      have hEnds :
          listingLead ++
              (List.replicate gap ' ' ++ joined names) =
            '+' ::
              ("ULSTFILE".toList ++ ':' ::
                (List.replicate gap ' ' ++ '"' :: inner) ++
                ['"']) := by
        rw [hLead, hInner]
        simp
      rw [hEnds]
      exact Text.trim_of_ends rfl rfl
    · rw [Text.trim_blanks_append hBlank, trim_joined]

/- The file is found by a name without comma, or inside one. -/
def Found
    (names : List String)
    (file : String) : Prop :=
  (file ∈ names ∧ ',' ∉ file.toList) ∨
    ∃ name ∈ names, Hides name.toList file.toList

/- A line without fields lists nothing. -/
theorem lists_iff
    {line file : String} :
    lists line file = true ↔
      ∃ fields, fields? listingLead line = some fields ∧
        ∃ field ∈ fields,
          Text.unquote field = file.toList := by
  have hLead : "+ULSTFILE:".toList = listingLead := rfl
  rw [lists, hLead]
  cases fields? listingLead line with
  | none => simp
  | some fields => simp

/- The line of a list names the files that are found so. -/
theorem lists_listing
    {names : List String}
    {line file : String}
    {rest : List Char}
    (hNames : ∀ name ∈ names, '"' ∉ name.toList)
    (hFile : '"' ∉ file.toList)
    (hLine : line.toList = listingLead ++ rest)
    (hRest : Text.trim rest = joined names) :
    lists line file = true ↔ Found names file := by
  rw [lists_iff, fields?_of_lead hLine, hRest]
  by_cases hSome : names = []
  · rw [if_pos (joined_eq_nil_iff.mpr hSome), hSome]
    simp [Found]
  · rw [if_neg (hSome ∘ joined_eq_nil_iff.mp),
      fields_joined hSome]
    have hMatch :
        ∀ name ∈ names,
          (∃ field ∈ Text.fields ','
                ('"' :: (name.toList ++ ['"'])),
              Matches file.toList field) ↔
            (name = file ∧ ',' ∉ file.toList) ∨
              Hides name.toList file.toList := by
      intro name hMem
      rw [exists_match_quoted (hNames name hMem) hFile,
        String.toList_inj]
    constructor
    · rintro ⟨_, ⟨⟩, field, hField, hUnquote⟩
      rcases List.mem_map.mp hField with ⟨raw, hRaw, rfl⟩
      rcases List.mem_flatMap.mp hRaw with ⟨name, hMem, hIn⟩
      rcases (hMatch name hMem).mp ⟨raw, hIn, hUnquote⟩ with
        ⟨rfl, hComma⟩ | hHides
      · exact .inl ⟨hMem, hComma⟩
      · exact .inr ⟨name, hMem, hHides⟩
    · intro hFound
      have hName :
          ∃ name ∈ names,
            (name = file ∧ ',' ∉ file.toList) ∨
              Hides name.toList file.toList := by
        rcases hFound with
          ⟨hMem, hComma⟩ | ⟨name, hMem, hHides⟩
        · exact ⟨file, hMem, .inl ⟨rfl, hComma⟩⟩
        · exact ⟨name, hMem, .inr hHides⟩
      rcases hName with ⟨name, hMem, hName⟩
      rcases (hMatch name hMem).mpr hName with
        ⟨raw, hIn, hUnquote⟩
      exact
        ⟨_, rfl, Text.trim raw,
          List.mem_map_of_mem
            (List.mem_flatMap.mpr ⟨name, hMem, hIn⟩),
          hUnquote⟩

/- Names without commas are found just if they are listed. -/
theorem found_iff_mem
    {names : List String}
    {file : String}
    (hFile : ',' ∉ file.toList)
    (hNames : ∀ name ∈ names, ',' ∉ name.toList) :
    Found names file ↔ file ∈ names := by
  have hNothing :
      ¬ ∃ name ∈ names, Hides name.toList file.toList := by
    rintro ⟨name, hMem, piece, hPiece, -⟩
    rw [Text.fields_of_not_mem (hNames name hMem)] at hPiece
    cases hPiece
  unfold Found
  rw [or_iff_left hNothing, and_iff_left hFile]

/- The line of a list is part of the reply to its command. -/
theorem answers_listing
    {line : String}
    {rest : List Char}
    (hLine : line.toList = listingLead ++ rest) :
    Client.answers (some Command.listImages.text) line = true ∧
      Client.ends (some Command.listImages.text) line =
        false := by
  have hLead :
      listingLead = '+' :: 'U' :: 'L' :: "STFILE:".toList := rfl
  have hNotice : isNotice line = false := by
    unfold isNotice
    rw [hLine, hLead]
    rfl
  have hOther : ∀ other : String,
      other.toList.head? ≠ some '+' → line ≠ other := by
    rintro other hHead rfl
    rw [hLine, hLead] at hHead
    exact hHead rfl
  have hFinal : final? line = none := by
    unfold final?
    rw [if_neg (hOther _ (by decide)),
      if_neg
        (by
          rintro (hError | hError | hError)
          · exact hOther "ERROR" (by decide) hError
          · exact hOther "NO CARRIER" (by decide) hError
          · exact hOther "ABORTED" (by decide) hError),
      if_neg]
    rw [hLine, hLead]
    rintro (hError | hError)
    · cases hError
    · cases hError
  have hEcho : line ≠ Command.listImages.text :=
    hOther _ (by decide)
  have hAnswers :
      Client.answers (some Command.listImages.text) line =
        true := by
    simp [Client.answers, hNotice, hEcho]
  refine ⟨hAnswers, ?_⟩
  unfold Client.ends
  rw [hFinal]
  simp

end Report

------------------------------------------------------------
-- Answers that Arrive
------------------------------------------------------------

/- The bytes say some lines: these are the pieces that show. -/
def Received.Says
    (bytes : List UInt8)
    (lines : List String) : Prop :=
  (pieces bytes).dropLast.filter (· ≠ []) =
    lines.map Text.utf8

/- A text that is not blank is shown if it is not too long. -/
theorem Received.shown?_utf8
    {text : String}
    (hKept : Text.trim text.toList ≠ []) :
    shown? (Text.utf8 text) =
      if (Text.utf8 text).length ≤ room then
        some (String.ofList (Text.trim text.toList))
      else
        none := by
  split
  · next hFits =>
      rw [shown?_eq_some_iff]
      exact ⟨hFits, text, rfl, hKept, rfl⟩
  · next hLong =>
      unfold shown?
      exact if_neg hLong

/- What is said is read, except for lines that are too long. -/
theorem Received.Says.lines
    {bytes : List UInt8}
    {lines : List String}
    (hSays : Received.Says bytes lines) :
    Received.lines bytes =
      lines.filterMap fun line => shown? (Text.utf8 line) := by
  have hNone : shown? [] = none := by
    decide +kernel
  have hKept :
      ∀ pieces : List (List UInt8),
        (pieces.filter (· ≠ [])).filterMap shown? =
          pieces.filterMap shown? := by
    intro pieces
    induction pieces with
    | nil =>
        rfl
    | cons piece pieces ih =>
        cases piece with
        | nil =>
            rw [List.filter_cons_of_neg (by simp),
              List.filterMap_cons_none hNone, ih]
        | cons byte piece =>
            rw [List.filter_cons_of_pos (by simp),
              List.filterMap_cons, List.filterMap_cons, ih]
  unfold Received.lines
  rw [← hKept, hSays, List.filterMap_map]
  rfl

/-
  The port brings some bytes before a deadline, in chunks of any
  size and at any pace.
-/
inductive Port.Brings
    {σ : Type}
    [Port σ]
    (deadline : Instant) : σ → List UInt8 → Prop where
| nothing (s : σ) :
    Brings deadline s []
| later
    {s s' : σ}
    {bytes : List UInt8}
    (hReady : Port.ready s = (.ok false, s'))
    (hEarly : (Port.now s').toNat < deadline.toNat)
    (hRest : Brings deadline s' bytes) :
    Brings deadline s bytes
| chunk
    {s s₁ s₂ : σ}
    {taken rest : List UInt8}
    (hReady : Port.ready s = (.ok true, s₁))
    (hRead :
      Port.read Client.chunkSize s₁ = (.ok taken, s₂))
    (hSome : taken ≠ [])
    (hRest : Brings deadline s₂ rest) :
    Brings deadline s (taken ++ rest)

namespace Client

variable
  {σ : Type}
  [Port σ]
  {deadline : Instant}
  {command : String}
  {s s₁ s₂ : σ}
  {bytes : List UInt8}
  {heard heard' : Heard}
  {outcome : Outcome}

/-
  One round hears the outcome that the bytes bring, or the next
  rounds do, which begin in time.
-/
theorem pump_or_await_brings
    (hBrings : Port.Brings deadline s bytes)
    (hHear :
      hear (some command) bytes heard = (some outcome, heard')) :
    (∃ s',
        pump (some command) heard s =
          (some outcome, heard', s')) ∨
      ∃ heard₁ s₁ s',
        pump (some command) heard s = (none, heard₁, s₁) ∧
          (Port.now s₁).toNat < deadline.toNat ∧
            await command deadline heard₁ s₁ =
              (outcome, heard', s') := by
  induction hBrings generalizing heard with
  | nothing s =>
      cases hHear
  | @later s s₁ bytes hReady hEarly hRest ih =>
      -- Nothing is there yet; the client waits for the rest.
      right
      have hPump :
          pump (some command) heard s = (none, heard, s₁) :=
        pump_idle hReady
      rcases ih hHear with
        ⟨s', hDone⟩ |
          ⟨heard₂, s₂, s', hAgain, hDue, hAwait⟩
      · exact
          ⟨heard, s₁, s', hPump, hEarly, await_done hDone⟩
      · refine ⟨heard, s₁, s', hPump, hEarly, ?_⟩
        rw [await_again hAgain (Nat.not_le_of_lt hDue)]
        exact hAwait
  | @chunk s s₁ s₂ taken rest hReady hRead hSome hRest ih =>
      rcases List.exists_cons_of_ne_nil hSome with
        ⟨byte, bytes, rfl⟩
      -- The chunk brings the outcome, or the rest does.
      rw [hear_append] at hHear
      cases hChunk :
          hear (some command) (byte :: bytes) heard with
      | mk found heard₁ =>
          rw [hChunk] at hHear
          cases found with
          | some found =>
              cases hHear
              refine .inl ⟨s₂, ?_⟩
              rw [pump_read hReady hRead, hChunk]
          | none =>
              have hPump :
                  pump (some command) heard s =
                    pump (some command) heard₁ s₂ := by
                rw [pump_read hReady hRead, hChunk]
              rcases ih hHear with
                ⟨s', hDone⟩ |
                  ⟨heard₂, s₃, s', hAgain, hDue, hAwait⟩
              · exact .inl ⟨s', hPump.trans hDone⟩
              · exact
                  .inr
                    ⟨heard₂, s₃, s', hPump.trans hAgain, hDue,
                      hAwait⟩

/- So an answer that comes in time is heard. -/
theorem await_brings
    (hBrings : Port.Brings deadline s bytes)
    (hHear :
      hear (some command) bytes heard = (some outcome, heard')) :
    ∃ s',
      await command deadline heard s = (outcome, heard', s') := by
  rcases pump_or_await_brings hBrings hHear with
    ⟨s', hDone⟩ | ⟨heard₁, s₁, s', hAgain, hDue, hAwait⟩
  · exact ⟨s', await_done hDone⟩
  · refine ⟨s', ?_⟩
    rw [await_again hAgain (Nat.not_le_of_lt hDue)]
    exact hAwait

/-
  An exchange with an answer that comes in time, given that no
  line is half received when the command is sent.
-/
theorem exchange_brings
    {client waiting : Client}
    {patience : UInt32}
    (hFits : command.utf8ByteSize ≤ Command.sizeMax)
    (hDrain : client.drain s = (waiting, s₁))
    (hSend :
      Port.sendLine (Text.utf8 command) s₁ = (true, s₂))
    (hBrings :
      Port.Brings ((Port.now s₂).after patience.toNat) s₂ bytes)
    (hHear :
      hear (some command) bytes ⟨waiting, []⟩ =
        (some outcome, heard)) :
    (client.exchange command patience s).1 =
      ⟨outcome, heard.lines⟩ := by
  rcases await_brings hBrings hHear with ⟨s', hAwait⟩
  unfold exchange
  rw [if_neg (Nat.not_lt.mpr hFits), hDrain]
  dsimp only
  rw [hSend]
  dsimp only
  rw [hAwait]

/- A line of the reply is read with the one that ends it. -/
theorem ofLines_listing
    {shown : Option String}
    {rest : List Char}
    (hShown :
      ∀ line ∈ shown,
        line.toList = Report.listingLead ++ rest)
    (lines : List String)
    (unfinished : List UInt8) :
    let reading :=
      Reading.ofLines (some Command.listImages.text)
        (shown.toList ++ "OK" :: lines) unfinished
    reading.outcome = some .ok ∧
      reading.lines = shown.toList := by
  have hEnds :
      ends (some Command.listImages.text) "OK" = true := by
    decide +kernel
  cases shown with
  | none =>
      dsimp only [Option.toList_none, List.nil_append]
      rw [Reading.ofLines_cons_of_ends hEnds]
      exact ⟨rfl, rfl⟩
  | some line =>
      rcases Report.answers_listing (hShown line rfl) with
        ⟨hAnswers, hGoesOn⟩
      dsimp only [Option.toList_some, List.singleton_append]
      rw [Reading.ofLines_cons hGoesOn,
        Reading.ofLines_cons_of_ends hEnds,
        List.filter_cons_of_pos hAnswers]
      exact ⟨rfl, rfl⟩

/- The answer with a list of files is heard up to its `OK`. -/
theorem exists_hear_listing
    {shown : Option String}
    {gap : Nat}
    {names : List String}
    {answer : List UInt8}
    {rest : List Char}
    (hAnswer :
      Received.Says answer [Report.listing gap names, "OK"])
    (hShown :
      Received.shown? (Text.utf8 (Report.listing gap names)) =
        shown)
    (hLead :
      ∀ line ∈ shown,
        line.toList = Report.listingLead ++ rest)
    (more : List UInt8)
    (m : Mailbox) :
    ∃ heard,
      hear (some Command.listImages.text) (answer ++ more)
          ⟨⟨.empty, m⟩, []⟩ =
        (some .ok, heard) ∧
        heard.lines = shown.toList := by
  have hOk : Received.shown? (Text.utf8 "OK") = some "OK" := by
    decide +kernel
  have hLines :
      Received.lines (answer ++ more) =
        shown.toList ++
          "OK" ::
            Received.lines
              (Received.unfinished answer ++ more) := by
    rw [(Received.lines_append answer more).1, hAnswer.lines,
      List.filterMap_cons, List.filterMap_cons, hOk, hShown]
    cases shown <;> rfl
  have hRead :=
    hear_eq_reading (some Command.listImages.text) []
      (answer ++ more) Received.plain_nil m []
  have hReading :=
    ofLines_listing hLead
      (Received.lines (Received.unfinished answer ++ more))
      (Received.unfinished (answer ++ more))
  rw [List.nil_append, ← LineBuffer.empty_eq_holding,
    List.nil_append, Reading.ofBytes, hLines] at hRead
  exact
    ⟨_, hRead.trans (Prod.ext hReading.1 rfl), hReading.2⟩

/- A procedure for an image looks through the lines of a reply. -/
theorem perform_hasImage
    (file : FileName)
    (client : Client)
    (s : σ) :
    ((perform (.hasImage file)).run (client, s)).1 =
      let reply :=
        (client.exchange Command.listImages.text
          Command.listImages.patience s).1
      reply.outcome.isOk &&
        reply.lines.any
          (fun line => Report.lists line file.text) := by
  have hFits : Command.listImages.Fits := by
    decide
  unfold perform Procedure.hasImage Procedure.sendAny
    Procedure.send
  rw [if_pos hFits]
  rfl

/-
  The modem answers in time with a line of the file list and an
  `OK`, which may arrive in any chunks and with anything behind.
  If the line is short enough for the client, the image is found
  just if its name is listed and has no comma, or if it stands
  between two commas in a listed name. Otherwise it is not. So
  the list decides if the line is short and there are no commas.
-/
theorem hasImage_of_listing
    {path : UpgradePath}
    {gap : Nat}
    {names : List String}
    {answer more : List UInt8}
    {client : Client}
    {m : Mailbox}
    (hValid : path.Valid)
    (hNames : ∀ name ∈ names, '"' ∉ name.toList)
    (hDrain : client.drain s = (⟨.empty, m⟩, s₁))
    (hSend :
      Port.sendLine (Text.utf8 Command.listImages.text) s₁ =
        (true, s₂))
    (hAnswer :
      Received.Says answer [Report.listing gap names, "OK"])
    (hBrings :
      Port.Brings
        ((Port.now s₂).after Command.listImages.patience.toNat)
        s₂ (answer ++ more)) :
    let found :=
      ((perform (.hasImage path.file)).run (client, s)).1
    let short :=
      (Text.utf8 (Report.listing gap names)).length ≤ room
    (found = true ↔
        short ∧ Report.Found names path.file.text) ∧
      (short → ',' ∉ path.file.toList →
        (∀ name ∈ names, ',' ∉ name.toList) →
          (found = true ↔ path.file.text ∈ names)) := by
  intro found short
  rcases Report.exists_trim_listing gap names with
    ⟨rest, hTrim, hRest⟩
  have hKept :
      Text.trim (Report.listing gap names).toList ≠ [] := by
    rw [hTrim]
    exact List.append_ne_nil_of_left_ne_nil (by decide) _
  have hShown := Received.shown?_utf8 hKept
  rw [hTrim] at hShown
  have hLead :
      ∀ line ∈ (if short then
          some (String.ofList (Report.listingLead ++ rest))
        else
          none),
        line.toList = Report.listingLead ++ rest := by
    intro line hMem
    split at hMem
    · rw [← Option.some.inj hMem, String.toList_ofList]
    · cases hMem
  rcases exists_hear_listing hAnswer hShown hLead more m with
    ⟨heard, hHear, hLines⟩
  have hReply :=
    exchange_brings (by decide) hDrain hSend hBrings hHear
  have hFound :
      found = true ↔
        short ∧ Report.Found names path.file.text := by
    let line := String.ofList (Report.listingLead ++ rest)
    have hLists :
        Report.lists line path.file.text = true ↔
          Report.Found names path.file.text :=
      Report.lists_listing hNames hValid.1.2
        String.toList_ofList hRest
    have hRun :
        found =
          (if short then some line else none).toList.any
            (fun line => Report.lists line path.file.text) := by
      change
        ((perform (.hasImage path.file)).run (client, s)).1 = _
      rw [perform_hasImage, hReply, hLines]
      rfl
    rw [← hLists, hRun]
    by_cases hShort : short
    · rw [if_pos hShort, and_iff_right hShort]
      exact iff_of_eq (congrArg (· = true) (Bool.or_false _))
    · rw [if_neg hShort]
      exact
        iff_of_false Bool.false_ne_true fun hBoth =>
          hShort hBoth.1
  refine ⟨hFound, fun hShort hFile hCommas => ?_⟩
  rw [hFound, and_iff_right hShort,
    Report.found_iff_mem hFile hCommas]

end Client

------------------------------------------------------------
-- Short Lists
------------------------------------------------------------

/- The answer of a modem with a few files. -/
def Report.listAnswer
    (names : List String) : String :=
  "\r\n" ++ listing 1 names ++ "\r\n\r\nOK\r\n"

/- A modem with a few files, on a wire. -/
def Bench.Wire.listing
    (names : List String) : Wire :=
  .answering Command.listImages.text (Report.listAnswer names)

namespace Client

/- The second of two images is found. -/
theorem second_image_found :
    (UpgradePath.named ⟨"b.upd", by decide +kernel⟩).Valid ∧
      ((perform (.hasImage ⟨"b.upd", by decide +kernel⟩)).run
          (.fresh, Bench.Wire.listing ["a.upd", "b.upd"])).1 =
        true := by
  have hValid :
      (UpgradePath.named ⟨"b.upd", by decide +kernel⟩).Valid := by
    decide +kernel
  have hDrain :
      Client.fresh.drain
          (Bench.Wire.listing ["a.upd", "b.upd"]) =
        (⟨.empty, .empty⟩, _) :=
    drain_idle rfl _
  have hSays :
      Received.Says
        (Text.utf8 (Report.listAnswer ["a.upd", "b.upd"]))
        [Report.listing 1 ["a.upd", "b.upd"], "OK"] := by
    unfold Received.Says
    decide +kernel
  have hFound :=
    (hasImage_of_listing hValid (by decide) hDrain
      (Port.sendLine_of_took_all (by decide +kernel) rfl rfl rfl)
      hSays
      (.chunk rfl rfl (by decide +kernel) (.nothing _))).2
  refine ⟨hValid, ?_⟩
  exact
    (hFound (by decide +kernel) (by decide) (by decide)).mpr
      (by decide)

/- The only image is not found, as its name has a comma. -/
theorem only_image_not_found :
    (UpgradePath.named ⟨"a,b", by decide +kernel⟩).Valid ∧
      Received.Says (Text.utf8 (Report.listAnswer ["a,b"]))
          [Report.listing 1 ["a,b"], "OK"] ∧
        ((perform (.hasImage ⟨"a,b", by decide +kernel⟩)).run
            (.fresh, Bench.Wire.listing ["a,b"])).1 =
          false := by
  have hHear :
      hear (some Command.listImages.text)
          (Text.utf8 (Report.listAnswer ["a,b"]))
          ⟨.fresh, []⟩ =
        (some .ok,
          ⟨.fresh, [Report.listing 1 ["a,b"]]⟩) := by
    decide +kernel
  have hReply :
      (Client.fresh.exchange Command.listImages.text
          Command.listImages.patience
          (Bench.Wire.listing ["a,b"])).1 =
        ⟨.ok, [Report.listing 1 ["a,b"]]⟩ :=
    congrArg Prod.fst
      (exchange_of_single_read hHear (by decide) rfl
        (Port.sendLine_of_took_all (by decide +kernel) rfl rfl
          rfl)
        rfl rfl _)
  refine ⟨by decide +kernel, ?_, ?_⟩
  · unfold Received.Says
    decide +kernel
  · rw [perform_hasImage, hReply]
    decide +kernel

end Client

end Fota
