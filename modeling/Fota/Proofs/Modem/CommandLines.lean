import Fota.Modem.Procedure
import Fota.Proofs.Modem.Exchanges
import Fota.Proofs.Text.Parts
import Fota.Update.UpgradePath

/-
  This file shows what a client writes for the commands that
  name an image. They fit, and the name that they quote is the
  name of the file. But what is written is a single command line
  only if the name has no line break, which the validity of an
  upgrade path does not ask for. What stands between two breaks
  in the name is sent as a command line of its own.

  Key definitions include:
    * `Client.perform`
    * `Sent.lines`
    * `Sent.quoted?`
    * `Procedure.Names`
    * `Text.Unbroken`

  The main statement is `Client.image_command_written`.
-/

namespace Fota

open LineBuffer (carriageReturn lineFeed)
open Port (Event Tapped Works)

------------------------------------------------------------
-- Lines that Are Sent
------------------------------------------------------------

namespace Sent

/- The byte ends a command line. -/
def isEnd
    (byte : UInt8) : Bool :=
  byte = carriageReturn || byte = lineFeed

/-
  The command lines that came to their end among bytes for the
  modem. Both bytes that end a line are enough alone; a line
  without any byte is none.
-/
def lines
    (bytes : List UInt8) : List (List UInt8) :=
  (bytes.splitOnP isEnd).dropLast.filter (· ≠ [])

/- The first text that a line has between double quotes. -/
def quoted?
    (line : String) : Option (List Char) :=
  (Text.cut? '"' line.toList).bind
    (fun sides => (Text.cut? '"' sides.2).map Prod.fst)

variable
  {u v bytes : List UInt8}
  {a b byte : UInt8}

theorem isEnd_eq_false_of_plain
    (hPlain : Received.Plain u)
    (hMem : byte ∈ u) :
    isEnd byte = false := by
  have hReturn : byte ≠ carriageReturn := by
    rintro rfl
    exact hPlain.1 hMem
  have hFeed : byte ≠ lineFeed := by
    rintro rfl
    exact hPlain.2 hMem
  simp [isEnd, hReturn, hFeed]

/- What is sent with an end ends in a line. -/
theorem lines_append_lineEnd
    (bytes : List UInt8) :
    lines (bytes ++ Port.lineEnd) =
      (bytes.splitOnP isEnd).filter (· ≠ []) := by
  have hEnd : [lineFeed].splitOnP isEnd = [[], []] :=
    List.splitOnP_append_cons [] [] rfl
  unfold lines
  change
    ((bytes ++ carriageReturn :: [lineFeed]).splitOnP
      isEnd).dropLast.filter _ = _
  rw [List.splitOnP_append_cons _ _ rfl, hEnd,
    List.dropLast_append_of_ne_nil (List.cons_ne_nil _ _),
    List.filter_append]
  exact List.append_nil _

/- Plain bytes are sent as one line. -/
theorem lines_of_plain
    (hPlain : Received.Plain bytes)
    (hSome : bytes ≠ []) :
    lines (bytes ++ Port.lineEnd) = [bytes] := by
  rw [lines_append_lineEnd,
    List.splitOnP_eq_singleton fun byte hMem =>
      isEnd_eq_false_of_plain hPlain hMem]
  exact List.filter_cons_of_pos (by simpa using hSome)

/- No byte that is not an end is lost. -/
theorem exists_piece_of_mem
    (hMem : byte ∈ bytes)
    (hInner : isEnd byte = false) :
    ∃ piece ∈ bytes.splitOnP isEnd, byte ∈ piece := by
  induction bytes with
  | nil =>
      cases hMem
  | cons first bytes ih =>
      rw [List.splitOnP_cons_eq_if_modifyHead]
      rcases List.mem_cons.mp hMem with rfl | hMem
      · rw [if_neg (by simp [hInner])]
        cases hPieces : bytes.splitOnP isEnd with
        | nil =>
            exact absurd hPieces (List.splitOnP_ne_nil _ _)
        | cons piece pieces =>
            exact ⟨byte :: piece, by simp, by simp⟩
      · rcases ih hMem with ⟨piece, hPiece, hIn⟩
        split
        · exact ⟨piece, List.mem_cons_of_mem _ hPiece, hIn⟩
        · cases hPieces : bytes.splitOnP isEnd with
          | nil =>
              exact absurd hPieces (List.splitOnP_ne_nil _ _)
          | cons head pieces =>
              rw [hPieces] at hPiece
              rcases List.mem_cons.mp hPiece with rfl | hLater
              · exact
                  ⟨first :: piece, by simp,
                    List.mem_cons_of_mem _ hIn⟩
              · exact ⟨piece, by simp [hLater], hIn⟩

/-
  Bytes with an end that stands between others are sent as more
  than one line.
-/
theorem one_lt_length_lines
    (hEnd : isEnd byte = true)
    (hBefore : a ∈ u)
    (hInnerBefore : isEnd a = false)
    (hAfter : b ∈ v)
    (hInnerAfter : isEnd b = false) :
    1 < (lines (u ++ byte :: v ++ Port.lineEnd)).length := by
  rw [lines_append_lineEnd, List.splitOnP_append_cons _ _ hEnd,
    List.filter_append, List.length_append]
  have hKept :
      ∀ (bytes : List UInt8) (byte : UInt8),
        byte ∈ bytes → isEnd byte = false →
          0 <
            ((bytes.splitOnP isEnd).filter (· ≠ [])).length := by
    intro bytes byte hMem hInner
    rcases exists_piece_of_mem hMem hInner with
      ⟨piece, hPiece, hIn⟩
    apply List.length_pos_of_mem
    rw [List.mem_filter]
    exact ⟨hPiece, by simpa using List.ne_nil_of_mem hIn⟩
  have hFirst := hKept u a hBefore hInnerBefore
  have hSecond := hKept v b hAfter hInnerAfter
  omega

/- What stands between two ends is a line of its own. -/
theorem mem_lines_of_enclosed
    {inner : List UInt8}
    (hFirst : isEnd a = true)
    (hSecond : isEnd b = true)
    (hPlain : Received.Plain inner)
    (hSome : inner ≠ []) :
    inner ∈
      lines (u ++ a :: (inner ++ b :: v) ++ Port.lineEnd) := by
  rw [lines_append_lineEnd, List.splitOnP_append_cons _ _ hFirst,
    List.splitOnP_append_cons_of_forall_mem
      (fun byte hMem => isEnd_eq_false_of_plain hPlain hMem)
      b hSecond,
    List.mem_filter]
  exact ⟨by simp, by simpa using hSome⟩

end Sent

------------------------------------------------------------
-- Texts without Line Breaks
------------------------------------------------------------

namespace Text

/- No line breaks in a text. -/
def Unbroken
    (text : String) : Prop :=
  '\r' ∉ text.toList ∧ '\n' ∉ text.toList

instance
    (text : String) :
    Decidable (Unbroken text) := by
  unfold Unbroken
  infer_instance

theorem unbroken_append
    {first second : String} :
    Unbroken (first ++ second) ↔
      Unbroken first ∧ Unbroken second := by
  simp only [Unbroken, String.toList_append, List.mem_append,
    not_or]
  exact and_and_and_comm

/- A text is without breaks just if its bytes end no line. -/
theorem plain_utf8_iff
    {text : String} :
    Received.Plain (utf8 text) ↔ Unbroken text := by
  have hByte :
      ∀ (byte : UInt8) (c : Char),
        byte.toNat < 128 → c.toNat = byte.toNat →
          (byte ∉ utf8 text ↔ c ∉ text.toList) := by
    intro byte c hBelow hCode
    rw [mem_utf8 hBelow]
    apply not_congr
    constructor
    · rintro ⟨other, hMem, hSame⟩
      rw [← Char.toNat_inj.mp (hSame.trans hCode.symm)]
      exact hMem
    · intro hMem
      exact ⟨c, hMem, hCode⟩
  exact
    and_congr (hByte carriageReturn '\r' (by decide) rfl)
      (hByte lineFeed '\n' (by decide) rfl)

end Text

/- The first quoted text of a line is found. -/
theorem Sent.quoted?_of_quoted
    {head text tail : String}
    (hHead : '"' ∉ head.toList)
    (hText : '"' ∉ text.toList) :
    quoted? (head ++ (Command.quoted text ++ tail)) =
      some text.toList := by
  have hQuote : "\"".toList = ['"'] :=
    rfl
  have hLine :
      (head ++ (Command.quoted text ++ tail)).toList =
        head.toList ++
          '"' :: (text.toList ++ '"' :: tail.toList) := by
    unfold Command.quoted
    simp only [String.toList_append, hQuote, List.append_assoc,
      List.cons_append, List.nil_append]
  unfold quoted?
  rw [hLine, Text.cut?_eq_some_iff.mpr ⟨rfl, hHead⟩,
    Option.bind_some, Text.cut?_eq_some_iff.mpr ⟨rfl, hText⟩]
  rfl

------------------------------------------------------------
-- Procedures over a Port
------------------------------------------------------------

/- A client carries a procedure out over a port. -/
def Client.perform
    {σ α : Type}
    [Port σ]
    (procedure : Procedure α) : StateM (Client × σ) α :=
  procedure.run fun command state =>
    state.1.exchange command.text command.patience state.2

/- The bytes that a tap has logged as written, in order. -/
def Port.Event.written
    (log : List Event) : List UInt8 :=
  log.flatMap fun event =>
    match event with
    | .wrote bytes => bytes
    | _ => []

/- Looks write nothing. -/
theorem Port.written_events
    (looks : Port.Looks) :
    Event.written looks.events = [] := by
  unfold Event.written Port.Looks.events
  rw [List.flatMap_eq_nil_iff]
  intro event hMem
  rcases List.mem_map.mp hMem with ⟨look, -, rfl⟩
  rfl

theorem Port.written_append
    (first second : List Event) :
    Event.written (first ++ second) =
      Event.written first ++ Event.written second :=
  List.flatMap_append

/- A line is written with its end, in whatever pieces. -/
theorem Port.written_sending
    {bytes : List UInt8}
    {time : Instant}
    {sending : List Event}
    (hSends : Event.Sends bytes time sending) :
    Event.written sending = bytes ++ Port.lineEnd := by
  rcases hSends with ⟨_, ⟨pieces, rfl, hLine⟩, rfl⟩
  have hWrites :
      Event.written (pieces.map .wrote) = pieces.flatten := by
    unfold Event.written
    rw [List.flatMap_map]
    exact List.flatMap_id'
  rw [written_append, hWrites, hLine]
  exact List.append_nil _

------------------------------------------------------------
-- Names of Files
------------------------------------------------------------

/-
  The procedures with a command that names a file, and the text
  that the command quotes.
-/
inductive Procedure.Names
    (file : FileName) :
    Procedure Outcome → Command → String → Prop where
| delete :
    Names file (Procedure.deleteImage file) (.deleteImage file)
      file.text
| download :
    Names file (Procedure.startDownload file) (.download file)
      ("/" ++ file.text)

namespace Procedure.Names

variable
  {file : FileName}
  {procedure : Procedure Outcome}
  {command : Command}
  {argument : String}

/- The command fits, and the procedure is to carry it out. -/
theorem sends
    (hNames : Procedure.Names file procedure command argument) :
    command.Fits ∧ procedure = .carryOut command := by
  cases hNames with
  | delete => exact ⟨Command.fits_deleteImage file, rfl⟩
  | download => exact ⟨Command.fits_download file, rfl⟩

/- The name stands between texts with a quote, but no break. -/
theorem exists_frame
    (hNames : Procedure.Names file procedure command argument) :
    ∃ before after : String,
      command.text = before ++ (file.text ++ after) ∧
        ('"' ∈ before.toList ∧ Text.Unbroken before) ∧
          '"' ∈ after.toList ∧ Text.Unbroken after := by
  cases hNames with
  | delete =>
      refine
        ⟨"AT+UDELFILE=" ++ "\"",
          "\"" ++ ("," ++ Command.quoted Command.imageTag), ?_,
          by decide, by decide⟩
      unfold Command.text Command.quoted
      simp only [String.append_assoc]
  | download =>
      refine
        ⟨"AT+UHTTPC=" ++
            (Command.transferProfile ++
              (",100," ++ ("\"" ++ "/"))),
          "\"", ?_, by decide, by decide⟩
      unfold Command.text Command.quoted
      simp only [String.append_assoc]

/- The first text that the command quotes is the argument. -/
theorem quoted?_text
    (hNames : Procedure.Names file procedure command argument)
    (hQuotes : '"' ∉ file.toList) :
    Sent.quoted? command.text = some argument.toList := by
  cases hNames with
  | delete =>
      have hText :
          (Command.deleteImage file).text =
            "AT+UDELFILE=" ++
              (Command.quoted file.text ++
                ("," ++ Command.quoted Command.imageTag)) := by
        unfold Command.text
        simp only [String.append_assoc]
      rw [hText]
      exact Sent.quoted?_of_quoted (by decide) hQuotes
  | download =>
      have hText :
          (Command.download file).text =
            ("AT+UHTTPC=" ++
                (Command.transferProfile ++ ",100,")) ++
              (Command.quoted ("/" ++ file.text) ++ "") := by
        unfold Command.text
        simp only [String.append_assoc, String.append_empty]
      have hSlash : '"' ∉ ("/" ++ file.text).toList := by
        rw [String.toList_append, List.mem_append, not_or]
        exact ⟨by decide, hQuotes⟩
      rw [hText]
      exact Sent.quoted?_of_quoted (by decide) hSlash

/- The bytes of the command have those of the name inside. -/
theorem exists_utf8_frame
    (hNames : Procedure.Names file procedure command argument) :
    ∃ before after : List UInt8,
      Text.utf8 command.text =
          before ++ (Text.utf8 file.text ++ after) ∧
        34 ∈ before ∧ 34 ∈ after ∧
          (Received.Plain (Text.utf8 command.text) ↔
            Text.Unbroken file.text) := by
  rcases hNames.exists_frame with
    ⟨before, after, hText, hBefore, hAfter⟩
  refine
    ⟨Text.utf8 before, Text.utf8 after, ?_,
      (Text.mem_utf8 (by decide)).mpr ⟨'"', hBefore.1, rfl⟩,
      (Text.mem_utf8 (by decide)).mpr ⟨'"', hAfter.1, rfl⟩, ?_⟩
  · rw [hText, Text.utf8_append, Text.utf8_append]
  · rw [Text.plain_utf8_iff, hText, Text.unbroken_append,
      Text.unbroken_append, and_iff_right hBefore.2,
      and_iff_left hAfter.2]

/- Without breaks in the name the command is sent as one line. -/
theorem lines_of_unbroken
    (hNames : Procedure.Names file procedure command argument)
    (hUnbroken : Text.Unbroken file.text) :
    Sent.lines (Text.utf8 command.text ++ Port.lineEnd) =
      [Text.utf8 command.text] := by
  rcases hNames.exists_utf8_frame with
    ⟨before, after, hText, hBefore, -, hPlain⟩
  apply Sent.lines_of_plain (hPlain.mpr hUnbroken)
  rw [hText]
  exact
    List.append_ne_nil_of_left_ne_nil
      (List.ne_nil_of_mem hBefore) _

/- With one, it is sent as more than one line. -/
theorem one_lt_length_of_broken
    (hNames : Procedure.Names file procedure command argument)
    (hBroken : ¬ Text.Unbroken file.text) :
    1 <
      (Sent.lines
        (Text.utf8 command.text ++ Port.lineEnd)).length := by
  rcases hNames.exists_utf8_frame with
    ⟨before, after, hText, hBefore, hAfter, -⟩
  have hEnd :
      ∃ byte ∈ Text.utf8 file.text,
        Sent.isEnd byte = true := by
    rw [← Text.plain_utf8_iff, Received.Plain,
      Classical.not_and_iff_not_or_not, Classical.not_not,
      Classical.not_not] at hBroken
    rcases hBroken with hReturn | hFeed
    · exact ⟨carriageReturn, hReturn, rfl⟩
    · exact ⟨lineFeed, hFeed, rfl⟩
  rcases hEnd with ⟨byte, hMem, hEnd⟩
  rcases List.append_of_mem hMem with ⟨u, v, hName⟩
  have hSplit :
      Text.utf8 command.text =
        before ++ u ++ byte :: (v ++ after) := by
    rw [hText, hName]
    simp only [List.append_assoc, List.cons_append]
  rw [hSplit]
  exact
    Sent.one_lt_length_lines hEnd
      (List.mem_append_left _ hBefore) rfl
      (List.mem_append_right _ hAfter) rfl

/- What stands between two breaks in it is a line of its own. -/
theorem mem_lines_of_enclosed
    {u inner v : List UInt8}
    {a b : UInt8}
    (hNames : Procedure.Names file procedure command argument)
    (hName :
      Text.utf8 file.text = u ++ a :: (inner ++ b :: v))
    (hFirst : Sent.isEnd a = true)
    (hSecond : Sent.isEnd b = true)
    (hPlain : Received.Plain inner)
    (hSome : inner ≠ []) :
    inner ∈
      Sent.lines (Text.utf8 command.text ++ Port.lineEnd) := by
  rcases hNames.exists_utf8_frame with
    ⟨before, after, hText, -, -, -⟩
  have hSplit :
      Text.utf8 command.text =
        before ++ u ++ a :: (inner ++ b :: (v ++ after)) := by
    rw [hText, hName]
    simp only [List.append_assoc, List.cons_append]
  rw [hSplit]
  exact Sent.mem_lines_of_enclosed hFirst hSecond hPlain hSome

end Procedure.Names

------------------------------------------------------------
-- What Is Written
------------------------------------------------------------

namespace Client

variable
  {σ : Type}
  [Port σ]
  {fine : σ → Prop}
  {s : σ}

/-
  Over a port that works, a command that fits is written as its
  text and the end of a line, and nothing else is.
-/
theorem perform_carryOut
    {command : Command}
    (hWorks : Works fine)
    (hFine : fine s)
    (hFits : command.Fits)
    (client : Client) :
    ∃ (outcome : Outcome) (client' : Client) (s' : σ)
      (log : List Event),
      (perform (.carryOut command)).run (client, s) =
          (outcome, client', s') ∧
        (perform (.carryOut command)).run (client, Port.tap s) =
            (outcome, client', ⟨s', log⟩) ∧
          Event.written log =
            Text.utf8 command.text ++ Port.lineEnd := by
  rcases exchange_works hWorks hFine hFits command.patience
    client [] with
    ⟨early, late, sending, sentAt, outcome, waiting, heard, s',
      -, -, hExchange, hTapped, hSends, -⟩
  have hRun :
      ∀ {τ : Type} [Port τ] (t : τ),
        (perform (.carryOut command)).run (client, t) =
          ((exchange command.text command.patience client
              t).1.outcome,
            (exchange command.text command.patience client
              t).2) := by
    intro τ _ t
    unfold perform Procedure.carryOut Procedure.send
    rw [if_pos hFits]
    rfl
  refine
    ⟨outcome.getD .timeout, heard.client, s',
      early.events ++ sending ++ late.events, ?_, ?_, ?_⟩
  · rw [hRun, hExchange]
  · rw [hRun, Port.tap, hTapped]
    rfl
  · rw [Port.written_append, Port.written_append,
      Port.written_events, Port.written_events,
      Port.written_sending hSends, List.nil_append,
      List.append_nil]

/-
  What a client writes for the commands that name the image of a
  valid path. The command fits, and its text is written with the
  end of a line. This is a single command line that quotes the
  name just if the name has no line break. Otherwise it is more
  than one line, and what stands between two breaks in the name
  is a command line of its own.
-/
theorem image_command_written
    {path : UpgradePath}
    {procedure : Procedure Outcome}
    {command : Command}
    {argument : String}
    (hWorks : Works fine)
    (hFine : fine s)
    (hValid : path.Valid)
    (hNames :
      Procedure.Names path.file procedure command argument)
    (client : Client) :
    command.Fits ∧
      ∃ (outcome : Outcome) (client' : Client) (s' : σ)
        (log : List Event),
        (perform procedure).run (client, s) =
            (outcome, client', s') ∧
          (perform procedure).run (client, Port.tap s) =
              (outcome, client', ⟨s', log⟩) ∧
            Event.written log =
                Text.utf8 command.text ++ Port.lineEnd ∧
              Sent.quoted? command.text =
                  some argument.toList ∧
                ((∃ line,
                    Sent.lines (Event.written log) =
                        [Text.utf8 line] ∧
                      Sent.quoted? line =
                        some argument.toList) ↔
                  Text.Unbroken path.file.text) ∧
                  (∀ u a inner b v,
                    Text.utf8 path.file.text =
                        u ++ a :: (inner ++ b :: v) →
                      Sent.isEnd a = true →
                        Sent.isEnd b = true →
                          Received.Plain inner →
                            inner ≠ [] →
                              inner ∈
                                Sent.lines
                                  (Event.written log)) := by
  rcases hNames.sends with ⟨hFits, rfl⟩
  refine ⟨hFits, ?_⟩
  rcases perform_carryOut hWorks hFine hFits client with
    ⟨outcome, client', s', log, hRun, hTapped, hWritten⟩
  have hQuoted := hNames.quoted?_text hValid.1.2
  refine
    ⟨outcome, client', s', log, hRun, hTapped, hWritten,
      hQuoted, ?_, ?_⟩
  · rw [hWritten]
    constructor
    · rintro ⟨line, hLine, -⟩
      refine Classical.byContradiction fun hBroken => ?_
      have hMore := hNames.one_lt_length_of_broken hBroken
      rw [hLine] at hMore
      exact Nat.lt_irrefl 1 hMore
    · intro hUnbroken
      exact ⟨_, hNames.lines_of_unbroken hUnbroken, hQuoted⟩
  · rw [hWritten]
    intro u a inner b v
    exact hNames.mem_lines_of_enclosed

/- The download of the known image is written as one line. -/
theorem known_image_command_written :
    queried.Sound ∧
      ∃ path ∈ UpgradePath.catalogue, path.Valid ∧
        ∃ (outcome : Outcome) (client' : Client)
          (port : Tapped Bench.Wire) (line : String),
          (perform (Procedure.startDownload path.file)).run
                (.fresh, Port.tap queried) =
              (outcome, client', port) ∧
            Sent.lines (Event.written port.log) =
                [Text.utf8 line] ∧
              Sent.quoted? line =
                some ("/" ++ path.file.text).toList := by
  have hSound : queried.Sound :=
    Bench.Wire.sound_answering _ _
  have hKnown :
      ∀ path ∈ UpgradePath.catalogue,
        path.Valid ∧ Text.Unbroken path.file.text := by
    decide +kernel
  rcases List.exists_mem_of_ne_nil UpgradePath.catalogue
    (List.cons_ne_nil _ _) with ⟨path, hMem⟩
  rcases hKnown path hMem with ⟨hValid, hUnbroken⟩
  rcases (image_command_written Bench.Wire.works_sound hSound
      hValid .download .fresh).2 with
    ⟨outcome, client', s', log, -, hTapped, -, -, hLine, -⟩
  rcases hLine.mpr hUnbroken with ⟨line, hLine, hQuoted⟩
  exact
    ⟨hSound, path, hMem, hValid, outcome, client', _, line,
      hTapped, hLine, hQuoted⟩

end Client

/- A path for a file of some name. -/
def UpgradePath.named
    (file : FileName) : UpgradePath where
  start := 2060001
  goal := 3150002
  file := file
  digest :=
    ⟨"fedcba9876543210fedcba9876543210", by decide +kernel⟩

/- A path whose file name has a command between breaks. -/
def UpgradePath.breaking : UpgradePath :=
  .named ⟨"a\r\nAT+CFUN=16\r\nb", by decide +kernel⟩

/- Its download is sent with another command, that of the name. -/
theorem Client.command_sent_from_file_name :
    UpgradePath.breaking.Valid ∧
      ∃ (outcome : Outcome) (client' : Client)
        (port : Tapped Bench.Wire),
        (perform
              (Procedure.startDownload
                UpgradePath.breaking.file)).run
              (.fresh, Port.tap queried) =
            (outcome, client', port) ∧
          (∀ line,
              Sent.lines (Event.written port.log) ≠ [line]) ∧
            Text.utf8 "AT+CFUN=16" ∈
              Sent.lines (Event.written port.log) := by
  have hNames :
      Procedure.Names UpgradePath.breaking.file
        (Procedure.startDownload UpgradePath.breaking.file)
        (.download UpgradePath.breaking.file)
        ("/" ++ UpgradePath.breaking.file.text) :=
    .download
  have hName :
      Text.utf8 UpgradePath.breaking.file.text =
        [97, 13] ++ 10 ::
          (Text.utf8 "AT+CFUN=16" ++ 13 :: [10, 98]) := by
    decide +kernel
  have hPlain : Received.Plain (Text.utf8 "AT+CFUN=16") :=
    Text.plain_utf8_iff.mpr (by decide)
  rcases perform_carryOut Bench.Wire.works_sound
      (Bench.Wire.sound_answering "AT+COPS?" queriedAnswer)
      (Command.fits_download UpgradePath.breaking.file)
      .fresh with
    ⟨outcome, client', s', log, -, hTapped, hWritten⟩
  refine
    ⟨by decide +kernel, outcome, client', _, hTapped, ?_, ?_⟩
  · intro line hLine
    have hMore := hNames.one_lt_length_of_broken (by decide)
    change Sent.lines (Event.written log) = _ at hLine
    rw [← hWritten, hLine] at hMore
    exact Nat.lt_irrefl 1 hMore
  · change _ ∈ Sent.lines (Event.written log)
    rw [hWritten]
    exact
      hNames.mem_lines_of_enclosed hName rfl rfl hPlain
        (by decide +kernel)

end Fota
