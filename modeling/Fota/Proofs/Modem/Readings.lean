import Fota.Modem.Client
import Fota.Proofs.Modem.Lines

/-
  This file defines what a reply amounts to when all its bytes
  are at hand: the lines in order, up to the one that ends it.
  It shows that a client, which hears the bytes one at a time,
  comes to the same.

  Key definitions include:
    * `Client.answers`
    * `Client.ends`
    * `Reading`
    * `Reading.ofBytes`

  The main statements are `Client.hear_eq_reading` and
  `Client.hear_append`.
-/

namespace Fota

open LineBuffer (holding)

------------------------------------------------------------
-- Delivery
------------------------------------------------------------

namespace Mailbox

variable
  {line : String}
  {lines : List String}
  {m : Mailbox}

/- What is no notice is not taken. -/
theorem deliver_of_not_notice
    (hNotice : Report.isNotice line = false) :
    m.deliver line = (false, m) := by
  unfold Report.isNotice at hNotice
  rw [Bool.or_eq_false_iff, Bool.or_eq_false_iff] at hNotice
  simp [deliver, hNotice.1.1, hNotice.1.2, hNotice.2]

@[simp]
theorem deliverAll_nil :
    m.deliverAll [] = m :=
  rfl

@[simp]
theorem deliverAll_cons :
    m.deliverAll (line :: lines) =
      (m.deliver line).2.deliverAll lines :=
  rfl

theorem deliverAll_append
    (first second : List String) :
    m.deliverAll (first ++ second) =
      (m.deliverAll first).deliverAll second := by
  simp [deliverAll]

/- Handing only the notices over makes no difference. -/
theorem deliverAll_filter :
    m.deliverAll (lines.filter Report.isNotice) =
      m.deliverAll lines := by
  induction lines generalizing m with
  | nil =>
      rfl
  | cons line lines ih =>
      cases hNotice : Report.isNotice line with
      | true =>
          rw [List.filter_cons_of_pos hNotice, deliverAll_cons,
            deliverAll_cons, ih]
      | false =>
          rw [List.filter_cons_of_neg (by simp [hNotice]),
            deliverAll_cons, deliver_of_not_notice hNotice, ih]

end Mailbox

------------------------------------------------------------
-- Readings
------------------------------------------------------------

namespace Client

/-
  The line belongs to the reply that is awaited: it is neither a
  notice nor the echo of the command.
-/
def answers
    (awaited : Option String)
    (line : String) : Bool :=
  !Report.isNotice line && awaited.any (fun c => line ≠ c)

/- The line ends the reply that is awaited. -/
def ends
    (awaited : Option String)
    (line : String) : Bool :=
  answers awaited line && (Report.final? line).isSome

theorem exists_final_of_ends
    {awaited : Option String}
    {line : String}
    (hEnds : ends awaited line = true) :
    ∃ outcome, Report.final? line = some outcome := by
  unfold ends at hEnds
  rw [Bool.and_eq_true] at hEnds
  exact Option.isSome_iff_exists.mp hEnds.2

theorem not_notice_of_ends
    {awaited : Option String}
    {line : String}
    (hEnds : ends awaited line = true) :
    Report.isNotice line = false := by
  unfold ends answers at hEnds
  rw [Bool.and_eq_true, Bool.and_eq_true, Bool.not_eq_true']
    at hEnds
  exact hEnds.1.1

end Client

/-
  What the bytes of a reply amount to: the outcome, if a line
  ends the reply, the lines of the reply and the notices before
  that line, and the unfinished line that is left.
-/
structure Reading where
  outcome : Option Outcome
  lines : List String
  notices : List String
  unfinished : List UInt8
deriving DecidableEq, Repr

namespace Reading

open Client (answers ends)

/- The reading of lines, with the bytes that follow them. -/
def ofLines
    (awaited : Option String)
    (lines : List String)
    (unfinished : List UInt8) : Reading :=
  let before := lines.takeWhile (fun line => !ends awaited line)
  { outcome := (lines.find? (ends awaited)).bind Report.final?
    lines := before.filter (answers awaited)
    notices := before.filter Report.isNotice
    unfinished :=
      if lines.any (ends awaited) then [] else unfinished }

/- The reading of bytes. -/
def ofBytes
    (awaited : Option String)
    (bytes : List UInt8) : Reading :=
  ofLines awaited (Received.lines bytes)
    (Received.unfinished bytes)

variable
  {awaited : Option String}
  {line : String}
  {lines : List String}
  {u unfinished bytes : List UInt8}

/- No line of a reply says that the time is up, -/
theorem final?_ne_timeout
    (line : String) :
    Report.final? line ≠ some .timeout := by
  unfold Report.final?
  repeat' split
  all_goals nofun

/- so no reading comes to that. -/
theorem outcome_ofBytes_ne_timeout
    (awaited : Option String)
    (bytes : List UInt8) :
    (ofBytes awaited bytes).outcome ≠ some .timeout := by
  intro hTimeout
  rcases Option.bind_eq_some_iff.mp hTimeout with
    ⟨line, -, hFinal⟩
  exact final?_ne_timeout line hFinal

/- Nothing counts behind the line that ends a reply. -/
theorem ofLines_cons_of_ends
    (hEnds : ends awaited line = true) :
    ofLines awaited (line :: lines) unfinished =
      ⟨Report.final? line, [], [], []⟩ := by
  simp [ofLines, hEnds]

/- Any other line counts before the rest. -/
theorem ofLines_cons
    (hEnds : ends awaited line = false) :
    ofLines awaited (line :: lines) unfinished =
      { ofLines awaited lines unfinished with
        lines :=
          [line].filter (answers awaited) ++
            (ofLines awaited lines unfinished).lines
        notices :=
          [line].filter Report.isNotice ++
            (ofLines awaited lines unfinished).notices } := by
  simp [ofLines, hEnds, ← List.filter_append]

theorem ofBytes_of_plain
    (hPlain : Received.Plain u) :
    ofBytes awaited u = ⟨none, [], [], u⟩ := by
  simp [ofBytes, ofLines, Received.lines_of_plain hPlain,
    Received.unfinished_of_plain hPlain]

theorem ofBytes_append_return :
    ofBytes awaited
        (u ++ LineBuffer.carriageReturn :: bytes) =
      ofBytes awaited (u ++ bytes) := by
  unfold ofBytes
  rw [Received.lines_append_return,
    Received.unfinished_append_return]

theorem ofBytes_append_feed
    (hPlain : Received.Plain u) :
    ofBytes awaited (u ++ LineBuffer.lineFeed :: bytes) =
      ofLines awaited
        ((Received.shown? u).toList ++ Received.lines bytes)
        (Received.unfinished bytes) := by
  unfold ofBytes
  rw [Received.lines_append_feed hPlain,
    Received.unfinished_append_feed hPlain]

/- While no command is awaited, all lines count. -/
theorem ofLines_idle :
    ofLines none lines unfinished =
      ⟨none, [], lines.filter Report.isNotice, unfinished⟩ := by
  induction lines with
  | nil =>
      rfl
  | cons line lines ih =>
      have hAnswers : answers none line = false := by
        simp [answers]
      have hEnds : ends none line = false := by
        simp [ends, hAnswers]
      rw [ofLines_cons hEnds, ih]
      simp [hAnswers, List.filter_cons]
      split <;> rfl

end Reading

------------------------------------------------------------
-- Hearing
------------------------------------------------------------

namespace Client

variable
  {awaited : Option String}
  {buffer : LineBuffer}
  {m : Mailbox}
  {line : String}
  {said : List String}

/- A line that ends the reply gives its outcome. -/
theorem hearLine_of_ends
    {outcome : Outcome}
    (hEnds : ends awaited line = true)
    (hFinal : Report.final? line = some outcome) :
    hearLine awaited line ⟨⟨buffer, m⟩, said⟩ =
      (some outcome, ⟨⟨buffer, m⟩, said⟩) := by
  unfold ends answers at hEnds
  rw [Bool.and_eq_true, Bool.and_eq_true, Bool.not_eq_true']
    at hEnds
  rcases hEnds with ⟨⟨hNotice, hOther⟩, _⟩
  cases awaited with
  | none =>
      cases hOther
  | some command =>
      have hEcho : line ≠ command := by
        simpa using hOther
      simp [hearLine, Mailbox.deliver_of_not_notice hNotice,
        hEcho, hFinal]

/- Any other line is handed over, and joins the reply it is of. -/
theorem hearLine_of_not_ends
    (hEnds : ends awaited line = false) :
    hearLine awaited line ⟨⟨buffer, m⟩, said⟩ =
      (none,
        ⟨⟨buffer, (m.deliver line).2⟩,
          said ++ [line].filter (answers awaited)⟩) := by
  cases hNotice : Report.isNotice line with
  | true =>
      simp [hearLine, Mailbox.deliver_fst, hNotice, answers]
  | false =>
      cases awaited with
      | none =>
          simp [hearLine, Mailbox.deliver_fst, hNotice, answers]
      | some command =>
          by_cases hEcho : line = command
          · subst hEcho
            simp [hearLine, Mailbox.deliver_fst, hNotice, answers]
          · have hFinal : Report.final? line = none := by
              simpa [ends, answers, hNotice, hEcho] using hEnds
            simp [hearLine, Mailbox.deliver_fst, hNotice, answers,
              hEcho, hFinal]

/- Bytes may be heard in two parts, unless the first ends it. -/
theorem hear_append
    (first second : List UInt8)
    (heard : Heard) :
    hear awaited (first ++ second) heard =
      match hear awaited first heard with
      | (some outcome, heard) => (some outcome, heard)
      | (none, heard) => hear awaited second heard := by
  induction first generalizing heard with
  | nil =>
      rfl
  | cons byte bytes ih =>
      rw [List.cons_append, hear, hear]
      cases (heard.client.buffer.push byte).1 with
      | none =>
          exact ih _
      | some line =>
          dsimp only
          split
          · rfl
          · exact ih _

/-
  A client that holds an unfinished line hears in further bytes
  what is read in the line and these bytes together.
-/
theorem hear_eq_reading
    (awaited : Option String)
    (u bytes : List UInt8)
    (hPlain : Received.Plain u)
    (m : Mailbox)
    (said : List String) :
    hear awaited bytes ⟨⟨holding u, m⟩, said⟩ =
      ((Reading.ofBytes awaited (u ++ bytes)).outcome,
        ⟨⟨holding (Reading.ofBytes awaited (u ++ bytes)).unfinished,
            m.deliverAll
              (Reading.ofBytes awaited (u ++ bytes)).notices⟩,
          said ++
            (Reading.ofBytes awaited (u ++ bytes)).lines⟩) := by
  induction u, bytes, hPlain using Received.induction
    generalizing m said with
  | nil u hPlain =>
      rw [List.append_nil, Reading.ofBytes_of_plain hPlain]
      simp [hear]
  | skip u bytes hPlain ih =>
      rw [Reading.ofBytes_append_return, ← ih]
      simp [hear, LineBuffer.push_return]
  | join u byte bytes hPlain hReturn hFeed ih =>
      rw [List.append_cons, ← ih]
      simp [hear, LineBuffer.push_join hReturn hFeed]
  | feed u bytes hPlain ih =>
      rw [Reading.ofBytes_append_feed hPlain]
      rw [hear, LineBuffer.push_feed]
      cases hShown : Received.shown? u with
      | none =>
          exact ih m said
      | some line =>
          simp only [Option.toList_some, List.singleton_append]
          cases hEnds : ends awaited line with
          | true =>
              rcases exists_final_of_ends hEnds with
                ⟨outcome, hFinal⟩
              rw [Reading.ofLines_cons_of_ends hEnds, hFinal]
              simp [hearLine_of_ends hEnds hFinal]
          | false =>
              rw [Reading.ofLines_cons hEnds]
              simp only [hearLine_of_not_ends hEnds]
              rw [ih]
              simp [Reading.ofBytes, Mailbox.deliverAll_append,
                Mailbox.deliverAll_filter]

end Client

end Fota
