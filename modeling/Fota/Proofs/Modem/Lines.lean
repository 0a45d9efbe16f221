import Fota.Modem.LineBuffer

/-
  This file defines how received bytes are read as lines when
  all of them are at hand: carriage returns are dropped, the
  rest is split at line feeds, and what the last of them leaves
  is the unfinished line. It shows that a line buffer, which
  gets one byte at a time, finds the same lines.

  Key definitions include:
    * `Received.pieces`
    * `Received.shown?`
    * `Received.lines`
    * `Received.unfinished`
    * `LineBuffer.holding`

  The main statements are `Received.shown?_eq_some_iff`, which
  says which lines are kept, `Received.lines_append`, by which
  bytes may be read in parts, and the lemmas on
  `LineBuffer.push`.
-/

namespace Fota

open LineBuffer (carriageReturn lineFeed room)

namespace Received

------------------------------------------------------------
-- Lines
------------------------------------------------------------

/- The bytes between line feeds, without carriage returns. -/
def pieces
    (bytes : List UInt8) : List (List UInt8) :=
  (bytes.filter (· ≠ carriageReturn)).splitOn lineFeed

/- The line that a piece shows, unless it is dropped. -/
def shown?
    (piece : List UInt8) : Option String :=
  if piece.length ≤ room then
    LineBuffer.lineText? piece
  else
    none

/- The lines that came to their end and are kept, in order. -/
def lines
    (bytes : List UInt8) : List String :=
  (pieces bytes).dropLast.filterMap shown?

/- The bytes of the line that has not come to its end. -/
def unfinished
    (bytes : List UInt8) : List UInt8 :=
  (pieces bytes).getLastD []

/-
  A line is kept when it has room, is the encoding of some text
  and that text is not blank. It is trimmed.
-/
theorem shown?_eq_some_iff
    {piece : List UInt8}
    {line : String} :
    shown? piece = some line ↔
      piece.length ≤ room ∧
        ∃ text : String,
          Text.utf8 text = piece ∧
            Text.trim text.toList ≠ [] ∧
              line = String.ofList (Text.trim text.toList) := by
  have hText :
      LineBuffer.lineText? piece = some line ↔
        ∃ text : String,
          Text.utf8 text = piece ∧
            Text.trim text.toList ≠ [] ∧
              line = String.ofList (Text.trim text.toList) := by
    unfold LineBuffer.lineText?
    simp only [bind, Option.bind_eq_some_iff,
      Text.ofUtf8?_eq_some_iff]
    refine exists_congr fun text => and_congr_right fun _ => ?_
    split
    · next hBlank =>
        simp [hBlank]
    · next hKept =>
        rw [Option.some.injEq, eq_comm]
        exact (and_iff_right hKept).symm
  unfold shown?
  split
  · next hFits =>
      rw [hText, and_iff_right hFits]
  · next hLong =>
      simp [hLong]

------------------------------------------------------------
-- Plain Bytes
------------------------------------------------------------

/- Bytes that neither end a line nor are skipped in one. -/
def Plain
    (u : List UInt8) : Prop :=
  carriageReturn ∉ u ∧ lineFeed ∉ u

variable
  {u bytes : List UInt8}
  {byte : UInt8}

theorem plain_nil :
    Plain [] := by
  simp [Plain]

theorem plain_concat
    (hPlain : Plain u)
    (hReturn : byte ≠ carriageReturn)
    (hFeed : byte ≠ lineFeed) :
    Plain (u ++ [byte]) := by
  simp [Plain, hPlain.1, hPlain.2, hReturn.symm, hFeed.symm]

/- Plain bytes are kept when carriage returns are dropped. -/
theorem filter_of_plain
    (hPlain : Plain u) :
    u.filter (· ≠ carriageReturn) = u := by
  rw [List.filter_eq_self]
  intro b hMem
  have hNe : b ≠ carriageReturn := by
    rintro rfl
    exact hPlain.1 hMem
  simpa using hNe

theorem pieces_of_plain
    (hPlain : Plain u) :
    pieces u = [u] := by
  unfold pieces
  rw [filter_of_plain hPlain]
  exact List.splitOn_eq_singleton hPlain.2

theorem pieces_append_return :
    pieces (u ++ carriageReturn :: bytes) =
      pieces (u ++ bytes) := by
  simp [pieces]

/- A line feed ends the piece before it. -/
theorem pieces_append_feed
    (hPlain : Plain u) :
    pieces (u ++ lineFeed :: bytes) = u :: pieces bytes := by
  have hKept : lineFeed ≠ carriageReturn := by
    decide
  unfold pieces
  rw [List.filter_append, filter_of_plain hPlain,
    List.filter_cons_of_pos (by simpa using hKept)]
  exact List.splitOn_append_cons_self_of_not_mem hPlain.2 _

theorem pieces_ne_nil :
    pieces bytes ≠ [] :=
  List.splitOn_ne_nil _ _

------------------------------------------------------------
-- Reading in Parts
------------------------------------------------------------

/-
  An induction over bytes that are received while an unfinished
  line `u` is held: a carriage return is skipped, a line feed
  ends the line, and any other byte joins it.
-/
@[elab_as_elim]
theorem induction
    {motive : (u bytes : List UInt8) → Plain u → Prop}
    (nil : ∀ u hPlain, motive u [] hPlain)
    (skip : ∀ u bytes hPlain,
      motive u bytes hPlain →
        motive u (carriageReturn :: bytes) hPlain)
    (feed : ∀ u bytes hPlain,
      motive [] bytes plain_nil →
        motive u (lineFeed :: bytes) hPlain)
    (join : ∀ u byte bytes hPlain
      (hReturn : byte ≠ carriageReturn)
      (hFeed : byte ≠ lineFeed),
      motive (u ++ [byte]) bytes
          (plain_concat hPlain hReturn hFeed) →
        motive u (byte :: bytes) hPlain)
    (u bytes : List UInt8)
    (hPlain : Plain u) :
    motive u bytes hPlain := by
  induction bytes generalizing u with
  | nil =>
      exact nil u hPlain
  | cons byte bytes ih =>
      by_cases hReturn : byte = carriageReturn
      · subst hReturn
        exact skip u bytes hPlain (ih u hPlain)
      · by_cases hFeed : byte = lineFeed
        · subst hFeed
          exact feed u bytes hPlain (ih [] plain_nil)
        · exact
            join u byte bytes hPlain hReturn hFeed
              (ih (u ++ [byte]) _)

theorem lines_of_plain
    (hPlain : Plain u) :
    lines u = [] := by
  simp [lines, pieces_of_plain hPlain]

theorem unfinished_of_plain
    (hPlain : Plain u) :
    unfinished u = u := by
  simp [unfinished, pieces_of_plain hPlain]

@[simp]
theorem lines_nil :
    lines [] = [] :=
  lines_of_plain plain_nil

@[simp]
theorem unfinished_nil :
    unfinished [] = [] :=
  unfinished_of_plain plain_nil

theorem lines_append_return :
    lines (u ++ carriageReturn :: bytes) =
      lines (u ++ bytes) := by
  unfold lines
  rw [pieces_append_return]

theorem unfinished_append_return :
    unfinished (u ++ carriageReturn :: bytes) =
      unfinished (u ++ bytes) := by
  unfold unfinished
  rw [pieces_append_return]

theorem lines_append_feed
    (hPlain : Plain u) :
    lines (u ++ lineFeed :: bytes) =
      (shown? u).toList ++ lines bytes := by
  unfold lines
  rw [pieces_append_feed hPlain,
    List.dropLast_cons_of_ne_nil pieces_ne_nil,
    List.filterMap_cons]
  cases shown? u <;> rfl

theorem unfinished_append_feed
    (hPlain : Plain u) :
    unfinished (u ++ lineFeed :: bytes) = unfinished bytes := by
  unfold unfinished
  rw [pieces_append_feed hPlain]
  cases hPieces : pieces bytes with
  | nil =>
      exact absurd hPieces pieces_ne_nil
  | cons piece rest =>
      rfl

/- The unfinished line is plain. -/
theorem plain_unfinished
    (bytes : List UInt8) :
    Plain (unfinished bytes) := by
  have hHeld : ∀ u bytes, Plain u →
      Plain (unfinished (u ++ bytes)) := by
    intro u bytes hPlain
    induction u, bytes, hPlain using Received.induction with
    | nil u hPlain =>
        rw [List.append_nil, unfinished_of_plain hPlain]
        exact hPlain
    | skip u bytes hPlain ih =>
        rw [unfinished_append_return]
        exact ih
    | feed u bytes hPlain ih =>
        rw [unfinished_append_feed hPlain]
        exact ih
    | join u byte bytes hPlain hReturn hFeed ih =>
        rw [List.append_cons]
        exact ih
  exact hHeld [] bytes plain_nil

/- Bytes may be read in two parts, the unfinished line carried. -/
theorem lines_append
    (first second : List UInt8) :
    lines (first ++ second) =
        lines first ++ lines (unfinished first ++ second) ∧
      unfinished (first ++ second) =
        unfinished (unfinished first ++ second) := by
  have hHeld : ∀ u first, Plain u →
      lines (u ++ first ++ second) =
          lines (u ++ first) ++
            lines (unfinished (u ++ first) ++ second) ∧
        unfinished (u ++ first ++ second) =
          unfinished (unfinished (u ++ first) ++ second) := by
    intro u first hPlain
    induction u, first, hPlain using Received.induction with
    | nil u hPlain =>
        rw [List.append_nil, lines_of_plain hPlain,
          unfinished_of_plain hPlain]
        exact ⟨rfl, rfl⟩
    | skip u bytes hPlain ih =>
        rw [List.append_assoc, List.cons_append,
          lines_append_return, lines_append_return,
          unfinished_append_return, unfinished_append_return,
          ← List.append_assoc]
        exact ih
    | feed u bytes hPlain ih =>
        rw [List.append_assoc, List.cons_append,
          lines_append_feed hPlain, lines_append_feed hPlain,
          unfinished_append_feed hPlain,
          unfinished_append_feed hPlain, List.append_assoc]
        exact ⟨congrArg _ ih.1, ih.2⟩
    | join u byte bytes hPlain hReturn hFeed ih =>
        rw [List.append_cons]
        exact ih
  exact hHeld [] first plain_nil

end Received

------------------------------------------------------------
-- Line Buffers
------------------------------------------------------------

namespace LineBuffer

open Received

variable
  {u : List UInt8}
  {byte : UInt8}

/-
  The buffer that holds an unfinished line: as much of it as
  there is room for.
-/
def holding
    (u : List UInt8) : LineBuffer where
  bytes := u.take room
  overflow := decide (room < u.length)

theorem empty_eq_holding :
    empty = holding [] :=
  rfl

theorem push_return
    (buffer : LineBuffer) :
    buffer.push carriageReturn = (none, buffer) := by
  simp [push]

/- A line feed finishes the line, if it is kept. -/
theorem push_feed
    (u : List UInt8) :
    (holding u).push lineFeed = (shown? u, holding []) := by
  have hOther : lineFeed ≠ carriageReturn := by
    decide
  have hClose : (holding u).close = shown? u := by
    unfold close holding shown?
    by_cases hRoom : room < u.length
    · have hLong : ¬ u.length ≤ room := by
        omega
      simp [hRoom, hLong]
    · have hFits : u.length ≤ room := by
        omega
      simp [hRoom, hFits, List.take_of_length_le hFits]
  unfold push
  rw [if_neg hOther, if_pos rfl, hClose]
  rfl

/- Any other byte joins the line. -/
theorem push_join
    (hReturn : byte ≠ carriageReturn)
    (hFeed : byte ≠ lineFeed) :
    (holding u).push byte = (none, holding (u ++ [byte])) := by
  have hAdd : (holding u).add byte = holding (u ++ [byte]) := by
    unfold add holding
    rw [List.length_take]
    by_cases hRoom : u.length < room
    · have hFits : (u ++ [byte]).length ≤ room := by
        rw [List.length_append, List.length_singleton]
        omega
      rw [if_pos (by omega), List.take_of_length_le hFits,
        List.take_of_length_le (by omega)]
      simp
      omega
    · have hFull : room ≤ u.length := by
        omega
      rw [if_neg (by omega), List.take_append_of_le_length hFull]
      simp
      omega
  unfold push
  rw [if_neg hReturn, if_neg hFeed, hAdd]

end LineBuffer

end Fota
