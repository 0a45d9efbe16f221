import Fota.Text.Blank
import Fota.Text.Utf8

/-
  This file defines the buffer that turns received bytes into
  lines. A line ends at a line feed; carriage returns are
  skipped. Lines that are too long, not text or blank are
  dropped.

  Key definitions include:
    * `LineBuffer`
    * `LineBuffer.close`
    * `LineBuffer.push`
-/

namespace Fota

------------------------------------------------------------
-- Line Buffer
------------------------------------------------------------

/-
  The bytes of the unfinished line, and whether more of them
  came than there is room for.
-/
structure LineBuffer where
  bytes : List UInt8
  overflow : Bool
deriving DecidableEq, Repr

namespace LineBuffer

/- The number of bytes that a line may have. -/
def room : Nat :=
  256

/- A buffer at the start of a line. -/
def empty : LineBuffer where
  bytes := []
  overflow := false

/- The byte that is skipped in lines. -/
def carriageReturn : UInt8 :=
  13

/- The byte that ends a line. -/
def lineFeed : UInt8 :=
  10

/- The trimmed text of a line, if it is text and not blank. -/
def lineText?
    (bytes : List UInt8) : Option String := do
  let text ← Text.ofUtf8? bytes
  let trimmed := Text.trim text.toList
  if trimmed = [] then
    none
  else
    some (String.ofList trimmed)

/- The line that a finished buffer holds. -/
def close
    (buffer : LineBuffer) : Option String :=
  if buffer.overflow then
    none
  else
    lineText? buffer.bytes

/- Add one byte of a line, as long as there is room. -/
def add
    (byte : UInt8)
    (buffer : LineBuffer) : LineBuffer :=
  if buffer.bytes.length < room then
    { buffer with bytes := buffer.bytes ++ [byte] }
  else
    { buffer with overflow := true }

/- Receive one byte: the line that it finished, and the buffer. -/
def push
    (byte : UInt8)
    (buffer : LineBuffer) : Option String × LineBuffer :=
  if byte = carriageReturn then
    (none, buffer)
  else if byte = lineFeed then
    (buffer.close, empty)
  else
    (none, buffer.add byte)

end LineBuffer

end Fota
