import Fota.Text.Blank
import Fota.Text.Decimal
import Fota.Text.Field

/-
  This file defines the version key of modem firmware. The modem
  names its firmware by a text such as `02.06,A00.01`, made of
  the pair of the modem and the pair of the application. The key
  packs both pairs into one number that orders versions;
  engineering builds carry a marker and come after all others.

  Key definitions include:
    * `Version.pack`
    * `Version.read?`
    * `Version.key`
-/

namespace Fota

namespace Version

------------------------------------------------------------
-- Packing
------------------------------------------------------------

/- What the key of an engineering build is raised by. -/
def engineeringOffset : UInt32 :=
  100000000

/- The marker of an engineering build. -/
def engineeringMarker : List Char :=
  "_ENG".toList

/- The key of two version pairs and the engineering mark. -/
def pack
    (engineering : Bool)
    (modem application : UInt32 × UInt32) : UInt32 :=
  let base :=
    modem.1 * 1000000 + modem.2 * 10000 +
      application.1 * 100 + application.2
  if engineering then
    base + engineeringOffset
  else
    base

------------------------------------------------------------
-- Reading
------------------------------------------------------------

/- Read a pair such as `02.06`; each part is at most 99. -/
def readPair?
    (cs : List Char) : Option (UInt32 × UInt32) := do
  let sides ← Text.cut? '.' (Text.trim cs)
  let major ← Decimal.readWord? sides.1
  let minor ← Decimal.readWord? sides.2
  if 99 < major ∨ 99 < minor then
    none
  else
    some (major, minor)

/- The part of the modem's field before the engineering marker. -/
def unmarked
    (cs : List Char) : List Char :=
  (Text.upTo? engineeringMarker cs).getD cs

/- Whether the modem's field carries the engineering marker. -/
def isMarked
    (cs : List Char) : Bool :=
  (Text.upTo? engineeringMarker cs).isSome

/- The key of a version text. -/
def read?
    (cs : List Char) : Option UInt32 := do
  let sides ← Text.cut? ',' (Text.trim cs)
  let modem ← readPair? (unmarked sides.1)
  let rest ← Text.after? ['A'] (Text.trim sides.2)
  let application ← readPair? rest
  return pack (isMarked sides.1) modem application

/- The key of a text, zero when the text is not a version. -/
def key
    (text : String) : UInt32 :=
  (read? text.toList).getD 0

end Version

end Fota
