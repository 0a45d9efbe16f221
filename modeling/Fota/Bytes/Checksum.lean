/-
  This file defines the eight-bit checksum that guards stored
  bytes.

  Key definitions include:
    * `Bytes.checksum`
-/

namespace Fota

namespace Bytes

------------------------------------------------------------
-- Checksum
------------------------------------------------------------

/- A byte whose bits have moved up by one place, around the end. -/
def rotate
    (b : UInt8) : UInt8 :=
  (b <<< 1) ||| (b >>> 7)

/- The checksum before any byte is counted. -/
def checksumSeed : UInt8 :=
  0x5A

/- The rotated bytes and the seed, combined by exclusive or. -/
def checksum
    (bs : List UInt8) : UInt8 :=
  bs.foldl (fun sum b => sum ^^^ rotate b) checksumSeed

end Bytes

end Fota
