/-
  This file defines the text of bytes: two hexadecimal digits a
  byte, the high half first.

  Key definitions include:
    * `Bytes.hex`
    * `Bytes.ofHex?`
-/

namespace Fota

namespace Bytes

------------------------------------------------------------
-- Digits
------------------------------------------------------------

/- The digits, in the order of their values. -/
def hexDigits : List Char :=
  "0123456789abcdef".toList

/- The digit of a value below sixteen. -/
def hexDigit
    (n : Nat) : Char :=
  hexDigits.getD n '0'

/- The value of a digit. -/
def hexValue?
    (c : Char) : Option Nat :=
  hexDigits.idxOf? c

------------------------------------------------------------
-- Text of Bytes
------------------------------------------------------------

/- The digits of a byte. -/
def hexPair
    (b : UInt8) : List Char :=
  [hexDigit (b.toNat / 16), hexDigit (b.toNat % 16)]

/- The text of bytes. -/
def hex
    (bs : List UInt8) : String :=
  String.ofList (bs.flatMap hexPair)

/- The byte that two digits denote. -/
def ofHexPair?
    (high low : Char) : Option UInt8 := do
  let h ← hexValue? high
  let l ← hexValue? low
  return UInt8.ofNat (16 * h + l)

/- The bytes that digits denote, two digits a byte. -/
def ofHexDigits? : List Char → Option (List UInt8)
| [] => some []
| [_] => none
| high :: low :: digits => do
    let b ← ofHexPair? high low
    let bs ← ofHexDigits? digits
    return b :: bs

/- The bytes that a text denotes. -/
def ofHex?
    (text : String) : Option (List UInt8) :=
  ofHexDigits? text.toList

end Bytes

end Fota
