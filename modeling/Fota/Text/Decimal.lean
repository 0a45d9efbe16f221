/-
  This file defines the reading of unsigned decimal numbers
  below a limit. Any count of leading zeros is accepted; signs,
  blanks and other characters are not.

  Key definitions include:
    * `Decimal.read?`
    * `Decimal.readByte?`
    * `Decimal.readHalf?`
    * `Decimal.readWord?`
-/

namespace Fota

namespace Decimal

------------------------------------------------------------
-- Reading Digits
------------------------------------------------------------

/- The value of a digit character. -/
def digitValue
    (c : Char) : Nat :=
  c.toNat - '0'.toNat

/-
  Append one digit to a number, as long as the result stays
  below the limit.
-/
def extend?
    (limit : Nat)
    (n : Nat)
    (c : Char) : Option Nat :=
  if c.isDigit ∧ 10 * n + digitValue c < limit then
    some (10 * n + digitValue c)
  else
    none

/- The number below `limit` that the digits denote. -/
def read?
    (limit : Nat) :
    List Char → Option Nat
| [] => none
| c :: cs => (c :: cs).foldlM (extend? limit) 0

------------------------------------------------------------
-- Fixed Widths
------------------------------------------------------------

/- The number below 2 ^ 8 that the digits denote. -/
def readByte?
    (cs : List Char) : Option UInt8 :=
  (read? UInt8.size cs).map UInt8.ofNat

/- The number below 2 ^ 16 that the digits denote. -/
def readHalf?
    (cs : List Char) : Option UInt16 :=
  (read? UInt16.size cs).map UInt16.ofNat

/- The number below 2 ^ 32 that the digits denote. -/
def readWord?
    (cs : List Char) : Option UInt32 :=
  (read? UInt32.size cs).map UInt32.ofNat

end Decimal

end Fota
