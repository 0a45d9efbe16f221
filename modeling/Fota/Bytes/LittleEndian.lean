/-
  This file defines numbers as bytes, least significant byte
  first.

  Key definitions include:
    * `Bytes.little`
    * `Bytes.value`

  The main statement says that the number which bytes denote is
  written as these bytes.
-/

namespace Fota

namespace Bytes

------------------------------------------------------------
-- Little-Endian Numbers
------------------------------------------------------------

/- The `width` low bytes of a number. -/
def little :
    Nat → Nat → List UInt8
| 0, _ => []
| width + 1, n =>
    UInt8.ofNat (n % 256) :: little width (n / 256)

/- The number that bytes denote. -/
def value : List UInt8 → Nat
| [] => 0
| b :: bs => b.toNat + 256 * value bs

/- A number is written in as many bytes as asked for. -/
@[simp]
theorem length_little
    (width n : Nat) :
    (little width n).length = width := by
  induction width generalizing n with
  | zero =>
      rfl
  | succ width ih =>
      simp [little, ih]

/- Bytes are the written form of the number that they denote. -/
theorem little_value
    (bs : List UInt8) :
    little bs.length (value bs) = bs := by
  induction bs with
  | nil =>
      rfl
  | cons b bs ih =>
      have hLt := b.toNat_lt
      have hMod : (b.toNat + 256 * value bs) % 256 = b.toNat := by
        omega
      have hDiv :
          (b.toNat + 256 * value bs) / 256 = value bs := by
        omega
      simp only [List.length_cons, little, value, hMod, hDiv, ih]
      simp

end Bytes

end Fota
