import Fota.Bytes.Checksum
import Fota.Bytes.LittleEndian
import Mathlib.Algebra.Group.Nat.Defs

/-
  This file shows what can be told from bytes that were written
  earlier. A number is read back up to its width, and no change
  of a single byte keeps a checksum.

  The main statements are `Bytes.value_little` and
  `Bytes.set_eq_of_checksum_eq`.
-/

namespace Fota

namespace Bytes

------------------------------------------------------------
-- Numbers
------------------------------------------------------------

/- Reading a written number gives it back, up to its width. -/
theorem value_little
    (width n : Nat) :
    value (little width n) = n % 256 ^ width := by
  induction width generalizing n with
  | zero =>
      simp [little, value, Nat.mod_one]
  | succ width ih =>
      have hByte : (UInt8.ofNat (n % 256)).toNat = n % 256 := by
        simp
      simp only [little, value, ih, hByte]
      rw [Nat.pow_succ, Nat.mul_comm (256 ^ width) 256,
        Nat.mod_mul]

/- A number is below the limit that its width sets. -/
theorem value_lt
    (bs : List UInt8) :
    value bs < 256 ^ bs.length := by
  have hRead := value_little bs.length (value bs)
  rw [little_value] at hRead
  calc
    value bs = value bs % 256 ^ bs.length := hRead
    _ < 256 ^ bs.length :=
      Nat.mod_lt _ (Nat.pow_pos (by decide))

------------------------------------------------------------
-- Checksums
------------------------------------------------------------

/- Rotating a byte seven times more gives it back. -/
theorem rotated_back
    (b : UInt8) :
    (rotate b <<< 7) ||| (rotate b >>> 1) = b := by
  have hBits :
      ∀ v : BitVec 8,
        ((v <<< 1 ||| v >>> 7) <<< 7 |||
          (v <<< 1 ||| v >>> 7) >>> 1) = v := by
    decide +kernel
  exact UInt8.eq_of_toBitVec_eq (hBits b.toBitVec)

theorem eq_of_rotate_eq
    {a b : UInt8}
    (hEq : rotate a = rotate b) :
    a = b := by
  rw [← rotated_back a, ← rotated_back b, hEq]

/- Counting the same bytes keeps different sums different. -/
theorem eq_of_foldl_rotate_eq
    (bs : List UInt8)
    {s t : UInt8}
    (hEq :
      bs.foldl (fun sum b => sum ^^^ rotate b) s =
        bs.foldl (fun sum b => sum ^^^ rotate b) t) :
    s = t := by
  induction bs generalizing s t with
  | nil =>
      exact hEq
  | cons b bs ih =>
      exact (UInt8.xor_left_inj (rotate b)).mp (ih hEq)

/- A checksum tells two bytes in the same place apart. -/
theorem eq_of_checksum_eq
    {front back : List UInt8}
    {a b : UInt8}
    (hEq :
      checksum (front ++ a :: back) =
        checksum (front ++ b :: back)) :
    a = b := by
  unfold checksum at hEq
  rw [List.foldl_append, List.foldl_append] at hEq
  have hSums := eq_of_foldl_rotate_eq back hEq
  exact eq_of_rotate_eq ((UInt8.xor_right_inj _).mp hSums)

/- A write of one byte that keeps the checksum changes nothing. -/
theorem set_eq_of_checksum_eq
    {bs : List UInt8}
    {i : Nat}
    {b : UInt8}
    (hEq : checksum (bs.set i b) = checksum bs) :
    bs.set i b = bs := by
  by_cases hIn : i < bs.length
  · have hSplit :
        bs.take i ++ bs[i] :: bs.drop (i + 1) = bs := by
      rw [List.getElem_cons_drop, List.take_append_drop]
    have hSet :
        bs.set i b = bs.take i ++ b :: bs.drop (i + 1) := by
      rw [List.set_eq_take_append_cons_drop, if_pos hIn]
    have hSame : b = bs[i] := by
      apply eq_of_checksum_eq
      rw [← hSet, hSplit]
      exact hEq
    rw [hSame]
    exact List.set_getElem_self hIn
  · exact List.set_eq_of_length_le (by omega)

end Bytes

end Fota
