/-
  This file defines flash memory: a row of bytes that is read
  and written in pieces. A piece that leaves the memory, or an
  access that the memory fails, is refused and changes nothing.

  Key definitions include:
    * `Flash`
    * `Flash.erased`
    * `Flash.read?`
    * `Flash.write?`
    * `Flash.peek`
    * `Flash.poke`
-/

namespace Fota

------------------------------------------------------------
-- Flash
------------------------------------------------------------

/- The bytes of a flash memory, and whether accesses fail. -/
structure Flash where
  bytes : List UInt8
  readFails : Bool
  writeFails : Bool
deriving DecidableEq, Repr

namespace Flash

/- A memory of which every bit is set. -/
def erased
    (capacity : Nat) : Flash where
  bytes := List.replicate capacity 0xFF
  readFails := false
  writeFails := false

/- The number of bytes in the memory. -/
def capacity
    (flash : Flash) : Nat :=
  flash.bytes.length

/- Up to `size` bytes from an offset on, whatever accesses do. -/
def peek
    (offset size : Nat)
    (flash : Flash) : List UInt8 :=
  (flash.bytes.drop offset).take size

/- Put bytes at an offset, whatever accesses do. -/
def poke
    (offset : Nat)
    (piece : List UInt8)
    (flash : Flash) : Flash :=
  if offset + piece.length ≤ flash.capacity then
    { flash with
      bytes :=
        flash.bytes.take offset ++ piece ++
          flash.bytes.drop (offset + piece.length) }
  else
    flash

/- Read a piece of the memory. -/
def read?
    (offset size : Nat)
    (flash : Flash) : Option (List UInt8) :=
  if flash.readFails ∨ flash.capacity < offset + size then
    none
  else
    some (flash.peek offset size)

/- Write a piece of the memory. -/
def write?
    (offset : Nat)
    (piece : List UInt8)
    (flash : Flash) : Option Flash :=
  if flash.writeFails ∨
      flash.capacity < offset + piece.length then
    none
  else
    some (flash.poke offset piece)

/- A piece keeps the size of the memory. -/
@[simp]
theorem capacity_poke
    (offset : Nat)
    (piece : List UInt8)
    (flash : Flash) :
    (flash.poke offset piece).capacity = flash.capacity := by
  unfold poke
  split
  · next hFits =>
      simp only [capacity, List.length_append, List.length_take,
        List.length_drop] at hFits ⊢
      omega
  · rfl

end Flash

end Fota
