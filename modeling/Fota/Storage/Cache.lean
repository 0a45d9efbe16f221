import Fota.Bytes.Checksum
import Fota.Bytes.LittleEndian
import Fota.Fault
import Fota.Storage.Flash

/-
  This file defines the system cache, which keeps one value per
  key in flash memory. Every key owns a slot of fixed size. A
  used slot holds a magic number, the number of the key, the
  size of the value, the value and a checksum.

  Offsets are words of 32 bits, and the target counts bytes in
  words of its own. Sums of either kind wrap around.

  Key definitions include:
    * `Target`
    * `CacheKey`
    * `Cache`
    * `Cache.place`
    * `Cache.atEnd`
    * `Cache.get`
    * `Cache.set`
    * `Cache.delete`
-/

namespace Fota

------------------------------------------------------------
-- Targets
------------------------------------------------------------

/- A target counts bytes in words of 32 or of 64 bits. -/
inductive Target where
| bits32
| bits64
deriving DecidableEq, Repr

namespace Target

/- How many words a target has. -/
def words : Target → Nat
| bits32 => UInt32.size
| bits64 => UInt64.size

/- The sum of two words. -/
def add
    (target : Target)
    (m n : Nat) : Nat :=
  (m + n) % target.words

end Target

------------------------------------------------------------
-- Keys
------------------------------------------------------------

/- The keys of the cache. -/
inductive CacheKey where
| updateRecord
| bootMode
deriving DecidableEq, Repr

namespace CacheKey

/- Every key, in the order of its slot. -/
def all : List CacheKey :=
  [updateRecord, bootMode]

/- The number that marks the slot of a key. -/
def code : CacheKey → UInt8
| updateRecord => 1
| bootMode => 2

/- The position of the slot of a key. -/
def slot : CacheKey → Nat
| updateRecord => 0
| bootMode => 1

end CacheKey

------------------------------------------------------------
-- Cache
------------------------------------------------------------

/- A cache is known by the offset of its first slot. -/
structure Cache where
  offset : UInt32
deriving DecidableEq, Repr

namespace Cache

/- The size of a slot. -/
def slotSize : Nat :=
  1024

/- The number of slots. -/
def slotCount : Nat :=
  4

/- The size of what stands before a value. -/
def headerSize : Nat :=
  8

/- The number of bytes that all slots take. -/
def span : Nat :=
  slotCount * slotSize

/- The size that a value may have. -/
def valueMax : Nat :=
  slotSize - headerSize - 1

/- The number that begins a used slot. -/
def magic : Nat :=
  0x53434845

/-
  Place a cache at an offset, if its slots fit behind it as the
  target counts.
-/
def place
    (target : Target)
    (offset : UInt32)
    (flash : Flash) : Except Fault Cache :=
  if flash.capacity < target.add offset.toNat span then
    .error .limitExceeded
  else
    .ok ⟨offset⟩

/- Place a cache in the last slots of the memory. -/
def atEnd
    (target : Target)
    (flash : Flash) : Except Fault Cache :=
  if flash.capacity < span then
    .error .limitExceeded
  else
    place target (.ofNat (flash.capacity - span)) flash

/- The offset of the slot of a key. -/
def slotOffset
    (key : CacheKey)
    (cache : Cache) : UInt32 :=
  cache.offset + .ofNat (key.slot * slotSize)

/- The position in memory where the slot of a key begins. -/
def slotStart
    (key : CacheKey)
    (cache : Cache) : Nat :=
  (cache.slotOffset key).toNat

------------------------------------------------------------
-- Slots
------------------------------------------------------------

/- What stands before a value of a given size. -/
def header
    (key : CacheKey)
    (size : Nat) : List UInt8 :=
  Bytes.little 4 magic ++ [key.code, 0] ++ Bytes.little 2 size

/- A value between its header and its checksum. -/
def image
    (key : CacheKey)
    (value : List UInt8) : List UInt8 :=
  let body := header key value.length ++ value
  body ++ [Bytes.checksum body]

/- The header of a slot that holds no value. -/
def blank : List UInt8 :=
  List.replicate headerSize 0xFF

/- The size of the value that a slot announces. -/
def announcedSize
    (slot : List UInt8) : Nat :=
  Bytes.value ((slot.drop 6).take 2)

/- A slot begins with the marks of a key. -/
def Marked
    (key : CacheKey)
    (slot : List UInt8) : Prop :=
  Bytes.value (slot.take 4) = magic ∧ slot[4]? = some key.code

instance
    (key : CacheKey)
    (slot : List UInt8) :
    Decidable (Marked key slot) := by
  unfold Marked
  infer_instance

/-
  Read the value of a slot. A slot without the marks of the key
  holds no value; one whose size or checksum is wrong is corrupt.
-/
def readSlot
    (key : CacheKey)
    (slot : List UInt8) : Except Fault (List UInt8) :=
  if ¬ Marked key slot then
    .error .notFound
  else
    let size := announcedSize slot
    if valueMax < size then
      .error .badData
    else
      let body := slot.take (headerSize + size)
      if slot[headerSize + size]? = some (Bytes.checksum body) then
        .ok (body.drop headerSize)
      else
        .error .badData

------------------------------------------------------------
-- Operations
------------------------------------------------------------

/- The value of a key, if it is at most `room` bytes long. -/
def get
    (key : CacheKey)
    (room : Nat)
    (flash : Flash)
    (cache : Cache) : Except Fault (List UInt8) := do
  match flash.read? (cache.slotStart key) slotSize with
  | none => .error .io
  | some slot =>
      let value ← readSlot key slot
      if room < value.length then
        .error .limitExceeded
      else
        return value

/- Keep a value under a key. -/
def set
    (key : CacheKey)
    (value : List UInt8)
    (flash : Flash)
    (cache : Cache) : Except Fault Flash :=
  if valueMax < value.length then
    .error .limitExceeded
  else
    match
      flash.write? (cache.slotStart key) (image key value)
    with
    | none => .error .io
    | some flash => .ok flash

/- Forget the value of a key. -/
def delete
    (key : CacheKey)
    (flash : Flash)
    (cache : Cache) : Except Fault Flash :=
  match flash.write? (cache.slotStart key) blank with
  | none => .error .io
  | some flash => .ok flash

end Cache

end Fota
