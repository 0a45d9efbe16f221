import Fota.Bytes.Checksum
import Fota.Bytes.LittleEndian
import Fota.Text.Utf8
import Fota.Update.Checkpoint

/-
  This file defines the record in which a checkpoint is stored.
  A record has a fixed size. It consists of a magic number, its
  size, the version of its format, the fields of the checkpoint,
  two texts in areas of fixed size behind the byte that counts
  them, and a checksum over all of it.

  Key definitions include:
    * `Record.size`
    * `Record.encode`
    * `Record.decode?`
-/

namespace Fota

namespace Record

------------------------------------------------------------
-- Layout
------------------------------------------------------------

/- The number that begins a record. -/
def magic : Nat :=
  0x4E435055

/- The version of the format. -/
def format : UInt8 :=
  1

/- The offset of the byte that counts the file name. -/
def fileOffset : Nat :=
  34

/- The offset of the byte that counts the digest. -/
def digestOffset : Nat :=
  fileOffset + 1 + fileNameSize

/- The offset of the checksum. -/
def checksumOffset : Nat :=
  digestOffset + 1 + digestSize

/- The size of a record. -/
def size : Nat :=
  checksumOffset + 1

------------------------------------------------------------
-- Writing
------------------------------------------------------------

/- The bits of a status number as an unsigned word. -/
def statusWord
    (status : Status) : UInt32 :=
  (Int32.ofInt status.code).toUInt32

/- The byte that stands for a truth value. -/
def flagByte
    (flag : Bool) : UInt8 :=
  if flag then 1 else 0

/- A text behind its count, filled up with zeros. -/
def textArea
    {limit : Nat}
    (t : BoundedText limit) : List UInt8 :=
  let bytes := Text.utf8 t.text
  UInt8.ofNat bytes.length :: bytes ++
    List.replicate (limit - bytes.length) 0

/- The fields of a record up to its texts. -/
def fixedPart
    (c : Checkpoint) : List UInt8 :=
  Bytes.little 4 magic ++
    Bytes.little 2 size ++
    [format, c.stage.code] ++
    Bytes.little 4 (statusWord c.status).toNat ++
    Bytes.little 4 c.installed.toNat ++
    Bytes.little 4 c.replaced.toNat ++
    Bytes.little 4 c.wanted.toNat ++
    [c.availability.code, flagByte c.ownPath] ++
    Bytes.little 4 c.path.start.toNat ++
    Bytes.little 4 c.path.goal.toNat

/- A record without its checksum. -/
def body
    (c : Checkpoint) : List UInt8 :=
  fixedPart c ++ textArea c.path.file ++ textArea c.path.digest

/- The record of a checkpoint. -/
def encode
    (c : Checkpoint) : List UInt8 :=
  body c ++ [Bytes.checksum (body c)]

------------------------------------------------------------
-- Reading
------------------------------------------------------------

/- The byte at an offset, zero behind the end. -/
def byteAt
    (offset : Nat)
    (record : List UInt8) : UInt8 :=
  record.getD offset 0

/- The number in the `width` bytes from an offset on. -/
def numberAt
    (offset width : Nat)
    (record : List UInt8) : Nat :=
  Bytes.value ((record.drop offset).take width)

/- The word in the four bytes from an offset on. -/
def wordAt
    (offset : Nat)
    (record : List UInt8) : UInt32 :=
  UInt32.ofNat (numberAt offset 4 record)

/- The record has the frame of its format. -/
def Framed
    (record : List UInt8) : Prop :=
  record.length = size ∧
    numberAt 0 4 record = magic ∧
    numberAt 4 2 record = size ∧
    byteAt 6 record = format ∧
    byteAt checksumOffset record =
      Bytes.checksum (record.take checksumOffset)

instance
    (record : List UInt8) :
    Decidable (Framed record) := by
  unfold Framed
  infer_instance

/- The text in the area at an offset. -/
def textAt?
    (limit offset : Nat)
    (record : List UInt8) : Option (BoundedText limit) :=
  let count := (byteAt offset record).toNat
  if limit < count then
    none
  else do
    let text ←
      Text.ofUtf8? ((record.drop (offset + 1)).take count)
    BoundedText.ofString? limit text

/- The upgrade path in a record. -/
def pathAt?
    (record : List UInt8) : Option UpgradePath := do
  let file ← textAt? fileNameSize fileOffset record
  let digest ← textAt? digestSize digestOffset record
  return ⟨wordAt 26 record, wordAt 30 record, file, digest⟩

/- The status whose number is stored in a record. -/
def statusAt?
    (record : List UInt8) : Option Status :=
  Status.ofCode? (wordAt 8 record).toInt32.toInt

/- The checkpoint that a record holds. -/
def decode?
    (record : List UInt8) : Option Checkpoint :=
  if Framed record then do
    let path ← pathAt? record
    let stage ← Stage.ofCode? (byteAt 7 record)
    let status ← statusAt? record
    let availability ← Availability.ofCode? (byteAt 24 record)
    return {
      stage := stage
      status := status
      installed := wordAt 12 record
      replaced := wordAt 16 record
      wanted := wordAt 20 record
      availability := availability
      ownPath := byteAt 25 record ≠ 0
      path := path }
  else
    none

end Record

end Fota
