import Fota.Fault
import Fota.Modem.Command
import Fota.Modem.Report

/-
  This file defines upgrade paths. A path leads modem firmware
  of one version to another version by an image with a known
  digest.

  Key definitions include:
    * `UpgradePath`
    * `UpgradePath.empty`
    * `UpgradePath.hold`
    * `UpgradePath.Valid`
    * `UpgradePath.validate`
    * `UpgradePath.make`
    * `UpgradePath.hasDigest`
    * `UpgradePath.catalogue`
    * `UpgradePath.find?`
-/

namespace Fota

------------------------------------------------------------
-- Upgrade Paths
------------------------------------------------------------

/-
  An upgrade path from the version key `start` to the version
  key `goal`.
-/
structure UpgradePath where
  start : UInt32
  goal : UInt32
  file : FileName
  digest : BoundedText digestSize
deriving DecidableEq, Repr

namespace UpgradePath

/- The path that leads nowhere. -/
def empty : UpgradePath where
  start := 0
  goal := 0
  file := .empty
  digest := .empty

/- A path with the given texts, if they can be held. -/
def hold
    (start goal : UInt32)
    (file digest : String) : Except Fault UpgradePath :=
  match
    BoundedText.ofString? fileNameSize file,
    BoundedText.ofString? digestSize digest
  with
  | some file, some digest => .ok ⟨start, goal, file, digest⟩
  | _, _ => .error .invalidArgument

------------------------------------------------------------
-- Validity
------------------------------------------------------------

/- A hexadecimal digit. -/
def isHexDigit
    (c : Char) : Bool :=
  c.isDigit || ('a' ≤ c && c ≤ 'f') || ('A' ≤ c && c ≤ 'F')

/- A file name is there and can stand between double quotes. -/
def FileValid
    (file : FileName) : Prop :=
  file.toList ≠ [] ∧ '"' ∉ file.toList

/- A digest consists of as many hexadecimal digits as it needs. -/
def DigestValid
    (digest : BoundedText digestSize) : Prop :=
  digest.text.utf8ByteSize = digestSize ∧
    digest.toList.all isHexDigit

/- A path is valid when it can be followed. -/
def Valid
    (path : UpgradePath) : Prop :=
  FileValid path.file ∧
    DigestValid path.digest ∧
    path.goal ≠ 0 ∧
    path.start ≠ path.goal

instance
    (path : UpgradePath) :
    Decidable path.Valid := by
  unfold Valid FileValid DigestValid
  infer_instance

/- Refuse a path that is not valid. -/
def validate
    (path : UpgradePath) : Except Fault Unit :=
  if path.Valid then
    .ok ()
  else
    .error .invalidArgument

/- The valid path with the given parts. -/
def make
    (start goal : UInt32)
    (file digest : String) : Except Fault UpgradePath := do
  let path ← hold start goal file digest
  path.validate
  return path

/- A digest is that of the path, whatever the case of its letters. -/
def hasDigest
    (path : UpgradePath)
    (digest : String) : Bool :=
  path.digest.toList.map Char.toLower =
    digest.toList.map Char.toLower

------------------------------------------------------------
-- Catalogue
------------------------------------------------------------

/- The name of the image of the only known path. -/
def knownFile : String :=
  "SARA-R510S-01B-00-ES-0314A0001_" ++
    "SARA-R510S-01B-01-IP-0315A0001.upd"

/- The digest of the image of the only known path. -/
def knownDigest : String :=
  "09c1a98d03c761bcbea50355f9b2a50f"

/- The paths that are offered when none is given. -/
def catalogue : List UpgradePath :=
  [{ start := 2060001
     goal := 3150001
     file := ⟨knownFile, by decide +kernel⟩
     digest := ⟨knownDigest, by decide +kernel⟩ }]

/- The known path for firmware of a given version. -/
def find?
    (start : UInt32) : Option UpgradePath :=
  catalogue.find? (fun path => path.start = start)

end UpgradePath

end Fota
