import Fota.Text.Bounded

/-
  This file defines the commands that the firmware sends to the
  modem, with the text and the patience of each.

  Key definitions include:
    * `FileName`
    * `Command`
    * `Command.text`
    * `Command.patience`
    * `Command.Fits`

  The main statements say that the commands which name a file
  fit, whatever the name.
-/

namespace Fota

------------------------------------------------------------
-- File Names
------------------------------------------------------------

/- The size that a file name may have. -/
def fileNameSize : Nat :=
  255

/- The name of a firmware image. -/
abbrev FileName :=
  BoundedText fileNameSize

------------------------------------------------------------
-- Commands
------------------------------------------------------------

/- The commands of the firmware. -/
inductive Command where
| attention
| identify
| listImages
| deleteImage (file : FileName)
| clearSecurity (security : UInt8)
| clearTransfer
| transferHost (host : String)
| transferPort (port : UInt16)
| transferSecurity (security : UInt8)
| download (file : FileName)
| transferError
| operator
| contextStatus (profile : UInt8)
| mapContext (profile context : UInt8)
| activateContext (profile : UInt8)
| install
deriving DecidableEq, Repr

namespace Command

/- The tag under which the modem keeps firmware images. -/
def imageTag : String :=
  "FOAT"

/- The transfer profile that downloads use. -/
def transferProfile : String :=
  "0"

/- The line rate for the time of an install. -/
def installBaud : Nat :=
  115200

/- A text between double quotes. -/
def quoted
    (text : String) : String :=
  "\"" ++ text ++ "\""

/- The text of a command, without the end of its line. -/
def text : Command → String
| attention => "AT"
| identify => "ATI9"
| listImages => "AT+ULSTFILE=0," ++ quoted imageTag
| deleteImage file =>
    "AT+UDELFILE=" ++ quoted file.text ++ "," ++
      quoted imageTag
| clearSecurity security =>
    "AT+USECPRF=" ++ toString security.toNat ++ ",0,0"
| clearTransfer => "AT+UHTTP=" ++ transferProfile
| transferHost host =>
    "AT+UHTTP=" ++ transferProfile ++ ",1," ++ quoted host
| transferPort port =>
    "AT+UHTTP=" ++ transferProfile ++ ",5," ++
      toString port.toNat
| transferSecurity security =>
    "AT+UHTTP=" ++ transferProfile ++ ",6,1," ++
      toString security.toNat
| download file =>
    "AT+UHTTPC=" ++ transferProfile ++ ",100," ++
      quoted ("/" ++ file.text)
| transferError => "AT+UHTTPER=" ++ transferProfile
| operator => "AT+COPS?"
| contextStatus profile =>
    "AT+UPSND=" ++ toString profile.toNat ++ ",8"
| mapContext profile context =>
    "AT+UPSD=" ++ toString profile.toNat ++ ",100," ++
      toString context.toNat
| activateContext profile =>
    "AT+UPSDA=" ++ toString profile.toNat ++ ",3"
| install => "AT+UFWINSTALL=1," ++ toString installBaud

------------------------------------------------------------
-- Patience
------------------------------------------------------------

/- Milliseconds to wait for a sign of life. -/
def probePatience : UInt32 :=
  1000

/- Milliseconds to wait for a plain answer. -/
def plainPatience : UInt32 :=
  10000

/- Milliseconds to wait for an answer that takes network work. -/
def setupPatience : UInt32 :=
  30000

/- Milliseconds to wait for the outcome of a command. -/
def patience : Command → UInt32
| attention => probePatience
| identify => plainPatience
| listImages => plainPatience
| deleteImage _ => plainPatience
| clearSecurity _ => setupPatience
| clearTransfer => setupPatience
| transferHost _ => setupPatience
| transferPort _ => setupPatience
| transferSecurity _ => setupPatience
| download _ => setupPatience
| transferError => plainPatience
| operator => plainPatience
| contextStatus _ => plainPatience
| mapContext _ _ => plainPatience
| activateContext _ => setupPatience
| install => setupPatience

------------------------------------------------------------
-- Size
------------------------------------------------------------

/- The size that the text of a command may have. -/
def sizeMax : Nat :=
  320

/- The text of a command is short enough to be sent. -/
def Fits
    (command : Command) : Prop :=
  command.text.utf8ByteSize ≤ sizeMax

instance
    (command : Command) :
    Decidable command.Fits := by
  unfold Fits
  infer_instance

/- The command to delete an image fits, whatever its name. -/
theorem fits_deleteImage
    (file : FileName) :
    (deleteImage file).Fits := by
  have hBound := file.fits
  have hFrame :
      "AT+UDELFILE=".utf8ByteSize + 4 * "\"".utf8ByteSize +
          ",".utf8ByteSize + "FOAT".utf8ByteSize = 21 := by
    decide
  unfold fileNameSize at hBound
  unfold Fits text imageTag quoted sizeMax
  simp only [String.utf8ByteSize_append]
  omega

/- So does the command to download one. -/
theorem fits_download
    (file : FileName) :
    (download file).Fits := by
  have hBound := file.fits
  have hFrame :
      "AT+UHTTPC=".utf8ByteSize + "0".utf8ByteSize +
          ",100,".utf8ByteSize + 2 * "\"".utf8ByteSize +
          "/".utf8ByteSize = 19 := by
    decide
  unfold fileNameSize at hBound
  unfold Fits text transferProfile quoted sizeMax
  simp only [String.utf8ByteSize_append]
  omega

end Command

end Fota
