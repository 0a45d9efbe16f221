import Fota.Modem.Outcome
import Fota.Text.Blank
import Fota.Text.Bounded
import Fota.Text.Decimal
import Fota.Text.Field

/-
  This file defines what the lines of the modem report. Some
  lines arrive unasked and are called notices; others answer a
  command.

  Key definitions include:
    * `Completion`
    * `Report.final?`
    * `Report.isNotice`
    * `Report.completion?`
    * `Report.deactivation?`
    * `Report.progress?`
    * `Report.lists`
    * `Report.registered?`
    * `Report.contextActive?`
    * `Report.transferError?`

  The main statements say which fields a line has, and which of
  them names the context in a notice of deactivation.
-/

namespace Fota

------------------------------------------------------------
-- Completed Transfers
------------------------------------------------------------

/- The length of a digest in hexadecimal digits. -/
def digestSize : Nat :=
  32

/- A completed transfer, as the modem reports it. -/
structure Completion where
  command : UInt16
  result : UInt8
  status : UInt16
  digest : BoundedText digestSize
deriving DecidableEq, Repr

namespace Report

------------------------------------------------------------
-- Final Results
------------------------------------------------------------

/- The outcome that a line announces, if it ends a command. -/
def final?
    (line : String) : Option Outcome :=
  if line = "OK" then
    some .ok
  else if line = "ERROR" ∨ line = "NO CARRIER" ∨
      line = "ABORTED" then
    some .error
  else if Text.leads "+CME ERROR".toList line.toList ∨
      Text.leads "+CMS ERROR".toList line.toList then
    some .error
  else
    none

------------------------------------------------------------
-- Notices
------------------------------------------------------------

/- The lead of a notice of a completed transfer. -/
def completionLead : List Char :=
  "+UUHTTPCR:".toList

/- The lead of a notice about a packet data context. -/
def contextLead : List Char :=
  "+CGEV:".toList

/- The lead of a notice of install progress. -/
def progressLead : List Char :=
  "+UUFWINSTALL:".toList

/- A line is a notice when it has the lead of one. -/
def isNotice
    (line : String) : Bool :=
  Text.leads completionLead line.toList ||
    Text.leads contextLead line.toList ||
    Text.leads progressLead line.toList

------------------------------------------------------------
-- Fields of a Report
------------------------------------------------------------

/-
  The trimmed fields behind a lead, separated by commas. Nothing
  behind the lead is no report.
-/
def fields?
    (lead : List Char)
    (line : String) : Option (List (List Char)) := do
  let rest ← Text.after? lead line.toList
  if Text.trim rest = [] then
    none
  else
    some ((Text.fields ',' (Text.trim rest)).map Text.trim)

/- The fields behind the lead of a line. -/
theorem fields?_of_lead
    {lead rest : List Char}
    {line : String}
    (hLine : line.toList = lead ++ rest) :
    fields? lead line =
      if Text.trim rest = [] then
        none
      else
        some
          ((Text.fields ',' (Text.trim rest)).map Text.trim) := by
  have hAfter : Text.after? lead line.toList = some rest :=
    Text.after?_eq_some_iff.mpr hLine
  unfold fields?
  rw [hAfter]
  rfl

------------------------------------------------------------
-- Reading Notices
------------------------------------------------------------

/- Status and digest of a completed transfer, each optional. -/
def completionTail? :
    List (List Char) →
      Option (UInt16 × BoundedText digestSize)
| [] => some (0, .empty)
| [status] => do
    return (← Decimal.readHalf? status, .empty)
| status :: digest :: _ => do
    let status ← Decimal.readHalf? status
    let digest ←
      BoundedText.ofString? digestSize
        (String.ofList (Text.unquote digest))
    return (status, digest)

/-
  Read a notice of a completed transfer: profile, command and
  result, then status and quoted digest where there are any.
-/
def completion?
    (line : String) : Option Completion := do
  match ← fields? completionLead line with
  | profile :: command :: result :: tail =>
      let _ ← Decimal.readWord? profile
      let command ← Decimal.readHalf? command
      let result ← Decimal.readByte? result
      let tail ← completionTail? tail
      return ⟨command, result, tail.1, tail.2⟩
  | _ => none

/- The first of two leads that a text begins with. -/
private def afterEither?
    (first second cs : List Char) : Option (List Char) :=
  (Text.after? first cs).orElse
    (fun _ => Text.after? second cs)

/-
  The field that names the context in a notice of deactivation:
  the first behind `PDN DEACT`, the last behind `DEACT`.
-/
def deactivatedField?
    (cs : List Char) : Option (List Char) :=
  match
    afterEither? "ME PDN DEACT".toList "NW PDN DEACT".toList cs
  with
  | some args => (Text.fields ',' args).head?
  | none => do
      let args ←
        afterEither? "ME DEACT".toList "NW DEACT".toList cs
      (Text.fields ',' args).getLast?

/- Behind `PDN DEACT` it is the first field. -/
theorem deactivatedField?_of_pdn
    {form : List Char}
    (hForm :
      form = "ME PDN DEACT".toList ∨
        form = "NW PDN DEACT".toList)
    (args : List Char) :
    deactivatedField? (form ++ args) =
      (Text.fields ',' args).head? := by
  rcases hForm with rfl | rfl <;> rfl

/- Behind `DEACT` alone it is the last one. -/
theorem deactivatedField?_of_deact
    {form : List Char}
    (hForm :
      form = "ME DEACT".toList ∨ form = "NW DEACT".toList)
    (args : List Char) :
    deactivatedField? (form ++ args) =
      (Text.fields ',' args).getLast? := by
  rcases hForm with rfl | rfl <;> rfl

/- The context that a notice reports as deactivated. -/
def deactivation?
    (line : String) : Option UInt8 := do
  let rest ← Text.after? contextLead line.toList
  let field ← deactivatedField? (Text.trim rest)
  Decimal.readByte? (Text.trim field)

/- The progress that a notice of an install reports. -/
def progress?
    (line : String) : Option UInt8 := do
  match ← fields? progressLead line with
  | progress :: _ => Decimal.readByte? progress
  | [] => none

------------------------------------------------------------
-- Reading Answers
------------------------------------------------------------

/- A line of the file list names the given file. -/
def lists
    (line : String)
    (file : String) : Bool :=
  match fields? "+ULSTFILE:".toList line with
  | some fields =>
      fields.any
        (fun field => Text.unquote field = file.toList)
  | none => false

/- Whether an operator line names an operator. -/
def registered?
    (line : String) : Option Bool := do
  let fields ← fields? "+COPS:".toList line
  return decide (3 ≤ fields.length)

/- The parameter that asks whether a context is active. -/
def activityParameter : UInt32 :=
  8

/- Whether a status line of `profile` says that it is active. -/
def contextActive?
    (profile : UInt8)
    (line : String) : Option Bool := do
  match ← fields? "+UPSND:".toList line with
  | number :: parameter :: tail =>
      let number ← Decimal.readWord? number
      if number ≠ profile.toUInt32 then
        none
      else
        let parameter ← Decimal.readWord? parameter
        if parameter ≠ activityParameter then
          none
        else
          let status ← tail.head?
          return (← Decimal.readWord? status) == 1
  | _ => none

/- Class and code of the last transfer error. -/
def transferError?
    (line : String) : Option (UInt16 × UInt16) := do
  match ← fields? "+UHTTPER:".toList line with
  | profile :: cls :: code :: _ =>
      let _ ← Decimal.readWord? profile
      let cls ← Decimal.readHalf? cls
      let code ← Decimal.readHalf? code
      return (cls, code)
  | _ => none

end Report

end Fota
