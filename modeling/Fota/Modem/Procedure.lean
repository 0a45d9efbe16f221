import Fota.Dialogue
import Fota.Modem.Command
import Fota.Modem.Report
import Fota.Modem.Version

/-
  This file defines the procedures that the firmware carries out
  with the modem. A procedure is a dialogue of commands and
  replies.

  Key definitions include:
    * `Procedure`
    * `Procedure.send`
    * `Procedure.probe`
    * `Procedure.readVersion`
    * `Procedure.hasImage`
    * `Procedure.deleteImage`
    * `Procedure.setUpTransfer`
    * `Procedure.startDownload`
    * `Procedure.transferError`
    * `Procedure.isRegistered`
    * `Procedure.isContextActive`
    * `Procedure.activateContext`
    * `Procedure.startInstall`
-/

namespace Fota

------------------------------------------------------------
-- Servers
------------------------------------------------------------

/- The server from which the modem downloads images. -/
structure Server where
  host : String
  port : UInt16
  security : UInt8
deriving DecidableEq, Repr

/- The server in use unless another one is named. -/
def Server.standard : Server where
  host := "fw-ncp.particle.io"
  port := 443
  security := 2

------------------------------------------------------------
-- Procedures
------------------------------------------------------------

/- A procedure asks commands and is answered by replies. -/
abbrev Procedure :=
  Dialogue Command (fun _ => Reply)

namespace Procedure

/- Send a command; one that is too long is refused unsent. -/
def send
    (command : Command) : Procedure Reply :=
  if command.Fits then
    .query command
  else
    pure .refused

/- Send a command for its outcome alone. -/
def carryOut
    (command : Command) : Procedure Outcome := do
  return (← send command).outcome

/- Send a command and look whether an accepted reply has a line. -/
def sendAny
    (command : Command)
    (matching : String → Bool) : Procedure Bool := do
  let reply ← send command
  return reply.outcome.isOk && reply.lines.any matching

/- Ask the modem for a sign of life. -/
def probe : Procedure Outcome :=
  carryOut .attention

/-
  Read the version key of the modem, zero when there is none.
  The first line with a key that is not zero counts.
-/
def readVersion : Procedure UInt32 := do
  let reply ← send .identify
  if reply.outcome.isOk then
    return ((reply.lines.map Version.key).find? (· ≠ 0)).getD 0
  else
    return 0

/- Whether the modem holds an image with the given name. -/
def hasImage
    (file : FileName) : Procedure Bool :=
  sendAny .listImages (fun line => Report.lists line file.text)

/- Delete an image from the modem. -/
def deleteImage
    (file : FileName) : Procedure Outcome :=
  carryOut (.deleteImage file)

/- Carry commands out in order, up to the first that fails. -/
def carryOutAll :
    List Command → Procedure Outcome
| [] => pure .ok
| command :: commands => do
    let outcome ← carryOut command
    if outcome.isOk then
      carryOutAll commands
    else
      return outcome

/- Point the transfer profile of the modem at a server. -/
def setUpTransfer
    (server : Server) : Procedure Outcome :=
  carryOutAll
    [.clearSecurity server.security,
      .clearTransfer,
      .transferHost server.host,
      .transferPort server.port,
      .transferSecurity server.security]

/- Start the download of an image; a notice reports its end. -/
def startDownload
    (file : FileName) : Procedure Outcome :=
  carryOut (.download file)

/- Class and code of the last transfer error. -/
def transferError : Procedure (Option (UInt16 × UInt16)) := do
  let reply ← send .transferError
  if reply.outcome.isOk then
    return reply.lines.findSome? Report.transferError?
  else
    return none

/- Whether the modem is registered with an operator. -/
def isRegistered : Procedure Bool :=
  sendAny .operator
    (fun line => (Report.registered? line).getD false)

/- Whether the context of a profile is active. -/
def isContextActive
    (profile : UInt8) : Procedure Bool :=
  sendAny (.contextStatus profile)
    (fun line =>
      (Report.contextActive? profile line).getD false)

/- Map a profile onto a context and activate it. -/
def activateContext
    (profile context : UInt8) : Procedure Outcome :=
  carryOutAll
    [.mapContext profile context, .activateContext profile]

/- Start the install of the downloaded image. -/
def startInstall : Procedure Outcome :=
  carryOut .install

end Procedure

end Fota
