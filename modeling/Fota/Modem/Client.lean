import Fota.Modem.Command
import Fota.Modem.LineBuffer
import Fota.Modem.Mailbox
import Fota.Modem.Port

/-
  This file defines the client that exchanges commands and
  replies with the modem over a port. Commands go out one at a
  time. Notices that arrive between the lines of a reply go to
  the mailbox.

  Key definitions include:
    * `Client`
    * `Client.hearLine`
    * `Client.hear`
    * `Client.pump`
    * `Client.await`
    * `Client.drain`
    * `Client.exchange`
-/

namespace Fota

------------------------------------------------------------
-- Client
------------------------------------------------------------

/- A client holds the unfinished line and the mailbox. -/
structure Client where
  buffer : LineBuffer
  mailbox : Mailbox
deriving DecidableEq, Repr

namespace Client

/- A client that has heard nothing. -/
def fresh : Client where
  buffer := .empty
  mailbox := .empty

------------------------------------------------------------
-- Hearing Lines
------------------------------------------------------------

/-
  What has been heard: the client and the lines of the reply so
  far, in order.
-/
structure Heard where
  client : Client
  lines : List String
deriving DecidableEq, Repr

/-
  Hear one line. Notices go to the mailbox. While a command is
  awaited its echo is skipped, a final result ends the reply and
  any other line joins it. Without a command lines are dropped.
-/
def hearLine
    (awaited : Option String)
    (line : String)
    (heard : Heard) : Option Outcome × Heard :=
  let delivered := heard.client.mailbox.deliver line
  let noted :=
    { heard with
      client := { heard.client with mailbox := delivered.2 } }
  if delivered.1 then
    (none, noted)
  else
    match awaited with
    | none => (none, noted)
    | some command =>
        if line = command then
          (none, noted)
        else
          match Report.final? line with
          | some outcome => (some outcome, noted)
          | none =>
              (none, { noted with lines := noted.lines ++ [line] })

/-
  Hear bytes in order. Hearing stops at a final result, and the
  bytes behind it are lost.
-/
def hear
    (awaited : Option String) :
    List UInt8 → Heard → Option Outcome × Heard
| [], heard => (none, heard)
| byte :: bytes, heard =>
    let pushed := heard.client.buffer.push byte
    let noted :=
      { heard with
        client := { heard.client with buffer := pushed.2 } }
    match pushed.1 with
    | none => hear awaited bytes noted
    | some line =>
        match hearLine awaited line noted with
        | (some outcome, heard) => (some outcome, heard)
        | (none, heard) => hear awaited bytes heard

------------------------------------------------------------
-- Listening to a Port
------------------------------------------------------------

variable {σ : Type} [Port σ]

/- The number of bytes that one read asks for. -/
def chunkSize : Nat :=
  64

/-
  Hear all that the port has ready, up to a final result. A port
  that fails counts as a refusal. Each round leaves fewer bytes
  in the port.
-/
def pump
    (awaited : Option String)
    (heard : Heard)
    (s : σ) : Option Outcome × Heard × σ :=
  match _hReady : Port.ready s with
  | (.error _, s₁) => (some .error, heard, s₁)
  | (.ok false, s₁) => (none, heard, s₁)
  | (.ok true, s₁) =>
      match _hRead : Port.read chunkSize s₁ with
      | (.error _, s₂) => (some .error, heard, s₂)
      | (.ok [], s₂) => (none, heard, s₂)
      | (.ok (byte :: bytes), s₂) =>
          match hear awaited (byte :: bytes) heard with
          | (some outcome, heard) => (some outcome, heard, s₂)
          | (none, heard) => pump awaited heard s₂
termination_by Port.backlog s
decreasing_by
  have hLe := Port.backlog_ready s s₁ _hReady
  have hLt := Port.backlog_read s₁ s₂ chunkSize byte bytes _hRead
  omega

/-
  A round that brings no outcome found the port without bytes,
  so it is found so less often afterwards.
-/
theorem idlesLeft_pump
    {awaited : Option String}
    {heard heard' : Heard}
    {s s' : σ}
    {deadline : Instant}
    (hPump : pump awaited heard s = (none, heard', s'))
    (hEarly : (Port.now s').toNat < deadline.toNat) :
    Port.idlesLeft deadline s' < Port.idlesLeft deadline s := by
  fun_induction pump awaited heard s with
  | case1 => cases hPump
  | case2 heard s s₁ hReady =>
      cases hPump
      exact Port.idlesLeft_ready deadline s _ hReady hEarly
  | case3 => cases hPump
  | case4 heard s s₁ hReady s₂ hRead =>
      cases hPump
      exact
        Port.idlesLeft_read_none deadline s s₁ _ chunkSize
          (by decide) hReady hRead hEarly
  | case5 => cases hPump
  | case6 heard s s₁ hReady byte bytes s₂ hRead heard₁ hHear
      ih =>
      have hRest := ih hPump
      have hRound :=
        Port.idlesLeft_read deadline s s₁ s₂ chunkSize byte bytes
          hReady hRead
      omega

/- Hear rounds until a final result or the deadline. -/
def await
    (command : String)
    (deadline : Instant)
    (heard : Heard)
    (s : σ) : Outcome × Heard × σ :=
  match _hPump : pump (some command) heard s with
  | (some outcome, heard, s₁) => (outcome, heard, s₁)
  | (none, heard, s₁) =>
      if _hDue : deadline.toNat ≤ (Port.now s₁).toNat then
        (.timeout, heard, s₁)
      else
        await command deadline heard s₁
termination_by Port.idlesLeft deadline s
decreasing_by
  exact idlesLeft_pump _hPump (Nat.lt_of_not_le _hDue)

/- Hear what has arrived while no command is awaited. -/
def drain
    (client : Client)
    (s : σ) : Client × σ :=
  match pump none ⟨client, []⟩ s with
  | (_, heard, s) => (heard.client, s)

/-
  Send the text of a command and wait for its reply, at most
  `patience` milliseconds from the moment it was sent.
-/
def exchange
    (command : String)
    (patience : UInt32)
    (client : Client)
    (s : σ) : Reply × Client × σ :=
  if Command.sizeMax < command.utf8ByteSize then
    (.refused, client, s)
  else
    match drain client s with
    | (client, s) =>
        match Port.sendLine (Text.utf8 command) s with
        | (false, s) => (.refused, client, s)
        | (true, s) =>
            let deadline :=
              (Port.now s).after patience.toNat
            match await command deadline ⟨client, []⟩ s with
            | (outcome, heard, s) =>
                (⟨outcome, heard.lines⟩, heard.client, s)

end Client

end Fota
