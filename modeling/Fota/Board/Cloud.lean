import Fota.Link.Technology

/-
  This file defines the cloud session of a device. There is a
  session whenever one is wanted and the link is up; the link is
  followed by what is announced about it.

  Key definitions include:
    * `Cloud`
    * `Cloud.isConnected`
    * `Cloud.hear`
-/

namespace Fota

------------------------------------------------------------
-- Cloud
------------------------------------------------------------

/-
  Whether the link is up, whether a session is wanted and
  whether the cloud allows updates of the modem.
-/
structure Cloud where
  linkUp : Bool
  wanted : Bool
  updatesAllowed : Bool
deriving DecidableEq, Repr

namespace Cloud

/- The cloud of a device that was just powered up. -/
def fresh
    (updatesAllowed : Bool) : Cloud where
  linkUp := false
  wanted := true
  updatesAllowed := updatesAllowed

/- There is a session. -/
def isConnected
    (c : Cloud) : Bool :=
  c.wanted && c.linkUp

/- Want a session. -/
def connect
    (c : Cloud) : Cloud :=
  { c with wanted := true }

/- No longer want a session. -/
def disconnect
    (c : Cloud) : Cloud :=
  { c with wanted := false }

/- Follow the link by what is announced about it. -/
def hear
    (what : Announcement)
    (c : Cloud) : Cloud :=
  match what with
  | .connected => { c with linkUp := true }
  | .disconnected => { c with linkUp := false }
  | .poweredOff => { c with linkUp := false }
  | _ => c

/- Publishing works during a session. -/
def publish
    (c : Cloud) : Bool :=
  c.isConnected

end Cloud

end Fota
