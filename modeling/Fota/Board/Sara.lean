import Fota.Board.Hardware
import Fota.Fault

/-
  This file defines the driver of a SARA modem as a radio. The
  modem is powered by its key; whether it is registered is
  observed by the device and told to the driver.

  Key definitions include:
    * `Sara`
    * `Sara.wantsRegistration`
    * `Sara.isReady`
    * `Sara.powerOn`
    * `Sara.powerOff`
    * `Sara.beginConnect`
    * `Sara.disconnect`
    * `Sara.suppressData`
-/

namespace Fota

------------------------------------------------------------
-- Driver State
------------------------------------------------------------

/- What the driver knows about the modem. -/
structure Sara where
  powerTimeout : UInt32
  attachRequested : Bool
  registered : Bool
  suppressed : Bool
deriving DecidableEq, Repr

namespace Sara

/- A driver whose modem was never used. -/
def fresh
    (powerTimeout : UInt32) : Sara where
  powerTimeout := powerTimeout
  attachRequested := false
  registered := false
  suppressed := false

/- An attach was asked for and the data link is not held. -/
def wantsRegistration
    (r : Sara) : Bool :=
  r.attachRequested && !r.suppressed

/- The modem carries data. -/
def isReady
    (r : Sara) : Bool :=
  r.wantsRegistration && r.registered

/- Note whether the modem is registered. -/
def setRegistered
    (registered : Bool)
    (r : Sara) : Sara :=
  { r with registered := registered }

/- Detach from the network. -/
def disconnect
    (r : Sara) : Sara :=
  { r with
    attachRequested := false
    registered := false }

/- Hold the data link down, or no longer. -/
def suppressData
    (suppressed : Bool)
    (r : Sara) : Sara :=
  { r with
    suppressed := suppressed
    registered := !suppressed && r.registered }

------------------------------------------------------------
-- Power
------------------------------------------------------------

variable {σ : Type} [Hardware σ]

/- Milliseconds for which the key is held to power on. -/
def onPress : UInt32 :=
  1000

/- Milliseconds for which the key is held to power off. -/
def offPress : UInt32 :=
  2500

/- Milliseconds between two looks at the supply. -/
def supplyPoll : UInt32 :=
  100

/- Hold the key for some milliseconds. -/
def holdKey
    (duration : UInt32)
    (s : σ) : σ :=
  Hardware.releaseKey
    (Hardware.delay duration (Hardware.pressKey s))

/- Pause between two looks at the supply. -/
def pause
    (s : σ) : σ :=
  Hardware.delay supplyPoll s

/- A pause brings a deadline that lies ahead nearer. -/
theorem now_lt_now_pause
    {deadline : Instant}
    {s : σ}
    (hAhead : (Port.now s).toNat < deadline.toNat) :
    (Port.now s).toNat < (Port.now (pause s)).toNat := by
  have hDelay := Hardware.now_delay supplyPoll s
  have hAfter := (Port.now s).toNat_after supplyPoll.toNat
  have hLast := deadline.toNat_le_last
  have hPoll : supplyPoll.toNat = 100 := rfl
  unfold pause
  omega

/-
  Wait until the supply is as wanted or the deadline has come.
-/
def awaitSupply
    (up : Bool)
    (deadline : Instant)
    (s : σ) : Except Fault Unit × σ :=
  if Hardware.isSupplyUp s = up then
    (.ok (), s)
  else if _hDue : deadline.toNat ≤ (Port.now s).toNat then
    (.error .timeout, s)
  else
    awaitSupply up deadline (pause s)
termination_by deadline.toNat - (Port.now s).toNat
decreasing_by
  have hAhead := Nat.lt_of_not_le _hDue
  have hLater := now_lt_now_pause hAhead
  omega

/- Hold the key and wait for the supply to change. -/
def switchSupply
    (up : Bool)
    (duration : UInt32)
    (r : Sara)
    (s : σ) : Except Fault Unit × σ :=
  let s := holdKey duration s
  awaitSupply up ((Port.now s).after r.powerTimeout.toNat) s

/- Power the modem on, unless it is. -/
def powerOn
    (r : Sara)
    (s : σ) : Except Fault Unit × σ :=
  if Hardware.isSupplyUp s then
    (.ok (), s)
  else
    switchSupply true onPress r s

/- Forget the attach and power the modem off, unless it is. -/
def powerOff
    (r : Sara)
    (s : σ) : Except Fault Unit × Sara × σ :=
  let r := r.disconnect
  if Hardware.isSupplyUp s then
    let switched := switchSupply false offPress r s
    (switched.1, r, switched.2)
  else
    (.ok (), r, s)

/- Ask for an attach, given that the modem is powered. -/
def beginConnect
    (r : Sara)
    (s : σ) : Except Fault Unit × Sara :=
  if Hardware.isSupplyUp s then
    (.ok (), { r with attachRequested := true })
  else
    (.error .invalidState, r)

end Sara

end Fota
