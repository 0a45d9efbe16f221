import Fota.Clock

/-
  This file defines serial ports. A port is a byte stream to the
  modem together with the clock by which its user waits. A port
  holds finitely many bytes at any moment, and it is found empty
  only finitely often before its clock comes to a given time.
  That is why reading it until nothing is left, and waiting for
  more until a deadline, come to an end.

  Key definitions include:
    * `PortFault`
    * `Port`
    * `Port.Clocked`
    * `Port.send`
    * `Port.sendLine`
-/

namespace Fota

------------------------------------------------------------
-- Ports
------------------------------------------------------------

/- A port fails on the side of the receiver or the sender. -/
inductive PortFault where
| receiver
| sender
deriving DecidableEq, Repr

/-
  A port tells the time, says whether bytes can be read at once,
  reads up to a number of them, takes bytes to write and sends
  off what was written.

  Looking at a port that has bytes to read adds none, and
  reading some leaves fewer. `idlesLeft` bounds how often a port
  is still found without bytes while its clock is before a time;
  it says nothing about how far the clock moves at each of these
  looks. Reading bytes leaves it as it is, or lowers it. A write
  that works takes some of the bytes, though maybe not all.
-/
class Port
    (σ : Type) where
  now : σ → Instant
  ready : σ → Except PortFault Bool × σ
  read : Nat → σ → Except PortFault (List UInt8) × σ
  write : List UInt8 → σ → Except PortFault Nat × σ
  flush : σ → Except PortFault Unit × σ
  backlog : σ → Nat
  idlesLeft : Instant → σ → Nat
  backlog_ready :
    ∀ (s s' : σ),
      ready s = (.ok true, s') →
        backlog s' ≤ backlog s
  backlog_read :
    ∀ (s s' : σ) (room : Nat) (b : UInt8) (bs : List UInt8),
      read room s = (.ok (b :: bs), s') →
        backlog s' < backlog s
  idlesLeft_ready :
    ∀ (time : Instant) (s s' : σ),
      ready s = (.ok false, s') →
        (now s').toNat < time.toNat →
          idlesLeft time s' < idlesLeft time s
  idlesLeft_read_none :
    ∀ (time : Instant) (s s₁ s' : σ) (room : Nat),
      0 < room →
        ready s = (.ok true, s₁) →
          read room s₁ = (.ok [], s') →
            (now s').toNat < time.toNat →
              idlesLeft time s' < idlesLeft time s
  idlesLeft_read :
    ∀ (time : Instant) (s s₁ s' : σ) (room : Nat) (b : UInt8)
      (bs : List UInt8),
      ready s = (.ok true, s₁) →
        read room s₁ = (.ok (b :: bs), s') →
          idlesLeft time s' ≤ idlesLeft time s
  write_some :
    ∀ (s s' : σ) (b : UInt8) (bs : List UInt8) (count : Nat),
      write (b :: bs) s = (.ok count, s') →
        0 < count ∧ count ≤ (b :: bs).length

namespace Port

/-
  A port by the way its clock moves: on at each look that finds
  nothing, as long as it can, and not back while bytes are read.
  What is ready can be read.
-/
structure Clocked
    (σ : Type) where
  now : σ → Instant
  ready : σ → Except PortFault Bool × σ
  read : Nat → σ → Except PortFault (List UInt8) × σ
  write : List UInt8 → σ → Except PortFault Nat × σ
  flush : σ → Except PortFault Unit × σ
  backlog : σ → Nat
  backlog_ready :
    ∀ (s s' : σ),
      ready s = (.ok true, s') →
        backlog s' ≤ backlog s
  backlog_read :
    ∀ (s s' : σ) (room : Nat) (b : UInt8) (bs : List UInt8),
      read room s = (.ok (b :: bs), s') →
        backlog s' < backlog s
  now_idle :
    ∀ (s s' : σ),
      ready s = (.ok false, s') →
        (now s').toNat < Instant.last →
          (now s).toNat < (now s').toNat
  read_ne_nil :
    ∀ (s s₁ s' : σ) (room : Nat),
      0 < room →
        ready s = (.ok true, s₁) →
          read room s₁ ≠ (.ok [], s')
  now_read :
    ∀ (s s₁ s' : σ) (room : Nat) (b : UInt8)
      (bs : List UInt8),
      ready s = (.ok true, s₁) →
        read room s₁ = (.ok (b :: bs), s') →
          (now s).toNat ≤ (now s').toNat
  write_some :
    ∀ (s s' : σ) (b : UInt8) (bs : List UInt8) (count : Nat),
      write (b :: bs) s = (.ok count, s') →
        0 < count ∧ count ≤ (b :: bs).length

/-
  The milliseconds that are left before a time bound how often
  nothing is found until then.
-/
@[reducible]
def Clocked.port
    {σ : Type}
    (p : Clocked σ) : Port σ where
  now := p.now
  ready := p.ready
  read := p.read
  write := p.write
  flush := p.flush
  backlog := p.backlog
  idlesLeft time s := time.toNat - (p.now s).toNat
  backlog_ready := p.backlog_ready
  backlog_read := p.backlog_read
  idlesLeft_ready := by
    intro time s s' hReady hEarly
    have hLast := time.toNat_le_last
    have hLater := p.now_idle s s' hReady (by omega)
    omega
  idlesLeft_read_none := by
    intro time s s₁ s' room hRoom hReady hRead
    exact absurd hRead (p.read_ne_nil s s₁ s' room hRoom hReady)
  idlesLeft_read := by
    intro time s s₁ s' room b bs hReady hRead
    have hLater := p.now_read s s₁ s' room b bs hReady hRead
    omega
  write_some := p.write_some

variable {σ : Type} [Port σ]

------------------------------------------------------------
-- Sending
------------------------------------------------------------

/-
  Write bytes until all of them are taken; report whether that
  worked. Each write takes some, so fewer are left.
-/
def send : List UInt8 → σ → Bool × σ
| [], s => (true, s)
| byte :: bytes, s =>
    match _hWrite : write (byte :: bytes) s with
    | (.ok count, s) => send ((byte :: bytes).drop count) s
    | (.error _, s) => (false, s)
termination_by bytes => bytes.length
decreasing_by
  have hSome := write_some _ _ byte bytes count _hWrite
  rw [List.length_drop]
  omega

variable
  {s s' : σ}
  {bytes : List UInt8}

@[simp]
theorem send_nil
    (s : σ) :
    send [] s = (true, s) := by
  rw [send]

/- What a write has left is written next. -/
theorem send_of_took
    {count : Nat}
    (hSome : bytes ≠ [])
    (hWrite : write bytes s = (.ok count, s')) :
    send bytes s = send (bytes.drop count) s' := by
  rcases List.exists_cons_of_ne_nil hSome with
    ⟨byte, rest, rfl⟩
  rw [send]
  split <;> simp_all

/- A write that fails is the last one. -/
theorem send_of_failed
    {fault : PortFault}
    (hSome : bytes ≠ [])
    (hWrite : write bytes s = (.error fault, s')) :
    send bytes s = (false, s') := by
  rcases List.exists_cons_of_ne_nil hSome with
    ⟨byte, rest, rfl⟩
  rw [send]
  split <;> simp_all

/- A port that takes all bytes at once is written to once. -/
theorem send_of_took_all
    (hSome : bytes ≠ [])
    (hWrite : write bytes s = (.ok bytes.length, s')) :
    send bytes s = (true, s') := by
  rw [send_of_took hSome hWrite, List.drop_length, send_nil]

/- The bytes that end a line. -/
def lineEnd : List UInt8 :=
  [13, 10]

/- Write a line and its end, then send both off. -/
def sendLine
    (bytes : List UInt8)
    (s : σ) : Bool × σ :=
  match send bytes s with
  | (false, s) => (false, s)
  | (true, s) =>
      match send lineEnd s with
      | (false, s) => (false, s)
      | (true, s) =>
          match flush s with
          | (.ok _, s) => (true, s)
          | (.error _, s) => (false, s)

/- A port that takes all bytes at once sends them in two writes. -/
theorem sendLine_of_took_all
    {s₁ s₂ s₃ : σ}
    (hSome : bytes ≠ [])
    (hText : write bytes s = (.ok bytes.length, s₁))
    (hEnd : write lineEnd s₁ = (.ok lineEnd.length, s₂))
    (hFlush : flush s₂ = (.ok (), s₃)) :
    sendLine bytes s = (true, s₃) := by
  have hEndSome : lineEnd ≠ [] := by
    decide
  unfold sendLine
  rw [send_of_took_all hSome hText]
  dsimp only
  rw [send_of_took_all hEndSome hEnd]
  dsimp only
  rw [hFlush]

end Port

end Fota
