import Fota.Bench.Wire
import Fota.Proofs.Modem.Taps

/-
  This file shows that a wire without errors is a port that
  works.

  Key definitions include:
    * `Bench.Trouble.Harmless`
    * `Bench.Wire.Sound`
    * `Bench.Wire.answering`

  The main statement is `Bench.Wire.works_sound`.
-/

namespace Fota

open Port (Works)

namespace Bench

------------------------------------------------------------
-- Sound Wires
------------------------------------------------------------

/- No operation fails. -/
structure Trouble.Harmless
    (t : Trouble) : Prop where
  readFails : t.readFails = false
  readyFails : t.readyFails = false
  flushFails : t.flushFails = false
  writesLeft : t.writesLeft = .none

namespace Wire

/- A wire is sound without errors. -/
structure Sound
    (w : Wire) : Prop where
  trouble : w.trouble.Harmless

variable
  {w : Wire}

theorem ready_of_sound
    (hSound : w.Sound) :
    w.ready = (.ok w.look.1, w.look.2) := by
  unfold ready
  rw [hSound.trouble.readyFails]
  rfl

theorem look_of_hasDue
    (hDue : w.hasDue = true) :
    w.look = (true, w) :=
  if_pos hDue

theorem look_of_not_hasDue
    (hDue : ¬ w.hasDue = true) :
    w.look = (false, w.advance w.idle) :=
  if_neg hDue

theorem read_of_sound
    (hSound : w.Sound)
    (least room : Nat) :
    w.read least room =
      (.ok ((w.received.take (w.readSize least room)).map (·.2)),
        { w with
          received :=
            w.received.drop (w.readSize least room) }) := by
  unfold read
  rw [hSound.trouble.readFails]
  rfl

theorem sound_fresh
    (clock : Instant)
    (idle : Nat)
    (script : Script (List Burst)) :
    (fresh clock idle script).Sound where
  trouble :=
    { readFails := rfl
      readyFails := rfl
      flushFails := rfl
      writesLeft := rfl }

/- A wire whose modem answers a line, at once. -/
def answering
    (line answer : String) : Wire :=
  fresh (.ofNat 0) 1
    [⟨Text.utf8 line, false, none, [⟨0, Text.utf8 answer⟩]⟩]

theorem sound_answering
    (line answer : String) :
    (answering line answer).Sound :=
  sound_fresh _ _ _

/- The answer to a line changes nothing else about a wire. -/
theorem kept_sendOff
    (w : Wire)
    (line : List UInt8) :
    (w.sendOff true line).trouble = w.trouble ∧
      (w.sendOff true line).idle = w.idle := by
  have hBursts (bursts : List Burst) (w : Wire) :
      (bursts.foldl (fun w burst => w.inject burst) w).trouble =
          w.trouble ∧
        (bursts.foldl (fun w burst => w.inject burst) w).idle =
          w.idle := by
    induction bursts generalizing w with
    | nil =>
        exact ⟨rfl, rfl⟩
    | cons burst bursts ih =>
        exact ih (w.inject burst)
  exact hBursts _ _

/- A sound wire stays sound when its modem answers a line. -/
theorem sound_sendOff
    (hSound : w.Sound)
    (line : List UInt8) :
    (w.sendOff true line).Sound where
  trouble := by
    rw [(kept_sendOff w line).1]
    exact hSound.trouble

------------------------------------------------------------
-- Sound Wires as Ports
------------------------------------------------------------

/- A sound wire is a port that works. -/
theorem works_sound :
    Works Sound where
  look := by
    intro w hSound
    have hReady : Port.ready w = _ := ready_of_sound hSound
    by_cases hDue : w.hasDue = true
    · rw [look_of_hasDue hDue] at hReady
      have hRead : Port.read Client.chunkSize w = _ :=
        read_of_sound hSound 1 Client.chunkSize
      have hSize :=
        readSize_pos (by decide : 0 < Client.chunkSize) hDue
      rcases Nat.exists_eq_add_of_lt hSize.1 with
        ⟨size, hSome⟩
      rcases List.exists_cons_of_ne_nil hSize.2 with
        ⟨entry, rest, hReceived⟩
      rw [hSome, hReceived] at hRead
      exact .inr ⟨w, _, _, _, hReady, hRead, ⟨hSound.trouble⟩⟩
    · rw [look_of_not_hasDue hDue] at hReady
      exact .inl ⟨_, hReady, ⟨hSound.trouble⟩⟩
  write := by
    intro w bytes hSound _
    have hWritten :
        Sound
          { w with
            trouble.writesLeft := .none
            unsent := w.unsent ++ bytes } :=
      ⟨{ hSound.trouble with writesLeft := rfl }⟩
    refine ⟨bytes.length, (w.write true bytes).2, ?_, ?_⟩
    · change w.write true bytes = _
      unfold write
      rw [hSound.trouble.writesLeft]
    · unfold write
      rw [hSound.trouble.writesLeft]
      dsimp only
      split
      · exact hWritten
      · exact sound_sendOff hWritten _
  flush := by
    intro w hSound
    refine ⟨w, ?_, hSound⟩
    change w.flush = _
    unfold flush
    rw [hSound.trouble.flushFails]
    rfl

end Wire

end Bench

end Fota
