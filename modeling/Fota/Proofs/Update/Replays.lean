import Fota.Proofs.Update.Rehearsal
import Fota.Proofs.Update.Turns

/-
  This file defines runs that can be computed: a boot with any
  tuning and calls of the updater, with the answers of a script
  and the turns of the run so far.

  Key definitions include:
    * `Replay`
    * `Replay.start`
    * `Replay.turn?`
    * `Replay.calls`

  The main statements say that what is replayed is a run, and
  that a turn that is replayed takes it on.
-/

namespace Fota

open Update (Policy Script Setting)

/- A run so far: its turns and the moment that it has reached. -/
structure Replay where
  turns : List Turn
  life : Life

namespace Replay

------------------------------------------------------------
-- Replays
------------------------------------------------------------

/- Boot after a moment and start the updater. -/
def start
    (script : Script)
    (policy : Policy)
    (safeMode : Bool)
    (l : Life) : Replay :=
  let updater := Updater.fresh policy .standard
  let played :=
    script.play updater.init (.fresh l.course.stored safeMode)
  ⟨[], ⟨played.2, played.1⟩⟩

/- The moment after a call. -/
def next
    (script : Script)
    (call : Updater.Call)
    (r : Replay) : Life :=
  Life.Act.perform script r.life (.calls call)

/- The turn of a call, unless that is cut off. -/
def turn?
    (script : Script)
    (call : Updater.Call)
    (r : Replay) : Option Turn :=
  let l := r.next script call
  match r.life.updater, l.updater with
  | some u, some after =>
      let said := r.life.course.exchanges.length
      some ⟨call, u, l.course.exchanges.drop said, after⟩
  | _, _ => none

/- Go on with a call, as far as it comes back. -/
def call
    (script : Script)
    (call : Updater.Call)
    (r : Replay) : Replay :=
  match r.turn? script call with
  | some turn =>
      ⟨if turn.Begins then [] else r.turns ++ [turn],
        r.next script call⟩
  | none => r

/- Go on with some ticks. -/
def ticks
    (script : Script)
    (r : Replay) : Nat → Replay
| 0 => r
| count + 1 => (r.ticks script count).call script .tick

------------------------------------------------------------
-- Replayed Runs
------------------------------------------------------------

/- What is replayed so far is a run. -/
def Sound
    (r : Replay) : Prop :=
  r.life.Run .board r.turns

variable
  {script : Script}
  {turn : Turn}
  {r : Replay}

theorem boots_start
    (policy : Policy)
    (safeMode : Bool)
    (l : Life) :
    l.Boots .board (start script policy safeMode l).life :=
  ⟨_, safeMode, policy, .standard, Or.inl rfl,
    Script.suits_board.play_leads _ _⟩

theorem sound_start
    (policy : Policy)
    (safeMode : Bool)
    (l : Life) :
    (start script policy safeMode l).Sound :=
  .boots (boots_start policy safeMode l)

/- The turn of a call tells which one it was. -/
theorem call_of_turn
    {call : Updater.Call}
    (hTurn : r.turn? script call = some turn) :
    turn.call = call := by
  unfold turn? at hTurn
  dsimp only at hTurn
  split at hTurn
  · cases hTurn
    rfl
  · cases hTurn

/- A turn that is replayed is one in each setting that it suits. -/
theorem takes_next_of_suits
    {s : Setting}
    {call : Updater.Call}
    (hSuits : script.Suits s)
    (hTurn : r.turn? script call = some turn) :
    turn.Takes s r.life (r.next script call) := by
  unfold turn? at hTurn
  dsimp only at hTurn
  split at hTurn
  · rename_i u after hBefore hAfter
    have hCalls :
        r.life.Calls s call (r.next script call) :=
      Life.calls_perform_of_suits hSuits call hBefore
    rcases Turn.exists_takes hCalls hAfter with
      ⟨⟨_, _, talk, _⟩, rfl, hTakes⟩
    have hTalk := hTakes.talk
    have hSameBefore := hBefore.symm.trans hTakes.before
    have hSameAfter := hAfter.symm.trans hTakes.after
    cases hSameBefore
    cases hSameAfter
    rw [hTalk, List.drop_left] at hTurn
    cases hTurn
    exact hTakes
  · cases hTurn

theorem takes_next
    {call : Updater.Call}
    (hTurn : r.turn? script call = some turn) :
    turn.Takes .board r.life (r.next script call) :=
  takes_next_of_suits Script.suits_board hTurn

/- A turn that is replayed takes the run on. -/
theorem takes_call
    {call : Updater.Call}
    (hTurn : r.turn? script call = some turn) :
    turn.Takes .board r.life (r.call script call).life := by
  unfold Replay.call
  rw [hTurn]
  exact takes_next hTurn

theorem turns_call
    {call : Updater.Call}
    (hTurn : r.turn? script call = some turn) :
    (r.call script call).turns =
      if turn.Begins then [] else r.turns ++ [turn] := by
  unfold Replay.call
  rw [hTurn]

/- A call goes on with a run. -/
theorem Sound.call
    (hSound : r.Sound)
    (call : Updater.Call) :
    (r.call script call).Sound := by
  unfold Replay.call
  split
  · rename_i turn hTurn
    have hTakes := takes_next hTurn
    split
    · exact .begins hSound hTakes ‹_›
    · exact .goesOn hSound hTakes ‹_›
  · exact hSound

/- Ticks go on with a run. -/
theorem Sound.ticks
    (hSound : r.Sound)
    (count : Nat) :
    (r.ticks script count).Sound := by
  induction count with
  | zero =>
      exact hSound
  | succ count ih =>
      exact ih.call .tick

end Replay

end Fota
