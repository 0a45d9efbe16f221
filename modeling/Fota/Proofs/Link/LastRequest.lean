import Fota.Link.Listening
import Fota.Proofs.Link.Signals
import Mathlib.Data.List.DropRight

/-
  This file shows that the listening mode does what it was asked
  for last. Requests between two updates are kept, and only the
  last of them counts; a stay ends when that is asked for, or
  when its timeout has passed since the update that began it,
  whatever was asked for in the meantime.

  Key definitions include:
    * `Listening.Act`
    * `Listening.log`
    * `Listening.lastRequest?`
    * `Listening.begunAt?`
    * `Listening.Heeds`

  The main statement is `Listening.last_request_heeded`.
-/

namespace Fota

namespace Listening

open Signals (Switches)

------------------------------------------------------------
-- Histories
------------------------------------------------------------

/- What is done with a listening mode. -/
inductive Act where
| enter
| exit
| update (now : Instant)
deriving DecidableEq

/- The act asks for the mode to change. -/
def Act.isRequest : Act → Bool
| update _ => false
| _ => true

/- Carry an act out; only an update may change the mode. -/
def carryOut
    (act : Act)
    (l : Listening) : Option ListeningChange × Listening :=
  match act with
  | .enter => (none, l.requestEnter)
  | .exit => (none, l.requestExit)
  | .update now => l.update now

/- An act and the change that came of it. -/
structure Note where
  act : Act
  change : Option ListeningChange

/- The mode after some acts. -/
def after
    (l : Listening)
    (acts : List Act) : Listening :=
  acts.foldl (fun l act => (l.carryOut act).2) l

/- What came of each of some acts. -/
def log
    (l : Listening) : List Act → List Note
| [] => []
| act :: acts =>
    ⟨act, (l.carryOut act).1⟩ :: (l.carryOut act).2.log acts

variable
  {l : Listening}
  {act : Act}
  {acts requests : List Act}
  {notes : List Note}
  {now : Instant}

theorem after_concat
    (acts : List Act)
    (act : Act) :
    l.after (acts ++ [act]) = ((l.after acts).carryOut act).2 := by
  simp [after]

theorem log_concat
    (acts : List Act)
    (act : Act) :
    l.log (acts ++ [act]) =
      l.log acts ++ [⟨act, ((l.after acts).carryOut act).1⟩] := by
  induction acts generalizing l with
  | nil =>
      rfl
  | cons first acts ih =>
      rw [List.cons_append, log, log, ih, List.cons_append]
      rfl

------------------------------------------------------------
-- Updates
------------------------------------------------------------

/-
  What an update does: it begins a stay, finds nothing to do
  while the mode is off, ends the stay, or lets it go on.
-/
inductive Updates
    (now : Instant)
    (l : Listening) :
    Option ListeningChange → Listening → Prop where
| start
    (hEnter : l.enterRequested = true)
    (hOff : l.active = false) :
    Updates now l (some .started) (l.start now)
| rest
    (hNone : l.enterRequested = false)
    (hOff : l.active = false) :
    Updates now l none { l with exitRequested := false }
| stop
    (hOn : l.active = true)
    (hEnd : l.exitRequested = true ∨ l.TimedOut now) :
    Updates now l (some .stopped)
      { l with
        active := false
        enterRequested := false
        exitRequested := false }
| stay
    (hOn : l.active = true)
    (hKept : l.exitRequested = false)
    (hEarly : ¬ l.TimedOut now) :
    Updates now l none { l with enterRequested := false }

variable
  {change : Option ListeningChange}
  {next : Listening}

theorem updates_update
    (now : Instant)
    (l : Listening) :
    l.Updates now (l.update now).1 (l.update now).2 := by
  unfold update
  split
  · next hEnter =>
      exact .start hEnter.1 (Bool.eq_false_iff.mpr hEnter.2)
  · next hNone =>
      split
      · next hOff =>
          refine .rest ?_ (Bool.eq_false_iff.mpr hOff)
          rw [Bool.eq_false_iff]
          exact fun hEnter => hNone ⟨hEnter, hOff⟩
      · next hOn =>
          rw [not_not] at hOn
          split
          · next hEnd =>
              exact .stop hOn hEnd
          · next hEarly =>
              rw [not_or] at hEarly
              exact
                .stay hOn (Bool.eq_false_iff.mpr hEarly.1)
                  hEarly.2

------------------------------------------------------------
-- What a History Tells
------------------------------------------------------------

/- The last request since the last update, if there is one. -/
def lastRequest?
    (acts : List Act) : Option Act :=
  (acts.rtakeWhile Act.isRequest).getLast?

/- The changes of the mode, in order. -/
def changes
    (notes : List Note) : List ListeningChange :=
  notes.filterMap Note.change

/- The reading of the clock at which an update began a stay. -/
def Note.begun? : Note → Option Instant
| ⟨.update now, some .started⟩ => some now
| _ => none

/- When the last stay began. -/
def begunAt?
    (notes : List Note) : Option Instant :=
  (notes.filterMap Note.begun?).getLast?

/- The last stay has lasted for a timeout, if that is not zero. -/
def Outstays
    (timeout : UInt32)
    (notes : List Note)
    (now : Instant) : Prop :=
  0 < timeout ∧
    ∃ start ∈ begunAt? notes, start.Elapsed timeout now

/- A request is the last one as soon as it is made, -/
theorem lastRequest?_of_request
    (acts : List Act)
    (hRequest : act.isRequest = true) :
    lastRequest? (acts ++ [act]) = some act := by
  unfold lastRequest?
  rw [List.rtakeWhile_concat_pos _ _ _ hRequest,
    List.getLast?_concat]

/- and an update leaves none. -/
theorem lastRequest?_of_update
    (acts : List Act)
    (now : Instant) :
    lastRequest? (acts ++ [.update now]) = none := by
  unfold lastRequest?
  rw [List.rtakeWhile_concat_neg _ _ _ Bool.false_ne_true]
  rfl

theorem changes_of_quiet
    (notes : List Note)
    (act : Act) :
    changes (notes ++ [⟨act, none⟩]) = changes notes := by
  simp [changes]

theorem changes_of_change
    (notes : List Note)
    (act : Act)
    (change : ListeningChange) :
    changes (notes ++ [⟨act, some change⟩]) =
      changes notes ++ [change] := by
  simp [changes]

theorem begunAt?_of_started
    (notes : List Note)
    (now : Instant) :
    begunAt? (notes ++ [⟨.update now, some .started⟩]) =
      some now := by
  simp [begunAt?, Note.begun?]

theorem begunAt?_of_quiet
    (notes : List Note)
    (act : Act) :
    begunAt? (notes ++ [⟨act, none⟩]) = begunAt? notes := by
  cases act <;> simp [begunAt?, Note.begun?]

------------------------------------------------------------
-- Modes and Histories
------------------------------------------------------------

/-
  A mode is at the end of a history. While it is neither on nor
  about to be, it may have kept a request to end that an update
  will drop.
-/
structure Ends
    (timeout : UInt32)
    (acts : List Act)
    (notes : List Note)
    (l : Listening) : Prop where
  timeout : l.timeout = timeout
  switches : Switches .started .stopped l.active (changes notes)
  begun : l.active = true → begunAt? notes = some l.startedAt
  enter :
    l.enterRequested = true ↔ lastRequest? acts = some .enter
  exit :
    l.isEngaged = true →
      (l.exitRequested = true ↔ lastRequest? acts = some .exit)

variable {timeout : UInt32}

theorem ends_off
    (timeout : UInt32) :
    (off timeout).Ends timeout [] [] := by
  refine ⟨rfl, Signals.switches_nil, nofun, ?_, nofun⟩
  simp [off, lastRequest?, List.rtakeWhile]

/- A request takes the place of any other one. -/
theorem Ends.requestEnter
    (hEnds : l.Ends timeout acts notes) :
    l.requestEnter.Ends timeout (acts ++ [.enter])
      (notes ++ [⟨.enter, none⟩]) := by
  have hLast : lastRequest? (acts ++ [.enter]) = some .enter :=
    lastRequest?_of_request acts rfl
  constructor
  · exact hEnds.timeout
  · rw [changes_of_quiet]
    exact hEnds.switches
  · rw [begunAt?_of_quiet]
    exact hEnds.begun
  · rw [hLast]
    exact iff_of_true rfl rfl
  · intro _
    rw [hLast]
    exact iff_of_false nofun nofun

theorem Ends.requestExit
    (hEnds : l.Ends timeout acts notes) :
    l.requestExit.Ends timeout (acts ++ [.exit])
      (notes ++ [⟨.exit, none⟩]) := by
  have hLast : lastRequest? (acts ++ [.exit]) = some .exit :=
    lastRequest?_of_request acts rfl
  constructor
  · exact hEnds.timeout
  · rw [changes_of_quiet]
    exact hEnds.switches
  · rw [begunAt?_of_quiet]
    exact hEnds.begun
  · rw [hLast]
    exact iff_of_false nofun nofun
  · intro hEngaged
    have hOn : l.active = true := by
      simpa [isEngaged, Listening.requestExit] using hEngaged
    rw [hLast]
    refine iff_of_true ?_ rfl
    simp [Listening.requestExit, hOn]

/- The mode times out when its stay has outstayed its timeout. -/
theorem Ends.timedOut_iff
    (hEnds : l.Ends timeout acts notes)
    (hOn : l.active = true) :
    l.TimedOut now ↔ Outstays timeout notes now := by
  unfold TimedOut Outstays
  rw [hEnds.timeout, hEnds.begun hOn]
  simp

/- An update acts on the requests and leaves none. -/
theorem Ends.updates
    (hEnds : l.Ends timeout acts notes)
    (hUpdates : l.Updates now change next) :
    next.Ends timeout (acts ++ [.update now])
      (notes ++ [⟨.update now, change⟩]) := by
  have hLast := lastRequest?_of_update acts now
  have hSwitches := hEnds.switches
  cases hUpdates with
  | start hEnter hOff =>
      -- No request to end was kept, as the last one was to enter.
      have hKept : ¬ l.exitRequested = true := by
        rw [hEnds.exit (by simp [isEngaged, hEnter]),
          hEnds.enter.mp hEnter]
        exact nofun
      rw [hOff] at hSwitches
      constructor
      · exact hEnds.timeout
      · rw [changes_of_change]
        exact hSwitches.switchOn nofun
      · exact fun _ => begunAt?_of_started notes now
      · rw [hLast]
        exact iff_of_false nofun nofun
      · rw [hLast]
        exact fun _ => iff_of_false hKept nofun
  | rest hNone hOff =>
      constructor
      · exact hEnds.timeout
      · rw [changes_of_quiet]
        exact hSwitches
      · rw [begunAt?_of_quiet]
        exact hEnds.begun
      · rw [hLast, hNone]
        exact iff_of_false nofun nofun
      · rw [hLast]
        exact fun _ => iff_of_false nofun nofun
  | stop hOn hEnd =>
      rw [hOn] at hSwitches
      constructor
      · exact hEnds.timeout
      · rw [changes_of_change]
        exact hSwitches.switchOff nofun
      · exact nofun
      · rw [hLast]
        exact iff_of_false nofun nofun
      · exact nofun
  | stay hOn hKept hEarly =>
      constructor
      · exact hEnds.timeout
      · rw [changes_of_quiet]
        exact hSwitches
      · rw [begunAt?_of_quiet]
        exact hEnds.begun
      · rw [hLast]
        exact iff_of_false nofun nofun
      · rw [hLast, hKept]
        exact fun _ => iff_of_false nofun nofun

/- A mode that begins off is at the end of its history. -/
theorem ends_after
    (timeout : UInt32)
    (acts : List Act) :
    ((off timeout).after acts).Ends timeout acts
      ((off timeout).log acts) := by
  induction acts using List.reverseRecOn with
  | nil =>
      exact ends_off timeout
  | append_singleton acts act ih =>
      rw [after_concat, log_concat]
      cases act with
      | enter => exact ih.requestEnter
      | exit => exact ih.requestExit
      | update now => exact ih.updates (updates_update now _)

------------------------------------------------------------
-- Requests
------------------------------------------------------------

/- A request waits for an update, -/
theorem carryOut_of_request
    (l : Listening)
    (hRequest : act.isRequest = true) :
    (l.carryOut act).1 = none ∧
      (l.carryOut act).2.active = l.active := by
  cases act with
  | enter => exact ⟨rfl, rfl⟩
  | exit => exact ⟨rfl, rfl⟩
  | update now => cases hRequest

/- so requests leave the mode and the start of its stay alone. -/
theorem after_requests
    (l : Listening)
    (acts : List Act)
    (hRequests : ∀ act ∈ requests, act.isRequest = true) :
    (l.after (acts ++ requests)).active =
        (l.after acts).active ∧
      begunAt? (l.log (acts ++ requests)) =
        begunAt? (l.log acts) := by
  induction requests using List.reverseRecOn with
  | nil =>
      rw [List.append_nil]
      exact ⟨rfl, rfl⟩
  | append_singleton requests act ih =>
      rcases List.forall_mem_append.mp hRequests with
        ⟨hEarlier, hAct⟩
      rcases ih hEarlier with ⟨hActive, hBegun⟩
      rcases carryOut_of_request (l.after (acts ++ requests))
          (hAct act (List.mem_singleton_self act)) with
        ⟨hQuiet, hKept⟩
      rw [← List.append_assoc, after_concat, log_concat, hKept,
        hQuiet, begunAt?_of_quiet]
      exact ⟨hActive, hBegun⟩

------------------------------------------------------------
-- The Last Request
------------------------------------------------------------

/- An update starts listening if that was asked for last. -/
theorem Ends.started_iff
    (hEnds : l.Ends timeout acts notes)
    (hUpdates : l.Updates now change next) :
    change = some .started ↔
      l.active = false ∧ lastRequest? acts = some .enter := by
  rw [← hEnds.enter]
  cases hUpdates with
  | start hEnter hOff =>
      exact iff_of_true rfl ⟨hOff, hEnter⟩
  | rest hNone hOff =>
      exact iff_of_false nofun (by simp [hNone])
  | stop hOn hEnd =>
      exact iff_of_false nofun (by simp [hOn])
  | stay hOn hKept hEarly =>
      exact iff_of_false nofun (by simp [hOn])

/- It stops it if that was asked for last, or at the timeout. -/
theorem Ends.stopped_iff
    (hEnds : l.Ends timeout acts notes)
    (hUpdates : l.Updates now change next) :
    change = some .stopped ↔
      l.active = true ∧
        (lastRequest? acts = some .exit ∨
          Outstays timeout notes now) := by
  have hOffered
      (hOn : l.active = true) :
      lastRequest? acts = some .exit ∨
          Outstays timeout notes now ↔
        l.exitRequested = true ∨ l.TimedOut now := by
    rw [hEnds.timedOut_iff hOn,
      hEnds.exit (by simp [isEngaged, hOn])]
  cases hUpdates with
  | start hEnter hOff =>
      exact iff_of_false nofun (by simp [hOff])
  | rest hNone hOff =>
      exact iff_of_false nofun (by simp [hOff])
  | stop hOn hEnd =>
      exact iff_of_true rfl ⟨hOn, (hOffered hOn).mpr hEnd⟩
  | stay hOn hKept hEarly =>
      refine iff_of_false nofun ?_
      rintro ⟨-, hEnd⟩
      rw [hOffered hOn, hKept] at hEnd
      exact hEnd.elim nofun hEarly

/- What an update makes of a mode that began off. -/
def told
    (timeout : UInt32)
    (acts : List Act)
    (now : Instant) : Option ListeningChange :=
  (((off timeout).after acts).update now).1

/-
  An update after some acts heeds the last request. Earlier
  requests do not matter, none of them makes a stay longer, and
  only a request ends one without a timeout.
-/
structure Heeds
    (timeout : UInt32)
    (acts : List Act)
    (now : Instant) : Prop where
  switches :
    Switches .started .stopped ((off timeout).after acts).active
      (changes ((off timeout).log acts))
  starts :
    told timeout acts now = some .started ↔
      ((off timeout).after acts).active = false ∧
        lastRequest? acts = some .enter
  stops :
    told timeout acts now = some .stopped ↔
      ((off timeout).after acts).active = true ∧
        (lastRequest? acts = some .exit ∨
          Outstays timeout ((off timeout).log acts) now)
  latest :
    ∀ requests, (∀ act ∈ requests, act.isRequest = true) →
      ∀ request : Act, request.isRequest = true →
        told timeout (acts ++ requests ++ [request]) now =
          told timeout (acts ++ [request]) now
  bounded :
    ((off timeout).after acts).active = true →
      Outstays timeout ((off timeout).log acts) now →
      ∀ requests, (∀ act ∈ requests, act.isRequest = true) →
        told timeout (acts ++ requests) now = some .stopped
  endless :
    timeout = 0 →
      (told timeout acts now = some .stopped ↔
        ((off timeout).after acts).active = true ∧
          lastRequest? acts = some .exit)

theorem told_started_iff
    (timeout : UInt32)
    (acts : List Act)
    (now : Instant) :
    told timeout acts now = some .started ↔
      ((off timeout).after acts).active = false ∧
        lastRequest? acts = some .enter :=
  (ends_after timeout acts).started_iff (updates_update now _)

theorem told_stopped_iff
    (timeout : UInt32)
    (acts : List Act)
    (now : Instant) :
    told timeout acts now = some .stopped ↔
      ((off timeout).after acts).active = true ∧
        (lastRequest? acts = some .exit ∨
          Outstays timeout ((off timeout).log acts) now) :=
  (ends_after timeout acts).stopped_iff (updates_update now _)

/- Requests before the last one do not matter. -/
theorem told_of_requests
    (timeout : UInt32)
    (acts : List Act)
    (now : Instant)
    (hRequests : ∀ act ∈ requests, act.isRequest = true)
    (hRequest : act.isRequest = true) :
    told timeout (acts ++ requests ++ [act]) now =
      told timeout (acts ++ [act]) now := by
  have hLast := lastRequest?_of_request acts hRequest
  have hLater :=
    lastRequest?_of_request (acts ++ requests) hRequest
  have hAct : ∀ other ∈ [act], other.isRequest = true :=
    List.forall_mem_singleton.mpr hRequest
  rcases after_requests (off timeout) acts hAct with
    ⟨hActive, hBegun⟩
  have hBoth := List.forall_mem_append.mpr ⟨hRequests, hAct⟩
  rcases after_requests (off timeout) acts hBoth with
    ⟨hLaterActive, hLaterBegun⟩
  rw [← List.append_assoc] at hLaterActive hLaterBegun
  apply Option.ext
  intro change
  cases change with
  | started =>
      rw [told_started_iff, told_started_iff, hLast, hLater,
        hActive, hLaterActive]
  | stopped =>
      rw [told_stopped_iff, told_stopped_iff, hLast, hLater,
        hActive, hLaterActive, Outstays, Outstays, hBegun,
        hLaterBegun]

/- Asking to enter again takes a request to end back. -/
example
    (now later : Instant) :
    told 0 [.enter, .update now, .exit, .enter] later = none :=
  rfl

/- The last request is heeded after any acts, at any time. -/
theorem last_request_heeded
    (timeout : UInt32)
    (acts : List Act)
    (now : Instant) :
    Heeds timeout acts now where
  switches := (ends_after timeout acts).switches
  starts := told_started_iff timeout acts now
  stops := told_stopped_iff timeout acts now
  latest _ hRequests _ hRequest :=
    told_of_requests timeout acts now hRequests hRequest
  bounded hOn hOver requests hRequests := by
    rcases after_requests (off timeout) acts hRequests with
      ⟨hActive, hBegun⟩
    rw [told_stopped_iff, hActive, Outstays, hBegun]
    exact ⟨hOn, .inr hOver⟩
  endless hZero := by
    have hNever :
        ¬ Outstays timeout ((off timeout).log acts) now := by
      rw [hZero]
      exact fun hOver => lt_irrefl 0 hOver.1
    rw [told_stopped_iff, or_iff_left hNever]

end Listening

end Fota
