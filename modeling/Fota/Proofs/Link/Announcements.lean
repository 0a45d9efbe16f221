import Fota.Proofs.Link.Signals
import Fota.Proofs.Link.TruthfulStatus

/-
  This file shows that the announcements of a supervised link
  tell its story without gaps or repeats: those of power and of
  listening are those of switches, the link is not announced as
  up or as down twice without a change between, and what was
  announced last is how the link stands.

  Key definitions include:
    * `Link.story`
    * `Link.Standing`
    * `Link.Standing.Step`
    * `Link.Connects`
    * `Link.Tells`

  The main statements are `Link.Move.steps`, which says what
  every move announces, and `Link.tells_of_supervised`.
-/

namespace Fota

namespace Link

open Signals

------------------------------------------------------------
-- Stories
------------------------------------------------------------

/- What is announced in an exchange, if it announces anything. -/
def announced? : Exchange → Option Announcement
| ⟨.announce _ what, _⟩ => some what
| _ => none

/- The announcements of a log, in their order. -/
def story
    (log : List Exchange) : List Announcement :=
  log.filterMap announced?

theorem story_append
    (first second : List Exchange) :
    story (first ++ second) = story first ++ story second :=
  List.filterMap_append

/- How a link stands: what its announcements are about. -/
structure Standing where
  on : Bool
  listening : Bool
  underWay : Bool
  up : Bool
deriving DecidableEq, Repr

/- The standing of a link. -/
def standing
    (l : Link) : Standing where
  on := l.powered
  listening := l.listening.active
  underWay := l.connecting
  up := l.connected

/- A link that was never used is off, quiet and down. -/
def Standing.idle : Standing where
  on := false
  listening := false
  underWay := false
  up := false

------------------------------------------------------------
-- Steps
------------------------------------------------------------

/-
  One step of a standing and what is announced of it. Only that
  an attempt is given up may not be announced, and an attempt
  may be given up as soon as it is announced.
-/
inductive Standing.Step :
    Standing → List Announcement → Standing → Prop where
| powerOn
    {s : Standing}
    (hOff : ¬ s.on) :
    Step s [.poweredOn] { s with on := true }
| powerOff
    {s : Standing}
    (hOn : s.on)
    (hDown : ¬ s.underWay ∧ ¬ s.up) :
    Step s [.poweredOff] { s with on := false }
| listen
    {s : Standing}
    (hQuiet : ¬ s.listening) :
    Step s [.listeningStarted] { s with listening := true }
| stopListening
    {s : Standing}
    (hActive : s.listening) :
    Step s [.listeningStopped] { s with listening := false }
| attempt
    {s : Standing}
    (lasts : Bool) :
    Step s [.connecting] { s with underWay := lasts }
| giveUp
    {s : Standing} :
    Step s [] { s with underWay := false }
| comeUp
    {s : Standing}
    (hDown : ¬ s.up) :
    Step s [.connected] { s with underWay := false, up := true }
| goDown
    {s : Standing}
    (hSome : s.underWay ∨ s.up) :
    Step s [.disconnected]
      { s with underWay := false, up := false }

/- Steps, one after the other. -/
inductive Standing.Steps
    (start : Standing) :
    List Announcement → Standing → Prop where
| none :
    Steps start [] start
| more
    {s s' : Standing}
    {told what : List Announcement}
    (hSteps : Steps start told s)
    (hStep : s.Step what s') :
    Steps start (told ++ what) s'

variable
  {start s s' : Standing}
  {told what : List Announcement}
  {l l' : Link}
  {talk log : List Exchange}

/- Nothing is announced while the standing stays. -/
theorem Standing.Steps.stay
    (hSteps : start.Steps told l.standing)
    (hSilent : story talk = [])
    (hSame : l'.standing = l.standing) :
    start.Steps (told ++ story talk) l'.standing := by
  rw [hSilent, hSame, List.append_nil]
  exact hSteps

------------------------------------------------------------
-- Listening
------------------------------------------------------------

section ListeningMode

variable
  {mode : Listening}
  {now : Instant}

/-
  An update that starts listening finds it off and leaves it on,
  one that stops it finds it on and leaves it off, and any other
  one leaves it as it is.
-/
theorem active_update
    (mode : Listening)
    (now : Instant) :
    match (mode.update now).1 with
    | some .started =>
        ¬ mode.active ∧ (mode.update now).2.active = true
    | some .stopped =>
        mode.active ∧ (mode.update now).2.active = false
    | none => (mode.update now).2.active = mode.active := by
  unfold Listening.update
  split_ifs with hEnter hActive hEnd
  · exact ⟨hEnter.2, rfl⟩
  · exact ⟨hActive, rfl⟩
  · rfl
  · rfl

theorem active_of_started
    (hStarted : (mode.update now).1 = some .started) :
    ¬ mode.active ∧ (mode.update now).2.active = true := by
  have hUpdate := active_update mode now
  rwa [hStarted] at hUpdate

theorem active_of_stopped
    (hStopped : (mode.update now).1 = some .stopped) :
    mode.active ∧ (mode.update now).2.active = false := by
  have hUpdate := active_update mode now
  rwa [hStopped] at hUpdate

theorem active_of_quiet
    (hQuiet : (mode.update now).1 = none) :
    (mode.update now).2.active = mode.active := by
  have hUpdate := active_update mode now
  rwa [hQuiet] at hUpdate

end ListeningMode

------------------------------------------------------------
-- What Moves Announce
------------------------------------------------------------

/- A link is dropped if there is one, and this is announced. -/
theorem Drops.standing
    {reason : DropReason}
    (hDrop : Drops reason l talk l') :
    (story talk = [] ∧ l'.standing = l.standing) ∨
      (story talk = [.disconnected] ∧
        (l.connecting ∨ l.connected) ∧
          l'.standing =
            { l.standing with underWay := false, up := false }) := by
  cases hDrop with
  | nothing hNone =>
      exact .inl ⟨rfl, rfl⟩
  | drop hSome answer =>
      refine .inr ⟨?_, hSome, rfl⟩
      split <;> rfl

theorem Drops.steps
    {reason : DropReason}
    (hDrop : Drops reason l talk l')
    (hSteps : start.Steps told l.standing) :
    start.Steps (told ++ story talk) l'.standing := by
  rcases hDrop.standing with
    ⟨hSilent, hSame⟩ | ⟨hStory, hSome, hStanding⟩
  · exact hSteps.stay hSilent hSame
  · rw [hStory, hStanding]
    exact hSteps.more (.goDown hSome)

theorem PowersUp.steps
    {result : Except Fault Unit}
    (hPower : PowersUp l talk result l')
    (hSteps : start.Steps told l.standing) :
    start.Steps (told ++ story talk) l'.standing := by
  cases hPower with
  | already hOn =>
      exact hSteps.stay rfl rfl
  | refused hOff fault =>
      exact hSteps.stay rfl rfl
  | done hOff =>
      exact hSteps.more (.powerOn hOff)

/- To listen for credentials is only asked for. -/
theorem standing_listenForCredentials
    (l : Link) :
    l.listenForCredentials.standing = l.standing := by
  unfold listenForCredentials
  split <;> rfl

theorem Attempts.steps
    {now : Instant}
    (hAttempt : Attempts l now talk l')
    (hSteps : start.Steps told l.standing) :
    start.Steps (told ++ story talk) l'.standing := by
  have hArmed : start.Steps told (l.armed now).standing := hSteps
  cases hAttempt with
  | unknown hPower =>
      rw [story_append, ← List.append_assoc]
      apply (hPower.steps hArmed).stay rfl
      exact standing_listenForCredentials _
  | unpowered hPower =>
      rw [story_append, ← List.append_assoc]
      exact (hPower.steps hArmed).stay rfl rfl
  | held hPower hHeld =>
      rw [story_append, ← List.append_assoc]
      exact (hPower.steps hArmed).stay rfl rfl
  | refused hPower hFree fault =>
      rw [story_append, ← List.append_assoc]
      exact (hPower.steps hArmed).more (.attempt false)
  | begun hPower hFree =>
      rw [story_append, ← List.append_assoc]
      exact (hPower.steps hArmed).more (.attempt true)

/-
  When listening starts, the link is dropped first: that it is
  down is announced before listening is.
-/
theorem Standing.Steps.startListening
    {mode : Listening}
    (hSteps : start.Steps told l.standing)
    (hQuiet : ¬ l.listening.active)
    (hActive : mode.active = true)
    (hDrop :
      Drops .listening { l with listening := mode } talk l') :
    start.Steps (told ++ (story talk ++ [.listeningStarted]))
      l'.standing := by
  rw [← List.append_assoc]
  rcases hDrop.standing with
    ⟨hSilent, hSame⟩ | ⟨hStory, hSome, hStanding⟩
  · rw [hSilent, List.append_nil, hSame, standing, hActive]
    exact hSteps.more (.listen hQuiet)
  · rw [hStory, hStanding, standing, hActive]
    exact (hSteps.more (.goDown hSome)).more (.listen hQuiet)

/- What a move announces are steps of the standing. -/
theorem Move.steps
    (hMove : Move l talk l')
    (hSteps : start.Steps told l.standing) :
    start.Steps (told ++ story talk) l'.standing := by
  cases hMove with
  | request hRequest =>
      rcases hRequest with rfl | rfl
      · exact hSteps.stay rfl rfl
      · exact hSteps.stay rfl rfl
  | suppress hNew =>
      exact hSteps.stay rfl rfl
  | powerUp hPower =>
      exact hPower.steps hSteps
  | powerDown hOn hDown =>
      exact hSteps.more (.powerOff hOn hDown)
  | powerStays hOn hDown fault =>
      exact hSteps.stay rfl rfl
  | drop hDrop =>
      exact hDrop.steps hSteps
  | tick hQuiet =>
      apply hSteps.stay rfl
      rw [standing, active_of_quiet hQuiet, standing]
  | tickStopped hStopped =>
      rcases active_of_stopped hStopped with ⟨hActive, hQuiet⟩
      rw [standing, hQuiet]
      exact hSteps.more (.stopListening hActive)
  | tickStarted hStarted hDrop =>
      rcases active_of_started hStarted with ⟨hQuiet, hActive⟩
      -- That the clock is read is not announced.
      change start.Steps (told ++ story (_ ++ [_])) _
      rw [story_append]
      exact hSteps.startListening hQuiet hActive hDrop
  | look ready =>
      exact hSteps.stay rfl rfl
  | arrive hNew =>
      exact hSteps.more (.comeUp hNew)
  | arriveAgain hOld =>
      exact hSteps.more .giveUp
  | lose hIdle hOld =>
      rw [standing, Bool.eq_false_iff.mpr hIdle]
      exact hSteps.more (.goDown (.inr hOld))
  | reset hUnderWay hDrop =>
      exact hDrop.steps hSteps
  | attempt hFree hAlone hAttempt =>
      exact hAttempt.steps hSteps

theorem Moves.steps
    (hMoves : Moves l talk l')
    (hSteps : start.Steps told l.standing) :
    start.Steps (told ++ story talk) l'.standing := by
  induction hMoves generalizing told with
  | nil l =>
      exact hSteps.stay rfl rfl
  | cons hMove hMoves ih =>
      rw [story_append, ← List.append_assoc]
      exact ih (hMove.steps hSteps)

variable
  {technology : Technology}
  {policy : Policy}

/- A supervised link has come from its start by such steps. -/
theorem steps_of_supervised
    (hSupervised : Supervised technology policy l log) :
    Standing.idle.Steps (story log) l.standing := by
  induction hSupervised with
  | start hStart =>
      rcases fresh_of_start hStart with ⟨rfl, rfl⟩
      exact .none
  | operate hLink operation hOperate ih =>
      rw [story_append]
      exact (moves_carryOut operation hOperate).steps ih

------------------------------------------------------------
-- Ups and Downs
------------------------------------------------------------

/-
  A story of ups and downs. Between two ups comes a down, and
  between two downs an attempt or an up; the link is up if that
  was told last. Since the last down, an attempt that is under
  way and a link that is up have been told.
-/
structure Connects
    (underWay up : Bool)
    (story : List Announcement) : Prop where
  ups : Parted .connected [.disconnected] story
  downs : Parted .disconnected [.connecting, .connected] story
  last :
    up ↔
      last? [.connected, .disconnected] story = some .connected
  since :
    underWay ∨ up →
      last? [.disconnected, .connecting, .connected] story ≠
        some .disconnected

variable {underWay up : Bool}

/- Nothing was told of a link that was never used. -/
theorem connects_nil :
    Connects false false [] where
  ups := parted_nil
  downs := parted_nil
  last := by simp [last?, among]
  since := by simp

/- Other announcements have nothing to do with it. -/
theorem Connects.concat
    {other : Announcement}
    (hConnects : Connects underWay up told)
    (hOther : other ∉ [.connecting, .connected, .disconnected]) :
    Connects underWay up (told ++ [other]) := by
  simp only [List.mem_cons, List.not_mem_nil, or_false,
    not_or] at hOther
  rcases hOther with ⟨hAttempt, hUp, hDown⟩
  constructor
  · exact hConnects.ups.concat (fun hMark => absurd hMark hUp)
  · exact
      hConnects.downs.concat (fun hMark => absurd hMark hDown)
  · rw [last?_concat_of_not_mem (by simp [hUp, hDown])]
    exact hConnects.last
  · rw [last?_concat_of_not_mem (by simp [hAttempt, hUp, hDown])]
    exact hConnects.since

/- An attempt may end without being told, -/
theorem Connects.giveUp
    (hConnects : Connects underWay up told) :
    Connects false up told where
  ups := hConnects.ups
  downs := hConnects.downs
  last := hConnects.last
  since hSome :=
    hConnects.since (.inr (hSome.resolve_left nofun))

/- and it may end as soon as it is told. -/
theorem Connects.attempt
    (hConnects : Connects underWay up told)
    (lasts : Bool) :
    Connects lasts up (told ++ [.connecting]) where
  ups := hConnects.ups.concat nofun
  downs := hConnects.downs.concat nofun
  last := by
    rw [last?_concat_of_not_mem (by decide)]
    exact hConnects.last
  since _ := by
    rw [last?_concat_of_mem (by decide)]
    decide

/- A link that is not up comes up. -/
theorem Connects.comeUp
    (hConnects : Connects underWay false told) :
    Connects false true (told ++ [.connected]) where
  ups :=
    hConnects.ups.concat fun _ hLast =>
      Bool.false_ne_true (hConnects.last.mpr hLast)
  downs := hConnects.downs.concat nofun
  last := by
    rw [last?_concat_of_mem (by decide)]
    simp
  since _ := by
    rw [last?_concat_of_mem (by decide)]
    decide

/- A link that is up or being attached goes down. -/
theorem Connects.goDown
    (hConnects : Connects underWay up told)
    (hSome : underWay ∨ up) :
    Connects false false (told ++ [.disconnected]) where
  ups := hConnects.ups.concat nofun
  downs :=
    hConnects.downs.concat fun _ => hConnects.since hSome
  last := by
    rw [last?_concat_of_mem (by decide)]
    decide
  since := by
    simp

------------------------------------------------------------
-- Telling the Story
------------------------------------------------------------

/- A story tells how a link stands. -/
structure Tells
    (story : List Announcement)
    (s : Standing) : Prop where
  power : Switches .poweredOn .poweredOff s.on story
  listening :
    Switches .listeningStarted .listeningStopped s.listening
      story
  link : Connects s.underWay s.up story

theorem tells_nil :
    Tells [] .idle :=
  ⟨switches_nil, switches_nil, connects_nil⟩

/- A story that is told step by step remains one. -/
theorem Standing.Step.tells
    (hStep : s.Step what s')
    (hTells : Tells told s) :
    Tells (told ++ what) s' := by
  rcases hTells with ⟨hPower, hListening, hLink⟩
  cases hStep with
  | powerOn hOff =>
      rw [Bool.eq_false_iff.mpr hOff] at hPower
      exact
        ⟨hPower.switchOn nofun,
          hListening.concat (by decide),
          hLink.concat (by decide)⟩
  | powerOff hOn hDown =>
      rw [hOn] at hPower
      exact
        ⟨hPower.switchOff nofun,
          hListening.concat (by decide),
          hLink.concat (by decide)⟩
  | listen hQuiet =>
      rw [Bool.eq_false_iff.mpr hQuiet] at hListening
      exact
        ⟨hPower.concat (by decide),
          hListening.switchOn nofun,
          hLink.concat (by decide)⟩
  | stopListening hActive =>
      rw [hActive] at hListening
      exact
        ⟨hPower.concat (by decide),
          hListening.switchOff nofun,
          hLink.concat (by decide)⟩
  | attempt lasts =>
      exact
        ⟨hPower.concat (by decide),
          hListening.concat (by decide),
          hLink.attempt lasts⟩
  | giveUp =>
      rw [List.append_nil]
      exact ⟨hPower, hListening, hLink.giveUp⟩
  | comeUp hDown =>
      rw [Bool.eq_false_iff.mpr hDown] at hLink
      exact
        ⟨hPower.concat (by decide),
          hListening.concat (by decide),
          hLink.comeUp⟩
  | goDown hSome =>
      exact
        ⟨hPower.concat (by decide),
          hListening.concat (by decide),
          hLink.goDown hSome⟩

theorem Standing.Steps.tells
    (hSteps : Standing.idle.Steps told s) :
    Tells told s := by
  induction hSteps with
  | none =>
      exact tells_nil
  | more hSteps hStep ih =>
      exact hStep.tells ih

/- The announcements of a supervised link tell how it stands. -/
theorem tells_of_supervised
    (hSupervised : Supervised technology policy l log) :
    Tells (story log) l.standing :=
  (steps_of_supervised hSupervised).tells

end Link

end Fota
