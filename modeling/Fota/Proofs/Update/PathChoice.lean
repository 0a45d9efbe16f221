import Fota.Proofs.Update.EarnedSuccess
import Fota.Proofs.Update.OwnPath
import Fota.Proofs.Update.Record
import Fota.Proofs.Update.Replays

/-
  This file shows which upgrade path a run chooses. When the
  modem has named its version, the updater follows the path of
  the caller if it has one, and a known one otherwise. So once a
  run has ended, the next one that is enabled chooses a known
  path just when the updater has forgotten that of the caller.

  Key definitions include:
    * `UpgradePath.choice`
    * `Update.chosen?`
    * `Life.Decides`
    * `Life.Chooses`

  The main statement is
  `Life.known_path_chosen_iff_forgotten`.
-/

namespace Fota

open Update (Exchange Script Setting Talk)

------------------------------------------------------------
-- Choices
------------------------------------------------------------

/-
  The path that is followed from a version: that of the caller,
  which has to start there, or a known one if there is none.
-/
def UpgradePath.choice
    (own : Option UpgradePath)
    (version : UInt32) : Option UpgradePath :=
  match own with
  | some path =>
      if path.start = version then some path else none
  | none => find? version

namespace Updater

variable
  {u offer : Updater}
  {version : UInt32}

/- The path along which the updater goes on, if there is one. -/
def along?
    (u : Updater) : Option UpgradePath :=
  if u.stage = .setupCloudConnect then
    some u.checkpoint.path
  else
    none

/- What is offered is the path that is chosen. -/
theorem path_offered? :
    (u.offered? version).map (fun w => w.checkpoint.path) =
      UpgradePath.choice u.ownPath? version := by
  unfold offered? selectPath withVersion ownPath?
    UpgradePath.choice
  cases u.checkpoint.ownPath with
  | true =>
      simp only [if_true]
      split <;> rfl
  | false => cases UpgradePath.find? version <;> rfl

/- An offer that is taken is gone on along. -/
theorem along?_offered
    (hOffered : u.offered? version = some offer) :
    offer.along? = some offer.checkpoint.path :=
  if_pos (stage_offered hOffered)

/- Acting on a version stores an offer, or comes to rest. -/
theorem unfolds_qualifyVersion
    {next : Updater}
    {talk : List Exchange}
    (hUnfolds :
      (u.qualifyVersion version).Unfolds talk (some next)) :
    next.along? =
        (u.offered? version).map
          (fun offer => offer.checkpoint.path) ∧
      match u.offered? version with
      | none => talk = []
      | some offer =>
          ∃ answer mode rest,
            talk =
              ⟨offer.storing, answer⟩ ::
                ⟨.isSafeMode, mode⟩ :: rest := by
  rw [qualifyVersion_eq] at hUnfolds
  cases hOffered : u.offered? version with
  | none =>
      rw [hOffered] at hUnfolds
      rcases (Dialogue.unfolds_done _ _ _).mp hUnfolds with
        ⟨rfl, rfl⟩
      exact ⟨rfl, rfl⟩
  | some offer =>
      have hAlong := along?_offered hOffered
      rw [hOffered] at hUnfolds
      simp only [persist, Talk.store, Talk.isSafeMode,
        Talk.resetToSafeMode, Dialogue.pure_eq_done,
        Dialogue.ask_bind, Dialogue.done_bind,
        Dialogue.unfolds_ask, Dialogue.unfolds_ite]
        at hUnfolds
      rcases hUnfolds with
        ⟨answer, _, rfl, mode, rest, rfl, hSafe, hNormal⟩
      refine ⟨?_, answer, mode, rest, rfl⟩
      cases mode with
      | true =>
          rw [((Dialogue.unfolds_done _ _ _).mp
            (hSafe rfl)).2]
          rfl
      | false =>
          rcases hNormal Bool.false_ne_true with
            ⟨_, _, _, _, _, _, hDone⟩
          rw [((Dialogue.unfolds_done _ _ _).mp hDone).2]
          exact hAlong

end Updater

namespace Update

namespace Exchange

/- The checkpoint that is to be stored, if it can be read. -/
def stored? : Exchange → Option Checkpoint
| ⟨.store record, _⟩ => Record.decode? record
| _ => none

/- The updater looked at the mode of the device. -/
def asksMode : Exchange → Bool
| ⟨.isSafeMode, _⟩ => true
| _ => false

end Exchange

/- The path that is stored first, for the run to go on along. -/
def chosen?
    (talk : List Exchange) : Option UpgradePath :=
  (talk.findSome? Exchange.stored?).map Checkpoint.path

end Update

------------------------------------------------------------
-- Deciding Turns
------------------------------------------------------------

/-
  The talk of a tick that has read a version. It is acted on at
  its end: if there is an offer it is stored, and then the mode
  of the device is looked at.
-/
structure Turn.Acts
    (turn : Turn)
    (offer? : Option Updater)
    (front back : List Exchange) : Prop where
  talk : turn.talk = front ++ back
  quiet :
    ∀ exchange ∈ front,
      exchange.stored? = none ∧ exchange.asksMode = false
  back :
    match offer? with
    | none => back = []
    | some offer =>
        ∃ answer mode rest,
          back =
            ⟨offer.storing, answer⟩ ::
              ⟨.isSafeMode, mode⟩ :: rest
  along :
    turn.after.along? =
      offer?.map (fun offer => offer.checkpoint.path)

namespace Turn

variable
  {turn : Turn}
  {now : Instant}
  {rest : List Exchange}
  {version : UInt32}

/- A tick that reads a version acts on it. -/
theorem Works.acts
    (hWorks : turn.Works now rest)
    (hStage : turn.before.stage = .qualifyModemOn)
    (hVersion :
      turn.talk.findSome? Exchange.version? = some version) :
    ∃ front back,
      turn.Acts ((turn.before.entering now).offered? version)
        front back := by
  have hSame :
      (turn.before.entering now).stage = .qualifyModemOn :=
    hStage
  have hWork := hWorks.work
  unfold Updater.work at hWork
  rw [hSame] at hWork
  simp only [Updater.qualifyModemOn, Talk.networkPower,
    Talk.carryOut_readVersion, Dialogue.pure_eq_done,
    Dialogue.ask_bind, Dialogue.done_bind,
    Dialogue.unfolds_ask, Dialogue.unfolds_ite] at hWork
  rcases hWork with ⟨power, _, rfl, hOn, hOff⟩
  rw [hWorks.talk] at hVersion
  by_cases hPower : power = .on
  · rcases hOn hPower with ⟨reply, rest, rfl, hUnread, hRead⟩
    cases hNamed : reply.version? with
    | none =>
        rw [hNamed] at hUnread
        rcases (Dialogue.unfolds_done _ _ _).mp
          (hUnread rfl) with ⟨rfl, -⟩
        simp [List.findSome?_cons, Exchange.version?, hNamed]
          at hVersion
    | some named =>
        have hSome : named = version := by
          simpa [List.findSome?_cons, Exchange.version?, hNamed]
            using hVersion
        subst hSome
        rw [hNamed] at hRead
        rcases Updater.unfolds_qualifyVersion
          (hRead (Reply.version_ne_zero hNamed)) with
          ⟨hAlong, hBack⟩
        refine
          ⟨[⟨.hearNotices, ()⟩, ⟨.now, now⟩,
              ⟨.networkPower, power⟩,
              ⟨.command .identify, reply⟩],
            rest, hWorks.talk, ?_, hBack, hAlong⟩
        intro exchange hMem
        simp only [List.mem_cons, List.not_mem_nil, or_false]
          at hMem
        rcases hMem with rfl | rfl | rfl | rfl <;>
          exact ⟨rfl, rfl⟩
  · have hLate := (hOff hPower).1
    have hEarly := (hOff hPower).2
    exfalso
    by_cases hTimedOut :
        (turn.before.entering now).TimedOut now
          (turn.before.entering now).policy.powerOnTimeout
    · rcases (Dialogue.unfolds_done _ _ _).mp
        (hLate hTimedOut) with ⟨rfl, -⟩
      simp [List.findSome?_cons, Exchange.version?] at hVersion
    · rcases (Dialogue.unfolds_done _ _ _).mp
        (hEarly hTimedOut) with ⟨rfl, -⟩
      simp [List.findSome?_cons, Exchange.version?] at hVersion

/- Without work, no version is read. -/
theorem Rests.version?_eq_none
    (hRests : turn.Rests) :
    turn.talk.findSome? Exchange.version? = none := by
  rw [List.findSome?_eq_none_iff]
  rintro ⟨question, answer⟩ hMem
  have hQuiet := hRests.quiet _ hMem
  cases question with
  | command command =>
      simp [Updater.quietQuestions, Updater.requestQuestions]
        at hQuiet
  | _ => rfl

/-
  A talk that goes as far as to look at the mode, or to its end,
  stores the offer first if there is one, and else nothing.
-/
theorem Acts.chosen?_eq
    {offer? : Option Updater}
    {front back talk : List Exchange}
    (hActs : turn.Acts offer? front back)
    (hPrefix : talk <+: turn.talk)
    (hDecided :
      talk = turn.talk ∨ talk.any Exchange.asksMode = true) :
    Update.chosen? talk =
      offer?.map (fun offer => offer.checkpoint.path) := by
  have hQuiet :
      front.findSome? Exchange.stored? = none :=
    List.findSome?_eq_none_iff.mpr fun exchange hMem =>
      (hActs.quiet exchange hMem).1
  have hBack := hActs.back
  rw [hActs.talk] at hPrefix hDecided
  cases offer? with
  | none =>
      rw [hBack, List.append_nil] at hPrefix
      have hNone : talk.findSome? Exchange.stored? = none := by
        rw [List.findSome?_eq_none_iff] at hQuiet ⊢
        intro exchange hMem
        exact hQuiet exchange (hPrefix.subset hMem)
      unfold Update.chosen?
      rw [hNone]
      rfl
  | some offer =>
      rcases hBack with ⟨answer, mode, rest, hBack⟩
      have hStored :
          front ++ [⟨offer.storing, answer⟩] <+: talk := by
        have hWhole :
            front ++ [⟨offer.storing, answer⟩] <+:
              front ++ back :=
          ⟨⟨.isSafeMode, mode⟩ :: rest, by simp [hBack]⟩
        rcases hDecided with rfl | hMode
        · exact hWhole
        · rcases List.prefix_or_prefix_of_prefix hWhole
            hPrefix with hStored | hShort
          · exact hStored
          · rcases List.any_eq_true.mp hMode with
              ⟨exchange, hMem, hIs⟩
            have hIn := hShort.subset hMem
            rw [List.mem_append, List.mem_singleton] at hIn
            rcases hIn with hFront | rfl
            · rw [(hActs.quiet exchange hFront).2] at hIs
              cases hIs
            · cases hIs
      rcases hStored with ⟨later, rfl⟩
      have hRead :
          Exchange.stored? ⟨offer.storing, answer⟩ =
            some offer.checkpoint :=
        Record.decode?_encode offer.checkpoint
      unfold Update.chosen?
      rw [List.append_assoc, List.findSome?_append, hQuiet]
      simp [hRead]

end Turn

------------------------------------------------------------
-- Decisions
------------------------------------------------------------

namespace Life

/-
  In a call, the updater reads the version by which it chooses,
  and acts on it: the call comes back or, as a reset may cut it
  off, has at least looked at the mode of the device.
-/
structure Decides
    (s : Setting)
    (version : UInt32)
    (talk : List Exchange)
    (l l' : Life) : Prop where
  qualifies :
    l.updater.map Updater.stage = some .qualifyModemOn
  calls : ∃ call, l.Calls s call l'
  said : l'.course.exchanges = l.course.exchanges ++ talk
  version :
    talk.findSome? Exchange.version? = some version
  decided :
    l'.updater.isSome = true ∨
      talk.any Exchange.asksMode = true

/-
  A path is chosen, or none: it is stored, and an updater that
  comes back goes on along it.
-/
structure Chooses
    (talk : List Exchange)
    (path? : Option UpgradePath)
    (l : Life) : Prop where
  stored : Update.chosen? talk = path?
  along : ∀ u ∈ l.updater, u.along? = path?

variable
  {s : Setting}
  {u : Updater}
  {version : UInt32}
  {talk : List Exchange}
  {l l' : Life}

/- The choice is between the path of the caller and known ones. -/
theorem Decides.chooses
    (hDecides : l.Decides s version talk l')
    (hUp : l.updater = some u) :
    l'.Chooses talk
      (UpgradePath.choice u.ownPath? version) := by
  have hStage : u.stage = .qualifyModemOn := by
    have hQualifies := hDecides.qualifies
    rw [hUp] at hQualifies
    exact Option.some.inj hQualifies
  -- A turn that the talk belongs to acts on the version.
  have hActs :
      ∀ turn : Turn, l.updater = some turn.before →
        talk <+: turn.talk →
          (turn.call.carryOut turn.before).Unfolds turn.talk
            (some turn.after) →
          ∃ offer? front back,
            turn.Acts offer? front back ∧
              offer?.map (fun w => w.checkpoint.path) =
                UpgradePath.choice u.ownPath? version := by
    rintro turn hBefore ⟨rest, hTalk⟩ hUnfolds
    have hSame := Option.some.inj (hUp.symm.trans hBefore)
    have hVersion :
        turn.talk.findSome? Exchange.version? =
          some version := by
      rw [← hTalk, List.findSome?_append, hDecides.version]
      rfl
    rcases Turn.works_or_rests hUnfolds with
      ⟨now, rest, hWorks⟩ | hRests
    · rw [hSame] at hStage
      rcases hWorks.acts hStage hVersion with
        ⟨front, back, hActs⟩
      refine ⟨_, front, back, hActs, ?_⟩
      rw [Updater.path_offered?, hSame]
      rfl
    · rw [hRests.version?_eq_none] at hVersion
      cases hVersion
  rcases hDecides.calls with ⟨call, hCalls⟩
  cases hNext : l'.updater with
  | some next =>
      rcases Turn.exists_takes hCalls hNext with
        ⟨turn, -, hTakes⟩
      have hTalk : talk = turn.talk :=
        List.append_cancel_left
          (hDecides.said.symm.trans hTakes.talk)
      have hPrefix : talk <+: turn.talk :=
        hTalk ▸ List.prefix_rfl
      rcases hActs turn hTakes.before hPrefix
        hTakes.unfolds with ⟨_, front, back, hActs, hChoice⟩
      rw [← hChoice]
      constructor
      · exact hActs.chosen?_eq hPrefix (.inl hTalk)
      · intro u hMem
        rw [hTakes.after, Option.mem_some] at hMem
        rw [← hMem]
        exact hActs.along
  | none =>
      have hMode : talk.any Exchange.asksMode = true := by
        have hDecided := hDecides.decided
        rw [hNext] at hDecided
        rcases hDecided with hBack | hMode
        · cases hBack
        · exact hMode
      rcases Turn.exists_whole hCalls hDecides.said with
        ⟨turn, hBefore, hPrefix, hUnfolds⟩
      rcases hActs turn hBefore hPrefix hUnfolds with
        ⟨_, front, back, hActs, hChoice⟩
      rw [← hChoice]
      constructor
      · exact hActs.chosen?_eq hPrefix (.inr hMode)
      · intro u hMem
        rw [hNext] at hMem
        cases hMem

end Life

------------------------------------------------------------
-- A Run that Is Not Wanted
------------------------------------------------------------

/- A smooth run while the cloud does not allow updates. -/
def Update.Script.unwanted : Script :=
  { smooth with
    answer := fun c question =>
      match question with
      | .isFeatureEnabled => false
      | question => smooth.answer c question }

/- A path from the known version, but to another one. -/
def UpgradePath.aside : UpgradePath where
  start := 2060001
  goal := 3150002
  file := ⟨"aside.upd", by decide +kernel⟩
  digest :=
    ⟨"0123456789abcdef0123456789abcdef", by decide +kernel⟩

namespace Replay

/- Go on with a call of the session. -/
def along
    (script : Script)
    (call : Updater.Call)
    (r : Replay) : Replay :=
  match r.turn? script call with
  | some turn => ⟨r.turns ++ [turn], r.next script call⟩
  | none => r

/- What is replayed so far is a session from an updater. -/
def Whole
    (u : Updater)
    (r : Replay) : Prop :=
  r.life.Session .board u r.turns

variable
  {u : Updater}
  {script : Script}
  {r : Replay}

theorem Whole.along
    (hWhole : r.Whole u)
    (call : Updater.Call) :
    (r.along script call).Whole u := by
  unfold Replay.along
  split
  · next turn hTurn => exact hWhole.takes (takes_next hTurn)
  · exact hWhole

/- What is said in the next call. -/
def said
    (script : Script)
    (call : Updater.Call)
    (r : Replay) : List Exchange :=
  (r.next script call).course.exchanges.drop
    r.life.course.exchanges.length

/- A call that is replayed may decide. -/
theorem decides_next
    {call : Updater.Call}
    {version : UInt32}
    (hStage :
      r.life.updater.map Updater.stage = some .qualifyModemOn)
    (hVersion :
      (r.said script call).findSome? Exchange.version? =
        some version)
    (hMode :
      (r.said script call).any Exchange.asksMode = true) :
    r.life.Decides .board version (r.said script call)
      (r.next script call) := by
  rcases Option.map_eq_some_iff.mp hStage with ⟨u, hUp, -⟩
  have hCalls : r.life.Calls .board call (r.next script call) :=
    Life.calls_perform call hUp
  refine ⟨hStage, ⟨call, hCalls⟩, ?_, hVersion, .inr hMode⟩
  rcases hCalls with ⟨_, -, hLeads⟩
  rcases Update.Course.unfolds_of_leads hLeads with
    ⟨talk, -, hTalk⟩
  unfold said
  rw [hTalk, List.drop_left]

/- A session is parted at one of its turns. -/
theorem Whole.part
    {last : Turn}
    {place : Nat}
    (hWhole : r.Whole u)
    (hLast : r.turns[place]? = some last) :
    r.life.Session .board u
        (r.turns.take place ++
          last :: r.turns.drop (place + 1)) ∧
      r.turns.drop place =
        last :: r.turns.drop (place + 1) := by
  rcases List.getElem?_eq_some_iff.mp hLast with
    ⟨hPlace, hLast⟩
  have hDrop := List.drop_eq_getElem_cons hPlace
  rw [hLast] at hDrop
  rw [← hDrop, List.take_append_drop]
  exact ⟨hWhole, rfl⟩

/- The start of a boot in normal mode. -/
def rested : Replay :=
  start .smooth .standard false ⟨.fresh none false, none⟩

/-
  A run along a path of the caller, which the device declines,
  and the beginning of another one that is enabled.
-/
def declined : Replay :=
  (((rested.along .smooth (.checkUpdate .aside)).along
      .unwanted .tick).along .smooth .enableUpdates).along
    .smooth .tick

theorem whole_declined
    (hUp : rested.life.updater = some u) :
    declined.Whole u := by
  have hWhole : rested.Whole u :=
    .boots (boots_start .standard false _) hUp
  exact (((hWhole.along _).along _).along _).along _

/-
  The declined run has ended, no path is forgotten, and the next
  tick decides for the path of the caller.
-/
theorem declined_decides :
    ∃ (u : Updater) (earlier later : List Turn) (last : Turn)
      (talk : List Exchange) (l l' : Life),
      l.Session .board u (earlier ++ last :: later) ∧
        last.EndsRun ∧
          (∀ turn ∈ later, turn.told? = none) ∧
            l.Decides .board 2060001 talk l' ∧
              (¬ ∃ turn ∈ last :: later, turn.Forgets) ∧
                earlier.foldl Turn.given u.ownPath? =
                    some .aside ∧
                  Update.chosen? talk = some .aside := by
  have hStart :
      rested.life.updater.map Updater.ownPath? = some none := by
    decide +kernel
  have hEnds :
      declined.turns[1]?.any (fun turn => turn.EndsRun) =
        true := by
    decide +kernel
  have hUntold :
      ∀ turn ∈ declined.turns.drop 2, turn.told? = none := by
    decide +kernel
  have hKept :
      ∀ turn ∈ declined.turns.drop 1, ¬ turn.Forgets := by
    decide +kernel
  have hOwn :
      (declined.turns.take 1).foldl Turn.given none =
        some .aside := by
    decide +kernel
  have hChosen :
      Update.chosen? (declined.said .smooth .tick) =
        some .aside := by
    decide +kernel
  have hDecides :
      declined.life.Decides .board 2060001
        (declined.said .smooth .tick)
        (declined.next .smooth .tick) :=
    decides_next (by decide +kernel) (by decide +kernel)
      (by decide +kernel)
  rcases Option.map_eq_some_iff.mp hStart with ⟨u, hUp, hNone⟩
  rcases (Option.any_eq_true _ _).mp hEnds with
    ⟨last, hLast, hEnds⟩
  rcases (whole_declined hUp).part hLast with
    ⟨hSession, hDrop⟩
  rw [hDrop] at hKept
  refine
    ⟨u, _, _, last, _, _, _, hSession, of_decide_eq_true hEnds,
      hUntold, hDecides, ?_, ?_, hChosen⟩
  · rintro ⟨turn, hMem, hForgets⟩
    exact hKept turn hMem hForgets
  · rw [hNone]
    exact hOwn

end Replay

------------------------------------------------------------
-- Known Paths and Old Ones
------------------------------------------------------------

namespace Life

/-
  A run has ended, and since then no request has told a path. If
  the next version is read, a run was enabled in between. If the
  updater has forgotten the path of the caller, at the end of
  the run or later, a known path is chosen by the version. If it
  has not, the path that the ended run has used is chosen again.
-/
theorem own_path_chosen_until_forgotten
    {s : Setting}
    {start : Updater}
    {earlier later : List Turn}
    {last : Turn}
    {version : UInt32}
    {talk : List Exchange}
    {l l' : Life}
    (hSession : l.Session s start (earlier ++ last :: later))
    (hEnds : last.EndsRun)
    (hUntold : ∀ turn ∈ later, turn.told? = none)
    (hDecides : l.Decides s version talk l') :
    (∃ turn ∈ later,
        turn.Begins ∧ turn.call = .enableUpdates) ∧
      if ∃ turn ∈ last :: later, turn.Forgets then
        l'.Chooses talk (UpgradePath.find? version)
      else
        l'.Chooses talk
          (UpgradePath.choice
            (earlier.foldl Turn.given start.ownPath?)
            version) := by
  rcases Option.map_eq_some_iff.mp hDecides.qualifies with
    ⟨u, hUp, hStage⟩
  constructor
  · rcases hSession.idle_or_begins hEnds hUp with
      hIdle | ⟨turn, hMem, hBegins, hUnfolds⟩
    · rw [hStage] at hIdle
      cases hIdle
    · exact
        ⟨turn, hMem, hBegins,
          hBegins.enabled hUnfolds (hUntold turn hMem)⟩
  · have hChooses := hDecides.chooses hUp
    have hUntold' :
        ∀ turn ∈ last :: later, turn.told? = none :=
      List.forall_mem_cons.mpr ⟨hEnds.untold, hUntold⟩
    rw [hSession.ownPath?_eq hUp, List.foldl_append,
      Turn.foldl_given hUntold'] at hChooses
    by_cases hForgets :
        ∃ turn ∈ last :: later, turn.Forgets
    · rw [if_pos hForgets] at hChooses ⊢
      exact hChooses
    · rw [if_neg hForgets] at hChooses ⊢
      exact hChooses

/- The path of a run that was declined is chosen by the next. -/
theorem own_path_chosen_after_declined_run :
    ∃ (u : Updater) (earlier later : List Turn) (last : Turn)
      (talk : List Exchange) (l l' : Life),
      l.Session .board u (earlier ++ last :: later) ∧
        last.EndsRun ∧
          (∀ turn ∈ later, turn.told? = none) ∧
            l.Decides .board 2060001 talk l' ∧
              l'.Chooses talk (some .aside) := by
  rcases Replay.declined_decides with
    ⟨u, earlier, later, last, talk, l, l', hSession, hEnds,
      hUntold, hDecides, hKept, hOwn, -⟩
  have hChoice :
      UpgradePath.choice (some .aside) 2060001 =
        some .aside := by
    decide +kernel
  rcases own_path_chosen_until_forgotten hSession hEnds hUntold
    hDecides with ⟨-, hChooses⟩
  rw [if_neg hKept, hOwn, hChoice] at hChooses
  exact
    ⟨u, earlier, later, last, talk, l, l', hSession, hEnds,
      hUntold, hDecides, hChooses⟩

/-
  Not each run that is enabled after one along a path of the
  caller has ended chooses a known path by the version.
-/
theorem known_path_not_chosen_after_declined_run :
    ¬ ∀ (u : Updater) (earlier later : List Turn) (last : Turn)
        (version : UInt32) (talk : List Exchange)
        (l l' : Life),
      l.Session .board u (earlier ++ last :: later) →
        last.EndsRun →
          (earlier.foldl Turn.given
            u.ownPath?).isSome = true →
            (∀ turn ∈ later, turn.told? = none) →
              l.Decides .board version talk l' →
                l'.Chooses talk (UpgradePath.find? version) := by
  intro hAll
  rcases Replay.declined_decides with
    ⟨u, earlier, later, last, talk, l, l', hSession, hEnds,
      hUntold, hDecides, -, hOwn, hChosen⟩
  have hChooses :=
    hAll u earlier later last 2060001 talk l l' hSession hEnds
      (by rw [hOwn]; rfl) hUntold hDecides
  have hKnown := hChooses.stored.symm.trans hChosen
  revert hKnown
  decide +kernel

end Life

end Fota
