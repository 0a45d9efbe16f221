import Fota.Proofs.Update.Life

/-
  This file defines lives that can be computed. In a rehearsal,
  a script says what the surroundings answer; what they have to
  be truthful about is taken from the course of the boot, and a
  reset that is asked for ends it.

  Key definitions include:
    * `Update.Script`
    * `Update.Script.play`
    * `Update.Script.Suits`
    * `Life.Act`
    * `Life.rehearse`

  The main statements say that what is played is a course, and
  that what is rehearsed is lived.
-/

namespace Fota

namespace Update

------------------------------------------------------------
-- Scripts
------------------------------------------------------------

/-
  A script says which notices arrive before a question, and how
  the question is answered where the answer is free.
-/
structure Script where
  notices : Course → Question → List String
  answer : Course → (question : Question) → Answer question

namespace Script

/- The record in the slot, if it fits. -/
def readBack
    (c : Course)
    (room : Nat) : Except Fault (List UInt8) :=
  match c.stored with
  | none => .error .notFound
  | some record =>
      if record.length ≤ room then
        .ok record
      else
        .error .limitExceeded

/-
  The answer to a question: the truth where it has to be told,
  none where the boot ends, and that of the script elsewhere.
-/
def reply?
    (script : Script)
    (c : Course) :
    (question : Question) → Option (Answer question)
| .takeCompletion => some c.mailbox.completion
| .takeDeactivation => some c.mailbox.deactivation
| .progress => some c.mailbox.progress
| .isSafeMode => some c.safeMode
| .resetToSafeMode => none
| .resetToNormalMode => none
| .load room => some (readBack c room)
| question => some (script.answer c question)

/- Play a dialogue; it is cut off where the boot ends. -/
def play
    {α : Type}
    (script : Script) :
    Dialogue Question Answer α →
      Course →
      Option α × Course
| .done result, c => (some result, c)
| .ask question resume, c =>
    let heard := c.hear (script.notices c question)
    match script.reply? heard question with
    | none => (none, c)
    | some answer =>
        script.play (resume answer)
          (heard.note (.asked question answer))

variable
  {α : Type}
  {script : Script}
  {c : Course}

/- What is read back is what the slot holds. -/
theorem stored_of_readBack
    {room : Nat}
    {record : List UInt8}
    (hRead : readBack c room = .ok record) :
    c.stored = some record ∧ record.length ≤ room := by
  unfold readBack at hRead
  split at hRead
  · cases hRead
  · rename_i stored hStored
    split at hRead
    · cases hRead
      exact ⟨hStored, ‹_›⟩
    · cases hRead

/- A reply is truthful, and may be given on a board. -/
theorem reply?_eq_some
    {question : Question}
    {answer : Answer question}
    (hReply : script.reply? c question = some answer) :
    c.Truthful question answer ∧
      Setting.board c question answer := by
  cases question with
  | resetToSafeMode =>
      cases hReply
  | resetToNormalMode =>
      cases hReply
  | load room =>
      refine ⟨?_, trivial⟩
      rintro record rfl
      exact stored_of_readBack (Option.some.inj hReply)
  | takeCompletion =>
      exact ⟨(Option.some.inj hReply).symm, trivial⟩
  | takeDeactivation =>
      exact ⟨(Option.some.inj hReply).symm, trivial⟩
  | progress =>
      exact ⟨(Option.some.inj hReply).symm, trivial⟩
  | isSafeMode =>
      exact ⟨trivial, (Option.some.inj hReply).symm⟩
  | _ =>
      exact ⟨trivial, trivial⟩

/- In a setting, any answer of the script may be given. -/
def Suits
    (s : Setting)
    (script : Script) : Prop :=
  ∀ c question answer,
    script.reply? c question = some answer →
      s c question answer

theorem suits_board :
    script.Suits .board := by
  intro c question answer hReply
  exact (reply?_eq_some hReply).2

/- What is played is a course of the dialogue. -/
theorem Suits.play_leads
    {s : Setting}
    (hSuits : script.Suits s)
    (d : Dialogue Question Answer α)
    (c : Course) :
    d.Leads (Course.goes s) c (script.play d c).1
      (script.play d c).2 := by
  induction d generalizing c with
  | done result =>
      exact .done result c
  | ask question resume ih =>
      unfold play
      dsimp only
      split
      · exact .cut _ c
      · rename_i answer hReply
        have hTrue := reply?_eq_some hReply
        apply Dialogue.Leads.ask _ (ih answer _)
        exact ⟨_, hTrue.1, hSuits _ _ _ hReply, rfl⟩

end Script

end Update

open Update (Course Script Setting)

------------------------------------------------------------
-- Rehearsals
------------------------------------------------------------

namespace Life

/- What is done in a rehearsal: a boot, or a call. -/
inductive Act where
| boots (safeMode : Bool)
| calls (call : Updater.Call)

/- The moment after an act. -/
def Act.perform
    (script : Script)
    (l : Life) : Act → Life
| boots safeMode =>
    let slot := l.course.stored
    let updater := Updater.fresh .standard .standard
    let played :=
      script.play updater.init (.fresh slot safeMode)
    ⟨played.2, played.1⟩
| calls call =>
    match l.updater with
    | none => l
    | some u =>
        let played := script.play (call.carryOut u) l.course
        ⟨played.2, played.1⟩

/- The moment after some acts, on a device that was never used. -/
def rehearse
    (script : Script)
    (acts : List Act) : Life :=
  acts.foldl (Act.perform script) ⟨.fresh none false, none⟩

variable
  {script : Script}
  {l : Life}

theorem boots_perform
    (safeMode : Bool) :
    l.Boots .board (Act.perform script l (.boots safeMode)) :=
  ⟨_, safeMode, .standard, .standard, Or.inl rfl,
    Script.suits_board.play_leads _ _⟩

/- A call that is performed is one in each setting that it suits. -/
theorem calls_perform_of_suits
    {s : Setting}
    {u : Updater}
    (hSuits : script.Suits s)
    (call : Updater.Call)
    (hUpdater : l.updater = some u) :
    l.Calls s call (Act.perform script l (.calls call)) := by
  refine ⟨u, hUpdater, ?_⟩
  unfold Act.perform
  rw [hUpdater]
  exact hSuits.play_leads _ _

theorem calls_perform
    {u : Updater}
    (call : Updater.Call)
    (hUpdater : l.updater = some u) :
    l.Calls .board call (Act.perform script l (.calls call)) :=
  calls_perform_of_suits Script.suits_board call hUpdater

theorem Lived.perform
    (hLived : l.Lived .board)
    (act : Act) :
    (Act.perform script l act).Lived .board := by
  cases act with
  | boots safeMode =>
      exact hLived.boots (boots_perform safeMode)
  | calls call =>
      cases hUpdater : l.updater with
      | none =>
          unfold Act.perform
          rw [hUpdater]
          exact hLived
      | some u =>
          exact hLived.calls (calls_perform call hUpdater)

/- What is rehearsed is lived. -/
theorem lived_rehearse
    (script : Script)
    (acts : List Act) :
    (rehearse script acts).Lived .board := by
  have hAll :
      ∀ l : Life, l.Lived .board →
        (acts.foldl (Act.perform script) l).Lived .board := by
    induction acts with
    | nil =>
        intro l hLived
        exact hLived
    | cons act acts ih =>
        intro l hLived
        exact ih _ (hLived.perform act)
  apply hAll
  apply Lived.unused
  intro record hMem
  cases hMem

end Life

------------------------------------------------------------
-- A Smooth Run
------------------------------------------------------------

namespace Update.Script

/- A modem that does what it is told until its install begins. -/
def willing : Command → Reply
| .attention => ⟨.timeout, []⟩
| .identify => ⟨.ok, ["02.06,A00.01"]⟩
| .operator => ⟨.ok, ["+COPS: 0,0,\"Carrier\",7"]⟩
| .contextStatus _ => ⟨.ok, ["+UPSND: 0,8,1"]⟩
| _ => ⟨.ok, []⟩

/- The notice that the known image was downloaded. -/
def downloaded : String :=
  "+UUHTTPCR: 0,100,1,200,\"" ++ UpgradePath.knownDigest ++
    "\""

/-
  In a smooth run nobody stands in the way of the updater, and
  there is much time between any two questions.
-/
def smooth : Script where
  notices
  | _, .takeCompletion => [downloaded]
  | _, _ => []
  answer c
  | .hearNotices => ()
  | .command command => willing command
  | .takeCompletion => none
  | .clearCompletion => ()
  | .takeDeactivation => none
  | .progress => none
  | .clearProgress => ()
  | .networkOn => .ok ()
  | .networkOff => .ok ()
  | .networkConnect => .ok ()
  | .networkDisconnect _ => .ok ()
  | .isNetworkReady => false
  | .networkPower => .on
  | .setUpdateMode _ => ()
  | .isCloudConnected => true
  | .connectCloud => ()
  | .disconnectCloud => ()
  | .publish _ => true
  | .isFeatureEnabled => true
  | .now => .ofNat (1000000 * c.past.length)
  | .delay _ => ()
  | .modemFamily => .saraR510
  | .areUpdatesEnabled => true
  | .isSafeMode => true
  | .resetToSafeMode => ()
  | .resetToNormalMode => ()
  | .load _ => .error .notFound
  | .store _ => .ok ()
  | .count _ => ()
  | .showStatus _ => ()

end Update.Script

namespace Life

/- A run that is asked for in normal mode, up to its reset. -/
def qualified
    (ticks : Nat) : Life :=
  rehearse .smooth
    ([.boots false, .calls .enableUpdates] ++
      List.replicate ticks (.calls .tick))

/- The run that was offered, some ticks after the reset. -/
def smooth : Nat → Life
| 0 => Act.perform .smooth (qualified 2) (.boots true)
| ticks + 1 =>
    Act.perform .smooth (smooth ticks) (.calls .tick)

theorem lived_smooth
    (ticks : Nat) :
    (smooth ticks).Lived .board := by
  induction ticks with
  | zero =>
      exact (lived_rehearse _ _).perform _
  | succ ticks ih =>
      exact ih.perform _

end Life

end Fota
