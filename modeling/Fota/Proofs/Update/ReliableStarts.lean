import Fota.Proofs.Update.Record
import Fota.Proofs.Update.Rehearsal

/-
  This file defines boards with a flash that works, and shows
  how the updater starts on them. It takes the stored checkpoint
  up. If that of a finished run is found in normal mode, its
  status is shown and the run is put to rest; otherwise nothing
  is shown or stored.

  Key definitions include:
    * `Update.Setting.reliable`
    * `Update.Course.shown?`
    * `Checkpoint.Quiet`
    * `Update.Course.Told`

  The main statements are `Updater.always_init_quiet`,
  `Updater.always_init_reports` and `Updater.answered_init`.
-/

namespace Fota

open Update (Course Question Setting Talk)

------------------------------------------------------------
-- Reliable Boards
------------------------------------------------------------

namespace Update

/-
  The setting of a board with a flash that works: a record can
  be loaded if there is one that fits, and can be stored.
-/
def Setting.reliable : Setting
| c, .load room, answer =>
    ∀ record ∈ c.stored, record.length ≤ room →
      answer = .ok record
| _, .store _, answer => answer = .ok ()
| c, question, answer => Setting.board c question answer

namespace Happening

/- What becomes of what telemetry was told to show. -/
def onShown : Happening → Option Status → Option Status
| asked (.showStatus status) _, _ => some status
| _, shown => shown

/- Only showing a status changes it. -/
theorem onShown_asked
    {question : Question}
    (answer : Answer question)
    (shown : Option Status)
    (hQuestion : ∀ status, question ≠ .showStatus status) :
    (asked question answer).onShown shown = shown := by
  cases question with
  | showStatus status =>
      exact absurd rfl (hQuestion status)
  | _ =>
      rfl

end Happening

namespace Course

/- What telemetry was told to show in this boot, if anything. -/
def shown?
    (c : Course) : Option Status :=
  c.past.foldl (fun shown happening => happening.onShown shown)
    none

@[simp]
theorem shown?_hear
    (lines : List String)
    (c : Course) :
    (c.hear lines).shown? = c.shown? :=
  foldl_hear (fun _ _ => rfl) _ lines c

@[simp]
theorem shown?_note
    (happening : Happening)
    (c : Course) :
    (c.note happening).shown? =
      happening.onShown c.shown? := by
  simp [shown?, note]

variable
  {s : Setting}
  {c c' : Course}

theorem shown?_of_goes
    {question : Question}
    {answer : Answer question}
    (hGoes : goes s c question answer c')
    (hQuestion : ∀ status, question ≠ .showStatus status) :
    c'.shown? = c.shown? := by
  rcases hGoes with ⟨lines, hTruthful, hAllowed, hNext⟩
  rw [hNext, shown?_note, shown?_hear,
    Happening.onShown_asked answer _ hQuestion]

theorem shown?_of_show
    {status : Status}
    (hGoes : goes s c (.showStatus status) () c') :
    c'.shown? = some status := by
  rcases hGoes with ⟨lines, hTruthful, hAllowed, hNext⟩
  rw [hNext, shown?_note]
  rfl

/- On a reliable board, what is to be stored is stored. -/
theorem stored_of_reliable_store
    {record : List UInt8}
    {answer : Answer (.store record)}
    (hGoes : goes .reliable c (.store record) answer c') :
    c'.stored = some record ∧
      .asked (.store record) (.ok ()) ∈ c'.past := by
  rcases hGoes with ⟨lines, hTruthful, hAllowed, hNext⟩
  cases hAllowed
  rw [hNext]
  constructor
  · rw [stored_note]
    rfl
  · simp [note]

/- On a reliable board, what is stored is loaded. -/
theorem answer_of_reliable_load
    {record : List UInt8}
    {room : Nat}
    {answer : Answer (.load room)}
    (hGoes : goes .reliable c (.load room) answer c')
    (hStored : c.stored = some record)
    (hFits : record.length ≤ room) :
    answer = .ok record := by
  rcases hGoes with ⟨lines, hTruthful, hAllowed, hNext⟩
  apply hAllowed record _ hFits
  rw [stored_hear, hStored]
  rfl

/- The boot mode is told as it is. -/
theorem answer_of_reliable_mode
    {safeMode : Bool}
    (hGoes : goes .reliable c .isSafeMode safeMode c') :
    safeMode = c.safeMode := by
  rcases hGoes with ⟨lines, hTruthful, hAllowed, hNext⟩
  exact hAllowed

end Course

/- A script in which each record is stored suits such a board. -/
theorem Script.suits_reliable
    {script : Script}
    (hStore : ∀ c record,
      script.answer c (.store record) = .ok ()) :
    script.Suits .reliable := by
  intro c question answer hReply
  cases question with
  | load room =>
      intro record hMem hFits
      have hRead := Option.some.inj hReply
      unfold readBack at hRead
      rw [Option.mem_def.mp hMem] at hRead
      simp only [if_pos hFits] at hRead
      exact hRead.symm
  | store record =>
      exact (Option.some.inj hReply).symm.trans (hStore c record)
  | _ =>
      exact (reply?_eq_some hReply).2

/- Such a board answers whatever does not ask for a reset. -/
theorem Course.exists_goes
    {question : Question}
    (hSafe : question ≠ .resetToSafeMode)
    (hNormal : question ≠ .resetToNormalMode)
    (c : Course) :
    ∃ answer c', goes .reliable c question answer c' := by
  have hReply :
      ∃ answer,
        Script.smooth.reply? (c.hear []) question =
          some answer := by
    cases question with
    | resetToSafeMode => exact absurd rfl hSafe
    | resetToNormalMode => exact absurd rfl hNormal
    | _ => exact ⟨_, rfl⟩
  rcases hReply with ⟨answer, hReply⟩
  have hTruthful := (Script.reply?_eq_some hReply).1
  have hAllowed :=
    Script.suits_reliable (fun _ _ => rfl) _ _ _ hReply
  exact ⟨answer, _, [], hTruthful, hAllowed, rfl⟩

end Update

------------------------------------------------------------
-- Starts
------------------------------------------------------------

/- There is nothing that a start in the mode would report. -/
def Checkpoint.Quiet
    (safeMode : Bool)
    (c : Checkpoint) : Prop :=
  c.stage = .idle ∨ c.stage = .finishedIdle ∧ safeMode = true

namespace Update.Course

/- Nothing was stored since the slot was found at the start. -/
structure Unwritten
    (slot : Option (List UInt8))
    (c : Course) : Prop where
  stored : c.stored = slot
  silent : ∀ record answer,
    .asked (.store record) answer ∉ c.past

/- Nothing was stored and no status was shown. -/
structure Untouched
    (slot : Option (List UInt8))
    (c : Course) : Prop extends Unwritten slot c where
  shown : c.shown? = none

/- The status of a run was shown, and the run put to rest. -/
structure Told
    (finished : Checkpoint)
    (c : Course) : Prop where
  stored :
    c.stored = some (Record.encode (Updater.atRest finished))
  written : ∃ record, .asked (.store record) (.ok ()) ∈ c.past
  shown : c.shown? = some finished.status

variable
  {s : Setting}
  {slot : Option (List UInt8)}
  {c c' : Course}
  {question : Question}
  {answer : Answer question}

theorem untouched_fresh
    (safeMode : Bool) :
    (fresh slot safeMode).Untouched slot := by
  refine ⟨⟨rfl, ?_⟩, rfl⟩
  intro record answer hMem
  cases hMem

theorem Unwritten.goes
    (hUnwritten : c.Unwritten slot)
    (hStore : ∀ record, question ≠ .store record)
    (hGoes : goes s c question answer c') :
    c'.Unwritten slot := by
  refine
    ⟨(stored_of_goes hGoes hStore).trans hUnwritten.stored, ?_⟩
  intro record answer' hMem
  rcases (asked_of_goes hGoes).mp hMem with hMem | hEq
  · exact hUnwritten.silent record answer' hMem
  · cases hEq
    exact hStore record rfl

theorem Untouched.goes
    (hUntouched : c.Untouched slot)
    (hStore : ∀ record, question ≠ .store record)
    (hShow : ∀ status, question ≠ .showStatus status)
    (hGoes : goes s c question answer c') :
    c'.Untouched slot :=
  ⟨hUntouched.toUnwritten.goes hStore hGoes,
    (shown?_of_goes hGoes hShow).trans
      hUntouched.shown⟩

/- A start is told the mode of the boot and what is stored. -/
theorem told_at_start
    {stored : Checkpoint}
    {safeMode mode : Bool}
    {c₁ c₂ : Course}
    {loaded : Answer (.load Record.size)}
    (hAsked :
      goes .reliable
        (.fresh (some (Record.encode stored)) safeMode)
        .isSafeMode mode c₁)
    (hLoaded :
      goes .reliable c₁ (.load Record.size) loaded c₂) :
    mode = safeMode ∧ loaded = .ok (Record.encode stored) := by
  have hStored : c₁.stored = some (Record.encode stored) :=
    stored_of_goes hAsked (by simp)
  exact
    ⟨answer_of_reliable_mode hAsked,
      answer_of_reliable_load hLoaded hStored
        (Nat.le_of_eq (Record.length_encode stored))⟩

end Update.Course

namespace Updater

variable
  {safe : Course → Prop}
  {post : Updater → Course → Prop}
  {u : Updater}
  {stored : Checkpoint}
  {safeMode : Bool}

/-
  A start on a reliable board takes the stored checkpoint up,
  and has touched nothing before.
-/
theorem always_init_of_record
    (hSafe : ∀ c : Course,
      c.Untouched (some (Record.encode stored)) → safe c)
    (hResume : ∀ c : Course,
      c.Untouched (some (Record.encode stored)) →
        ({ u with started := true }.resume safeMode
          stored).Always (Course.goes .reliable) safe
            (fun (next : Updater) c =>
              post
                { next with cooldown := none, time := .fresh }
                c)
            c) :
    u.init.Always (Course.goes .reliable) safe post
      (.fresh (some (Record.encode stored)) safeMode) := by
  unfold init loadCheckpoint
  simp only [Talk.isSafeMode, Talk.load, Dialogue.ask_bind,
    Dialogue.done_bind, Dialogue.always_ask,
    Dialogue.always_bind]
  intro mode c₁ hAsked
  have hFresh₁ :=
    (Course.untouched_fresh safeMode).goes (by simp) (by simp)
      hAsked
  refine ⟨hSafe c₁ hFresh₁, ?_⟩
  intro loaded c₂ hLoaded
  have hFresh₂ := hFresh₁.goes (by simp) (by simp) hLoaded
  refine ⟨hSafe c₂ hFresh₂, ?_⟩
  rcases Course.told_at_start hAsked hLoaded with ⟨rfl, rfl⟩
  simp only [Dialogue.pure_eq_done, Dialogue.always_done,
    Record.decode?_encode, Dialogue.always_bind]
  exact hResume c₂ hFresh₂

/- A start that finds nothing to report touches nothing. -/
theorem always_init_quiet
    (hQuiet : stored.Quiet safeMode) :
    u.init.Always (Course.goes .reliable)
      (Course.Untouched (some (Record.encode stored)))
      (fun next _ => next.stage = .idle ∧ next.shown = u.shown)
      (.fresh (some (Record.encode stored)) safeMode) := by
  apply always_init_of_record (fun _ hFresh => hFresh)
  intro c hFresh
  unfold resume
  rcases hQuiet with hIdle | ⟨hFinished, hMode⟩
  · cases safeMode with
    | true =>
        simp [hIdle]
        exact hIdle
    | false =>
        simp [hIdle]
        rfl
  · simp [hFinished, hMode]
    rfl

/- A start in normal mode reports a run that is finished. -/
theorem always_init_reports
    (hStored : stored.stage = .finishedIdle) :
    u.init.Always (Course.goes .reliable)
      (fun c =>
        c.Unwritten (some (Record.encode stored)) ∨
          c.Told stored)
      (fun next c =>
        next.checkpoint = atRest stored ∧
          next.shown = stored.status ∧ c.Told stored)
      (.fresh (some (Record.encode stored)) false) := by
  apply always_init_of_record
    (fun _ hFresh => .inl hFresh.toUnwritten)
  intro c hFresh
  unfold resume Updater.show persist
  simp only [if_pos hStored, Talk.showStatus, Talk.store,
    Bool.false_eq_true, if_false, Dialogue.pure_eq_done,
    Dialogue.ask_bind, Dialogue.done_bind,
    Dialogue.always_ask, Dialogue.always_done]
  intro _ c₁ hShown
  have hUnwritten₁ :=
    hFresh.toUnwritten.goes (by simp) hShown
  refine ⟨.inl hUnwritten₁, ?_⟩
  intro answer c₂ hWritten
  have hStored₂ := Course.stored_of_reliable_store hWritten
  have hTold : c₂.Told stored := by
    refine ⟨hStored₂.1, ⟨_, hStored₂.2⟩, ?_⟩
    rw [Course.shown?_of_goes hWritten (by simp)]
    exact Course.shown?_of_show hShown
  exact ⟨.inr hTold, trivial, trivial, hTold⟩

/- A start in normal mode takes up a record without a reset. -/
theorem answered_init
    (hStored :
      stored.stage = .idle ∨ stored.stage = .finishedIdle) :
    u.init.Answered (Course.goes .reliable)
      (.fresh (some (Record.encode stored)) false) := by
  unfold init loadCheckpoint
  simp only [Talk.isSafeMode, Talk.load, Dialogue.ask_bind,
    Dialogue.done_bind, Dialogue.answered_ask]
  refine ⟨Course.exists_goes (by simp) (by simp) _, ?_⟩
  intro mode c₁ hAsked
  refine ⟨Course.exists_goes (by simp) (by simp) _, ?_⟩
  intro loaded c₂ hLoaded
  rcases Course.told_at_start hAsked hLoaded with ⟨rfl, rfl⟩
  simp only [Dialogue.pure_eq_done, Dialogue.done_bind,
    Record.decode?_encode]
  unfold resume Updater.show persist
  rcases hStored with hIdle | hFinished
  · simp [hIdle]
  · simp only [hFinished, if_true, Bool.false_eq_true, if_false,
      Talk.showStatus, Talk.store, Dialogue.pure_eq_done,
      Dialogue.ask_bind, Dialogue.done_bind,
      Dialogue.answered_ask, Dialogue.answered_done,
      implies_true, and_true]
    refine ⟨Course.exists_goes (by simp) (by simp) _, ?_⟩
    intro _ c₃ hShown
    exact Course.exists_goes (by simp) (by simp) _

end Updater

end Fota
