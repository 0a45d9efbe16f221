import Fota.Modem.Mailbox
import Fota.Proofs.Dialogue.Courses
import Fota.Update.Tick

/-
  This file defines the life of a device as its updater sees it:
  boots, each begun by a start of the updater and ended by a
  loss of power or a reset at any moment, and in each boot any
  calls of the updater, with whatever its surroundings answer.
  Only the mailbox and the flash slot are held to the truth.

  Key definitions include:
    * `Update.Happening`
    * `Update.Course`
    * `Update.Setting`
    * `Update.Course.goes`
    * `Updater.Call`
    * `Life`
    * `Life.Boots`
    * `Life.Calls`
    * `Life.Lived`

  The main statement, `Life.Lived.invariant`, is the induction
  over lives: what holds when the updater has started and is
  kept by each call holds between any two calls.
-/

namespace Fota

namespace Update

------------------------------------------------------------
-- Happenings
------------------------------------------------------------

/-
  What happens during a boot: a notice reaches the mailbox, or
  the updater asks a question and is answered.
-/
inductive Happening where
| notice (line : String)
| asked (question : Question) (answer : Answer question)

namespace Happening

/- What becomes of the mailbox. -/
def onMailbox : Happening → Mailbox → Mailbox
| notice line, m => (m.deliver line).2
| asked .takeCompletion _, m => m.takeCompletion.2
| asked .clearCompletion _, m => m.clearCompletion
| asked .takeDeactivation _, m => m.takeDeactivation.2
| asked .clearProgress _, m => m.clearProgress
| _, m => m

/- What becomes of the slot: a write that fails leaves it. -/
def onSlot :
    Happening → Option (List UInt8) → Option (List UInt8)
| asked (.store record) (.ok ()), _ => some record
| _, slot => slot

/- What becomes of the update mode of the cellular link. -/
def onMode : Happening → Bool → Bool
| asked (.setUpdateMode enabled) _, _ => enabled
| _, mode => mode

end Happening

------------------------------------------------------------
-- Courses of a Boot
------------------------------------------------------------

/-
  The course of a boot: what the flash slot held at its start,
  whether the device is in safe mode, and what has happened
  since, in order.
-/
structure Course where
  slot : Option (List UInt8)
  safeMode : Bool
  past : List Happening

/- A slot without a valid record. -/
def Unreadable
    (slot : Option (List UInt8)) : Prop :=
  ∀ record ∈ slot, Record.decode? record = none

namespace Course

/- The course of a boot in which nothing has happened yet. -/
def fresh
    (slot : Option (List UInt8))
    (safeMode : Bool) : Course where
  slot := slot
  safeMode := safeMode
  past := []

/- Note what happens next. -/
def note
    (happening : Happening)
    (c : Course) : Course :=
  { c with past := c.past ++ [happening] }

/- Let notices reach the mailbox. -/
def hear
    (lines : List String)
    (c : Course) : Course :=
  { c with past := c.past ++ lines.map .notice }

/- The mailbox; it is empty at the start of a boot. -/
def mailbox
    (c : Course) : Mailbox :=
  c.past.foldl (fun m happening => happening.onMailbox m) .empty

/- What the flash slot holds. -/
def stored
    (c : Course) : Option (List UInt8) :=
  c.past.foldl (fun slot happening => happening.onSlot slot)
    c.slot

/- The update mode; it is off at the start of a boot. -/
def updateMode
    (c : Course) : Bool :=
  c.past.foldl (fun mode happening => happening.onMode mode)
    false

/-
  An answer is truthful when it reports what the mailbox holds
  and, if a record could be loaded, what the slot holds.
-/
def Truthful
    (c : Course) :
    (question : Question) → Answer question → Prop
| .takeCompletion, answer => answer = c.mailbox.completion
| .takeDeactivation, answer => answer = c.mailbox.deactivation
| .progress, answer => answer = c.mailbox.progress
| .load room, answer =>
    ∀ record, answer = .ok record →
      c.stored = some record ∧ record.length ≤ room
| _, _ => True

end Course

------------------------------------------------------------
-- Settings
------------------------------------------------------------

/-
  A setting says what the surroundings may answer beyond being
  truthful.
-/
abbrev Setting :=
  Course → (question : Question) → Answer question → Prop

/- The setting in which any answer may be given. -/
def Setting.free : Setting :=
  fun _ _ _ => True

/-
  The setting of a board: the boot mode stays as it is, and a
  reset that is asked for never answers.
-/
def Setting.board : Setting
| c, .isSafeMode, answer => answer = c.safeMode
| _, .resetToSafeMode, _ => False
| _, .resetToNormalMode, _ => False
| _, _, _ => True

/-
  The surroundings of an updater: some notices arrive, and then
  the question is answered.
-/
def Course.goes
    (s : Setting) :
    Dialogue.Surroundings Question Answer Course :=
  fun c question answer c' =>
    ∃ lines,
      (c.hear lines).Truthful question answer ∧
        s (c.hear lines) question answer ∧
        c' = (c.hear lines).note (.asked question answer)

------------------------------------------------------------
-- Steps of a Course
------------------------------------------------------------

namespace Happening

/- Only storing a record changes the slot. -/
theorem onSlot_asked
    {question : Question}
    (answer : Answer question)
    (slot : Option (List UInt8))
    (hQuestion : ∀ record, question ≠ .store record) :
    (asked question answer).onSlot slot = slot := by
  cases question with
  | store record =>
      exact absurd rfl (hQuestion record)
  | _ =>
      rfl

/- Only setting the update mode changes it. -/
theorem onMode_asked
    {question : Question}
    (answer : Answer question)
    (mode : Bool)
    (hQuestion : ∀ enabled, question ≠ .setUpdateMode enabled) :
    (asked question answer).onMode mode = mode := by
  cases question with
  | setUpdateMode enabled =>
      exact absurd rfl (hQuestion enabled)
  | _ =>
      rfl

end Happening

namespace Course

/- What does not heed the notices is the same after some. -/
theorem foldl_hear
    {β : Type}
    {f : β → Happening → β}
    (hNotice : ∀ b line, f b (.notice line) = b)
    (b : β)
    (lines : List String)
    (c : Course) :
    (c.hear lines).past.foldl f b = c.past.foldl f b := by
  unfold hear
  rw [List.foldl_append]
  induction lines with
  | nil =>
      rfl
  | cons line lines ih =>
      rw [List.map_cons, List.foldl_cons, hNotice]
      exact ih

@[simp]
theorem stored_hear
    (lines : List String)
    (c : Course) :
    (c.hear lines).stored = c.stored :=
  foldl_hear (fun _ _ => rfl) _ lines c

@[simp]
theorem updateMode_hear
    (lines : List String)
    (c : Course) :
    (c.hear lines).updateMode = c.updateMode :=
  foldl_hear (fun _ _ => rfl) _ lines c

@[simp]
theorem stored_note
    (happening : Happening)
    (c : Course) :
    (c.note happening).stored = happening.onSlot c.stored := by
  simp [stored, note]

@[simp]
theorem updateMode_note
    (happening : Happening)
    (c : Course) :
    (c.note happening).updateMode =
      happening.onMode c.updateMode := by
  simp [updateMode, note]

variable
  {s : Setting}
  {c c' : Course}
  {question : Question}
  {answer : Answer question}

/- What happens on the way is added to the past. -/
theorem past_of_goes
    (hGoes : goes s c question answer c') :
    ∃ lines : List String,
      c'.past =
        c.past ++ lines.map .notice ++
          [.asked question answer] := by
  rcases hGoes with ⟨lines, hTruthful, hAllowed, hNext⟩
  exact ⟨lines, by rw [hNext]; rfl⟩

/- What was asked before, or is asked now, is in the past. -/
theorem asked_of_goes
    {other : Question}
    {answer' : Answer other}
    (hGoes : goes s c question answer c') :
    .asked other answer' ∈ c'.past ↔
      .asked other answer' ∈ c.past ∨
        Happening.asked other answer' =
          .asked question answer := by
  rcases past_of_goes hGoes with ⟨lines, hPast⟩
  rw [hPast]
  simp

theorem safeMode_of_goes
    (hGoes : goes s c question answer c') :
    c'.safeMode = c.safeMode := by
  rcases hGoes with ⟨lines, hTruthful, hAllowed, hNext⟩
  rw [hNext]
  rfl

theorem stored_of_goes
    (hGoes : goes s c question answer c')
    (hQuestion : ∀ record, question ≠ .store record) :
    c'.stored = c.stored := by
  rcases hGoes with ⟨lines, hTruthful, hAllowed, hNext⟩
  rw [hNext, stored_note, stored_hear,
    Happening.onSlot_asked answer _ hQuestion]

theorem updateMode_of_goes
    (hGoes : goes s c question answer c')
    (hQuestion : ∀ enabled, question ≠ .setUpdateMode enabled) :
    c'.updateMode = c.updateMode := by
  rcases hGoes with ⟨lines, hTruthful, hAllowed, hNext⟩
  rw [hNext, updateMode_note, updateMode_hear,
    Happening.onMode_asked answer _ hQuestion]

/- A record that is to be stored is stored, or nothing changes. -/
theorem stored_of_store
    {record : List UInt8}
    {answer : Answer (.store record)}
    (hGoes : goes s c (.store record) answer c') :
    c'.stored = c.stored ∨ c'.stored = some record := by
  rcases hGoes with ⟨lines, hTruthful, hAllowed, hNext⟩
  rw [hNext, stored_note, stored_hear]
  cases answer with
  | ok done =>
      right
      rfl
  | error fault =>
      left
      rfl

/- A record that was loaded is the one that is stored. -/
theorem stored_of_load
    {room : Nat}
    {record : List UInt8}
    (hGoes : goes s c (.load room) (.ok record) c') :
    c.stored = some record := by
  rcases hGoes with ⟨lines, hTruthful, hAllowed, hNext⟩
  have hStored := (hTruthful record rfl).1
  rw [stored_hear] at hStored
  exact hStored

end Course

end Update

open Update (Course Setting Talk Unreadable)

------------------------------------------------------------
-- Calls
------------------------------------------------------------

namespace Updater

/- What the firmware may call an updater for during a boot. -/
inductive Call where
| checkUpdate (path : UpgradePath)
| setPath (path : Option UpgradePath)
| enableUpdates
| tick

/- The dialogue of a call; it may be refused. -/
def Call.talk
    (call : Call)
    (u : Updater) : Talk (Except Fault Updater) :=
  match call with
  | .checkUpdate path => u.checkUpdate path
  | .setPath path => return u.setPath path
  | .enableUpdates => u.enableUpdates
  | .tick => u.tick

/- Carry a call out; one that is refused changes nothing. -/
def Call.carryOut
    (call : Call)
    (u : Updater) : Talk Updater := do
  match ← call.talk u with
  | .ok u => return u
  | .error _ => return u

end Updater

------------------------------------------------------------
-- Lives
------------------------------------------------------------

/-
  A moment in the life of a device: the course of its boot so
  far and the updater, unless the firmware was cut off.
-/
structure Life where
  course : Course
  updater : Option Updater

namespace Life

/- The slot survives the end of a boot, or is left unreadable. -/
def Survives
    (slot slot' : Option (List UInt8)) : Prop :=
  slot' = slot ∨ Unreadable slot'

/-
  A boot, in either mode and with any tuning, may begin at any
  moment. It ends in the start of the updater, or is cut off.
-/
def Boots
    (s : Setting)
    (l l' : Life) : Prop :=
  ∃ slot safeMode policy server,
    Survives l.course.stored slot ∧
      (Updater.fresh policy server).init.Leads (Course.goes s)
        (.fresh slot safeMode) l'.updater l'.course

/- A call of the updater during a boot, which may be cut off. -/
def Calls
    (s : Setting)
    (call : Updater.Call)
    (l l' : Life) : Prop :=
  ∃ u ∈ l.updater,
    (call.carryOut u).Leads (Course.goes s)
      l.course l'.updater l'.course

/- The moments of a device that began without a valid record. -/
inductive Lived
    (s : Setting) : Life → Prop where
| unused
    (slot : Option (List UInt8))
    (safeMode : Bool)
    (hSlot : Unreadable slot) :
    Lived s ⟨.fresh slot safeMode, none⟩
| boots
    {l l' : Life}
    (hLived : Lived s l)
    (hBoots : Boots s l l') :
    Lived s l'
| calls
    {l l' : Life}
    {call : Updater.Call}
    (hLived : Lived s l)
    (hCalls : Calls s call l l') :
    Lived s l'

variable
  {s : Setting}
  {l l' : Life}

/- A course in any setting is one in the free setting. -/
theorem leads_free
    {α : Type}
    {talk : Talk α}
    {c c' : Course}
    {result : Option α}
    (hLeads : talk.Leads (Course.goes s) c result c') :
    talk.Leads (Course.goes .free) c result c' := by
  apply hLeads.mono
  rintro w question answer w' ⟨lines, hTruthful, _, hNext⟩
  exact ⟨lines, hTruthful, trivial, hNext⟩

theorem Boots.free
    (hBoots : l.Boots s l') :
    l.Boots .free l' := by
  rcases hBoots with
    ⟨slot, safeMode, policy, server, hSurvives, hLeads⟩
  exact
    ⟨slot, safeMode, policy, server, hSurvives,
      leads_free hLeads⟩

theorem Calls.free
    {call : Updater.Call}
    (hCalls : l.Calls s call l') :
    l.Calls .free call l' := by
  rcases hCalls with ⟨u, hMem, hLeads⟩
  exact ⟨u, hMem, leads_free hLeads⟩

/- What is lived in any setting is lived in the free one. -/
theorem Lived.free
    (hLived : l.Lived s) :
    l.Lived .free := by
  induction hLived with
  | unused slot safeMode hSlot =>
      exact .unused slot safeMode hSlot
  | boots _ hBoots ih =>
      exact ih.boots hBoots.free
  | calls _ hCalls ih =>
      exact ih.calls hCalls.free

/-
  Induction over lives. `safe` holds of every course, also of
  one that is cut off; `inv` ties the updater to the course
  between calls.
-/
theorem Lived.invariant
    (safe : Course → Prop)
    (inv : Updater → Course → Prop)
    (hUnused : ∀ slot safeMode, Unreadable slot →
      safe (.fresh slot safeMode))
    (hBoot : ∀ (l : Life) slot safeMode policy server,
      l.Lived s → safe l.course →
      Survives l.course.stored slot →
        safe (.fresh slot safeMode) ∧
          (Updater.fresh policy server).init.Always
            (Course.goes s) safe inv (.fresh slot safeMode))
    (hCall : ∀ (call : Updater.Call) u c, safe c → inv u c →
      (call.carryOut u).Always (Course.goes s) safe inv c)
    (hLived : l.Lived s) :
    safe l.course ∧ ∀ u ∈ l.updater, inv u l.course := by
  induction hLived with
  | unused slot safeMode hSlot =>
      refine ⟨hUnused slot safeMode hSlot, ?_⟩
      intro u hMem
      cases hMem
  | boots hLived hBoots ih =>
      rcases hBoots with
        ⟨slot, safeMode, policy, server, hSurvives, hLeads⟩
      have hStart :=
        hBoot _ slot safeMode policy server hLived ih.1
          hSurvives
      exact hLeads.of_always hStart.2 hStart.1
  | @calls _ _ call hLived hCalls ih =>
      rcases hCalls with ⟨u, hMem, hLeads⟩
      have hAlways := hCall call u _ ih.1 (ih.2 u hMem)
      exact hLeads.of_always hAlways ih.1

end Life

end Fota
