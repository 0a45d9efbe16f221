import Fota.Proofs.Update.Consistency
import Mathlib.Logic.Relation

/-
  This file shows that an updater does risky work in safe mode
  only, given that a reset which it asks for ends the boot. In
  normal mode it finds out whether there is something to do and
  touches nothing but the power and the version of the modem.

  Key definitions include:
    * `Stage.qualifying`
    * `Update.Question.Harmless`
    * `Life.Qualifies`

  The main statement is `Life.risks_in_safe_mode`.
-/

namespace Fota

open Update (Answer Course Question Setting Talk)

------------------------------------------------------------
-- Harmless Questions
------------------------------------------------------------

/- The stages of rest and qualification. -/
def Stage.qualifying : List Stage :=
  [idle, qualifyFlags, qualifyModemOn, qualifyRetry]

namespace Update.Question

/-
  A harmless question sends no command but for the version,
  leaves the sessions with network and cloud alone, publishes
  nothing and neither powers the modem off nor takes it.
-/
def Harmless : Question → Prop
| .command sent => sent = .identify
| .connectCloud => False
| .disconnectCloud => False
| .publish _ => False
| .networkConnect => False
| .networkDisconnect _ => False
| .networkOff => False
| .setUpdateMode _ => False
| _ => True

end Update.Question

namespace Updater

variable
  {s : Setting}
  {J safe : Course → Prop}
  {post : Updater → Course → Prop}
  {u next : Updater}
  {c c₀ : Course}
  {now : Instant}
  {entered : Bool}

theorem harmless_of_quiet
    {question : Question}
    (hMem : question ∈ quietQuestions) :
    question.Harmless := by
  simp only [quietQuestions, requestQuestions, List.mem_cons,
    List.not_mem_nil, or_false] at hMem
  rcases hMem with
    rfl | rfl | rfl | rfl | rfl | rfl | rfl | rfl | rfl <;>
    trivial

theorem harmless_of_waking
    {slot : Option (List UInt8)}
    {question : Question}
    (hAsk : WakingAsks slot question) :
    question.Harmless := by
  rcases hAsk with hMem | ⟨stored, hHolds, hFinished, hMem⟩
  · simp only [List.mem_cons, List.not_mem_nil, or_false]
      at hMem
    rcases hMem with rfl | rfl | rfl | rfl <;> trivial
  · simp only [List.mem_cons, List.not_mem_nil, or_false]
      at hMem
    rcases hMem with rfl | rfl <;> trivial

/- A tick in rest or qualification asks harmless questions. -/
theorem harmless_of_mayAsk
    {question : Question}
    (hStage : u.stage ∈ Stage.qualifying)
    (hAsk : u.MayAsk entered u.stage question) :
    question.Harmless := by
  simp only [Stage.qualifying, List.mem_cons,
    List.not_mem_nil, or_false] at hStage
  rcases hStage with hStage | hStage | hStage | hStage <;>
    rw [hStage] at hAsk <;>
    simp only [MayAsk, List.mem_cons, List.not_mem_nil,
      or_false] at hAsk
  · rcases hAsk with rfl | rfl | rfl <;> trivial
  · rcases hAsk with rfl | rfl | rfl | rfl | rfl | rfl <;>
      trivial
  · rcases hAsk with hAsk | ⟨version, offer, hVersion, hOffer⟩
    · rcases hAsk with rfl | rfl | rfl | rfl | rfl
      · trivial
      · rfl
      · trivial
      · trivial
      · trivial
    · rw [hOffer.2]
      trivial

------------------------------------------------------------
-- Qualification
------------------------------------------------------------

/- Store the run that is offered and go on in safe mode. -/
def follow
    (offer : Updater) : Talk Updater := do
  offer.persist
  if ← Talk.isSafeMode then
    return offer.moveTo .setupCloudConnect
  else
    Talk.resetToSafeMode
    return offer

/-
  Looking for the version stays in qualification or goes back to
  rest, but for a run that is offered.
-/
theorem always_qualifyModemOn
    (hKept : ∀ c question answer c',
      question = .networkPower ∨
        question = .command .identify → J c →
      Course.goes s c question answer c' → J c')
    (hSafe : ∀ c, J c → safe c)
    (hStay : ∀ next c, next.stage ∈ Stage.qualifying → J c →
      post next c)
    (hOffer : ∀ version offer c,
      u.offered? version = some offer → J c →
      offer.follow.Always (Course.goes s) safe post c)
    (hStage : u.stage = .qualifyModemOn)
    (hStart : J c) :
    (u.qualifyModemOn now).Always (Course.goes s) safe post
      c := by
  have hRead :
      (Talk.carryOut Procedure.readVersion).Asks
        (fun question =>
          question = .networkPower ∨
            question = .command .identify) :=
    Talk.asks_readVersion (Or.inr rfl)
  unfold qualifyModemOn
  simp only [Talk.networkPower, Dialogue.ask_bind,
    Dialogue.done_bind, Dialogue.always_ask]
  intro power c₁ hPower
  have hJ₁ : J c₁ := hKept _ _ _ _ (Or.inl rfl) hStart hPower
  refine ⟨hSafe c₁ hJ₁, ?_⟩
  simp only [Dialogue.pure_eq_done, Dialogue.always_ite,
    Dialogue.always_done]
  constructor
  · intro hOn
    rw [Dialogue.always_bind]
    apply (Dialogue.always_of_asks hRead
      (Dialogue.yields_true _) hKept hJ₁).mono hSafe
    intro version c₂ hVersion
    rw [Dialogue.always_ite, Dialogue.always_done]
    constructor
    · intro hUnread
      exact hStay _ c₂ (by simp [Stage.qualifying]) hVersion.2
    · intro hFound
      rw [qualifyVersion_eq]
      cases hOffered : u.offered? version with
      | none =>
          simp only [Dialogue.pure_eq_done,
            Dialogue.always_done]
          exact hStay _ c₂ (by simp [Stage.qualifying]) hVersion.2
      | some offer =>
          exact hOffer version offer c₂ hOffered hVersion.2
  · intro hOff
    constructor
    · intro hLate
      exact hStay _ c₁ (by simp [Stage.qualifying]) hJ₁
    · intro hEarly
      exact hStay _ c₁ (by simp [Stage.qualifying, hStage]) hJ₁

/- A request leaves an updater at rest or in qualification. -/
theorem qualifying_of_requested
    (hStage : u.stage ∈ Stage.qualifying)
    (hNext : u.Requested next) :
    next.stage ∈ Stage.qualifying := by
  rcases hNext.spared.stage with hSame | ⟨_, hBegun⟩
  · rw [hSame]
    exact hStage
  · simp [hBegun, Stage.qualifying]

/- Only looking for the version leads out of qualification. -/
theorem qualifying_of_mayBecome
    (hStage : u.stage ∈ Stage.qualifying)
    (hModem : u.stage ≠ .qualifyModemOn)
    (hNext : u.MayBecome now entered u.stage next) :
    next.stage ∈ Stage.qualifying := by
  rcases edge_of_mayBecome hNext with hStay | hMove | hTaken
  · rw [hStay.1]
    exact hStage
  · have hMem := hMove.1
    simp only [Stage.qualifying, List.mem_cons,
      List.not_mem_nil, or_false] at hStage
    rcases hStage with hStage | hStage | hStage | hStage <;>
      rw [hStage] at hMem hModem
    · simp [Stage.successors] at hMem
    · simp only [Stage.successors, List.mem_cons,
        List.not_mem_nil, or_false] at hMem
      rcases hMem with hMem | hMem | hMem <;>
        simp [hMem, Stage.qualifying]
    · exact absurd rfl hModem
    · simp only [Stage.successors, List.mem_cons,
        List.not_mem_nil, or_false] at hMem
      rcases hMem with hMem | hMem <;>
        simp [hMem, Stage.qualifying]
  · exact absurd hTaken.1 hModem

/- But for looking for the version, qualification stores nothing. -/
theorem stores_nothing
    {question : Question}
    (hStage : u.stage ∈ Stage.qualifying)
    (hModem : u.stage ≠ .qualifyModemOn)
    (hAsk : u.MayAsk entered u.stage question)
    (record : List UInt8) :
    question ≠ .store record := by
  rintro rfl
  simp only [Stage.qualifying, List.mem_cons,
    List.not_mem_nil, or_false] at hStage
  rcases hStage with hStage | hStage | hStage | hStage
  · rw [hStage] at hAsk
    simp [MayAsk] at hAsk
  · rw [hStage] at hAsk
    simp [MayAsk] at hAsk
  · exact hModem hStage
  · rw [hStage] at hAsk
    exact hAsk

/- Working in qualification stays there, but for an offer. -/
theorem always_qualifying_work
    (hKept : ∀ c question answer c',
      question.Harmless →
      (∀ record, question ≠ .store record) → J c →
      Course.goes s c question answer c' → J c')
    (hSafe : ∀ c, J c → safe c)
    (hStay : ∀ next c, next.stage ∈ Stage.qualifying → J c →
      post next c)
    (hOffer : ∀ version offer c,
      u.offered? version = some offer → J c →
      offer.follow.Always (Course.goes s) safe post c)
    (hStage : u.stage ∈ Stage.qualifying)
    (hStart : J c) :
    (u.work now entered).Always (Course.goes s) safe post c := by
  by_cases hModem : u.stage = .qualifyModemOn
  · have hWork : u.work now entered = u.qualifyModemOn now := by
      unfold work
      rw [hModem]
    rw [hWork]
    apply always_qualifyModemOn _ hSafe hStay hOffer hModem
      hStart
    rintro c question answer c' (rfl | rfl)
    · apply hKept
      · trivial
      · simp
    · apply hKept
      · rfl
      · simp
  · have hQuiet :
        ∀ c question answer c',
          u.MayAsk entered u.stage question → J c →
          Course.goes s c question answer c' → J c' := by
      intro c question answer c' hAsk
      exact
        hKept _ _ _ _ (harmless_of_mayAsk hStage hAsk)
          (stores_nothing hStage hModem hAsk)
    apply (Dialogue.always_of_asks work_asks work_yields hQuiet
      hStart).mono hSafe
    intro next c hNext
    exact
      hStay next c
        (qualifying_of_mayBecome hStage hModem hNext.1) hNext.2

/- A call in qualification stays there, but for an offer. -/
theorem always_qualifying
    (call : Call)
    (hKept : ∀ c question answer c',
      question.Harmless →
      (∀ record, question ≠ .store record) → J c →
      Course.goes s c question answer c' → J c')
    (hSafe : ∀ c, J c → safe c)
    (hStay : ∀ next c, next.stage ∈ Stage.qualifying → J c →
      post next c)
    (hOffer : ∀ (offer : Updater) c,
      offer.stage = .setupCloudConnect → J c →
      offer.follow.Always (Course.goes s) safe post c)
    (hStage : u.stage ∈ Stage.qualifying)
    (hStart : J c) :
    (call.carryOut u).Always (Course.goes s) safe post c := by
  apply always_call call _ hSafe _ _ _ hStart
  · intro c question answer c' hMem
    apply hKept _ _ _ _ (harmless_of_quiet hMem)
    rintro record rfl
    simp [quietQuestions, requestQuestions] at hMem
  · intro next c hNext hJ
    exact hStay next c (qualifying_of_requested hStage hNext) hJ
  · intro cooldown c hJ
    exact hStay _ c hStage hJ
  · intro now c hJ
    have hEntering :
        (u.entering now).stage ∈ Stage.qualifying :=
      hStage
    apply always_qualifying_work hKept hSafe hStay _ hEntering
      hJ
    intro version offer c hOffered
    exact hOffer offer c (stage_offered hOffered)

------------------------------------------------------------
-- Normal Mode
------------------------------------------------------------

/- In a course in normal mode, only harmless questions are asked. -/
structure Tame
    (c : Course) : Prop where
  mode : c.safeMode = false
  harmless : ∀ question answer,
    .asked question answer ∈ c.past → question.Harmless

theorem Tame.goes
    {c' : Course}
    {question : Question}
    {answer : Answer question}
    (hTame : Tame c)
    (hQuestion : question.Harmless)
    (hGoes : Course.goes s c question answer c') :
    Tame c' := by
  refine ⟨(Course.safeMode_of_goes hGoes).trans hTame.mode, ?_⟩
  intro other answer' hMem
  rcases (Course.asked_of_goes hGoes).mp hMem with hMem | hEq
  · exact hTame.harmless other answer' hMem
  · cases hEq
    exact hQuestion

/- In normal mode, a run that is offered ends the boot. -/
theorem always_follow_tame
    {offer : Updater}
    (hTame : Tame c) :
    offer.follow.Always (Course.goes .board) Tame post c := by
  unfold follow persist
  simp only [Talk.store, Talk.isSafeMode, Talk.resetToSafeMode,
    Dialogue.pure_eq_done, Dialogue.ask_bind,
    Dialogue.done_bind, Dialogue.always_ask]
  intro _ c₁ hStored
  have hTame₁ := hTame.goes (by trivial) hStored
  refine ⟨hTame₁, ?_⟩
  intro safeMode c₂ hMode
  have hTame₂ := hTame₁.goes (by trivial) hMode
  refine ⟨hTame₂, ?_⟩
  have hNormal : safeMode = false := by
    rcases hMode with ⟨lines, hTruthful, hAllowed, hNext⟩
    exact hAllowed.trans hTame₁.mode
  rw [hNormal]
  simp only [Bool.false_eq_true, if_false, Dialogue.always_ask]
  intro _ c₃ hCounted
  refine ⟨hTame₂.goes (by trivial) hCounted, ?_⟩
  intro _ c₄ hReset
  rcases hReset with ⟨lines, hTruthful, hAllowed, hNext⟩
  exact hAllowed.elim

/- A start in normal mode leaves the updater at rest. -/
theorem always_tame_init
    {slot : Option (List UInt8)} :
    u.init.Always (Course.goes .board) Tame
      (fun next _ => next.stage ∈ Stage.qualifying)
      (.fresh slot false) := by
  have hKept :
      ∀ c question answer c',
        WakingAsks slot question → Tame c →
        Course.goes .board c question answer c' → Tame c' := by
    intro c question answer c' hAsk hTame hGoes
    exact hTame.goes (harmless_of_waking hAsk) hGoes
  have hStart : Tame (.fresh slot false) := by
    refine ⟨rfl, ?_⟩
    intro question answer hMem
    cases hMem
  apply (always_init hKept hStart).mono
  · intro c hTame
    exact hTame
  · intro next c hNext
    have hStage : next.checkpoint.stage = .idle := by
      rcases hNext.1.2 with hInitial | ⟨stored, hHolds, hWakes⟩
      · rw [hInitial]
        rfl
      · rcases hWakes with hRest | hSafe | hReset
        · rw [hRest.2]
          rfl
        · rcases hSafe.1 with ⟨c, hMode, hAnswer⟩
          exact absurd (hAnswer.trans hMode) (by simp)
        · rcases hReset.2.1 with ⟨c, hMode, hAnswer⟩
          exact hAnswer.elim
    change next.checkpoint.stage ∈ Stage.qualifying
    rw [hStage]
    simp [Stage.qualifying]

/- A call in normal mode stays in qualification. -/
theorem always_tame_call
    (call : Call)
    (hStage : u.stage ∈ Stage.qualifying)
    (hTame : Tame c) :
    (call.carryOut u).Always (Course.goes .board) Tame
      (fun next _ => next.stage ∈ Stage.qualifying) c := by
  apply always_qualifying call _ _ _ _ hStage hTame
  · intro c question answer c' hQuestion _ hTame hGoes
    exact hTame.goes hQuestion hGoes
  · intro c hTame
    exact hTame
  · intro next c hNext _
    exact hNext
  · intro offer c _ hTame
    exact always_follow_tame hTame

/- A call that ends in qualification has stored nothing. -/
theorem always_stored_call
    (call : Call)
    (hStage : u.stage ∈ Stage.qualifying) :
    (call.carryOut u).Always (Course.goes s) (fun _ => True)
      (fun next c' =>
        next.stage ∈ Stage.qualifying → c'.stored = c.stored)
      c := by
  have hKept :
      ∀ c' question answer c'', Question.Harmless question →
        (∀ record, question ≠ .store record) →
        c'.stored = c.stored →
        Course.goes s c' question answer c'' →
        c''.stored = c.stored := by
    intro c' question answer c'' _ hQuestion hStored hGoes
    exact (Course.stored_of_goes hGoes hQuestion).trans hStored
  apply always_qualifying call hKept _ _ _ hStage rfl
  · intro c' _
    trivial
  · intro next c' _ hStored _
    exact hStored
  · intro offer c' hOffer _
    have hOut : offer.stage ∉ Stage.qualifying := by
      rw [hOffer]
      simp [Stage.qualifying]
    unfold follow persist
    simp [Stage.qualifying, hOffer]

end Updater

------------------------------------------------------------
-- Lives
------------------------------------------------------------

namespace Life

/- A course in normal mode is tame. -/
def TameInNormalMode
    (c : Course) : Prop :=
  c.safeMode = false → Updater.Tame c

/- In normal mode, the updater is at rest or qualifies. -/
def QualifiesInNormalMode
    (u : Updater)
    (c : Course) : Prop :=
  c.safeMode = false → u.stage ∈ Stage.qualifying

theorem always_boot_normal
    {u : Updater}
    {slot : Option (List UInt8)}
    (safeMode : Bool) :
    u.init.Always (Course.goes .board) TameInNormalMode
      QualifiesInNormalMode (.fresh slot safeMode) := by
  cases safeMode with
  | false =>
      apply Updater.always_tame_init.mono
      · intro c hTame _
        exact hTame
      · intro next c hStage _
        exact hStage
  | true =>
      have hKept :
          ∀ c question answer c',
            Updater.WakingAsks slot question →
            c.safeMode = true →
            Course.goes .board c question answer c' →
            c'.safeMode = true := by
        intro c question answer c' _ hMode hGoes
        exact (Course.safeMode_of_goes hGoes).trans hMode
      apply (Updater.always_init hKept rfl).mono
      · intro c hMode hNormal
        rw [hMode] at hNormal
        cases hNormal
      · intro next c hNext hNormal
        rw [hNext.2] at hNormal
        cases hNormal

theorem always_call_normal
    {u : Updater}
    {c : Course}
    (call : Updater.Call)
    (hCourse : TameInNormalMode c)
    (hUpdater : QualifiesInNormalMode u c) :
    (call.carryOut u).Always (Course.goes .board)
      TameInNormalMode QualifiesInNormalMode c := by
  by_cases hMode : c.safeMode = false
  · apply (Updater.always_tame_call call (hUpdater hMode)
      (hCourse hMode)).mono
    · intro c hTame _
      exact hTame
    · intro next c hStage _
      exact hStage
  · have hKept :
        ∀ c question answer c', call.MayAsk u question →
          c.safeMode ≠ false →
          Course.goes .board c question answer c' →
          c'.safeMode ≠ false := by
      intro c question answer c' _ hMode hGoes
      rw [Course.safeMode_of_goes hGoes]
      exact hMode
    apply (Dialogue.always_of_asks (Updater.carryOut_asks call)
      (Dialogue.yields_true _) hKept hMode).mono
    · intro c hMode hNormal
      exact absurd hNormal hMode
    · intro next c hNext hNormal
      exact absurd hNormal hNext.2

theorem Lived.tame
    {l : Life}
    (hLived : l.Lived .board) :
    TameInNormalMode l.course ∧
      ∀ u ∈ l.updater, QualifiesInNormalMode u l.course := by
  have hFresh :
      ∀ slot safeMode,
        TameInNormalMode (.fresh slot safeMode) := by
    intro slot safeMode hMode
    refine ⟨hMode, ?_⟩
    intro question answer hMem
    cases hMem
  refine
    Lived.invariant TameInNormalMode QualifiesInNormalMode
      ?_ ?_ ?_ hLived
  · intro slot safeMode _
    exact hFresh slot safeMode
  · intro l slot safeMode policy server _ _ _
    exact ⟨hFresh slot safeMode, always_boot_normal safeMode⟩
  · intro call u c hCourse hUpdater
    exact always_call_normal call hCourse hUpdater

/- A call throughout which a run is at rest or qualifies. -/
structure Qualifies
    (s : Setting)
    (l l' : Life) : Prop where
  before : ∃ u ∈ l.updater, u.stage ∈ Stage.qualifying
  calls : ∃ call, l.Calls s call l'
  after : ∃ u ∈ l'.updater, u.stage ∈ Stage.qualifying

theorem Qualifies.stored_eq
    {s : Setting}
    {l l' : Life}
    (hQualifies : Qualifies s l l') :
    l'.course.stored = l.course.stored := by
  rcases hQualifies.before with ⟨u, hMem, hStage⟩
  rcases hQualifies.calls with ⟨call, u', hMem', hLeads⟩
  rcases hQualifies.after with ⟨next, hNext, hAfter⟩
  cases Option.mem_unique hMem hMem'
  have hStored :=
    (hLeads.of_always (Updater.always_stored_call call hStage)
      trivial).2
  exact hStored next hNext hAfter

/-
  In a boot in normal mode, the updater is at rest or qualifies
  whenever a tick works on its stage, and it asks nothing that
  is not harmless. In either mode, a run that ends where it
  qualifies leaves what is stored as it was.
-/
theorem risks_in_safe_mode
    {l : Life}
    (hLived : l.Lived .board) :
    (l.course.safeMode = false →
      (∀ u ∈ l.updater, u.stage ∈ Stage.qualifying) ∧
        ∀ question answer,
          .asked question answer ∈ l.course.past →
            question.Harmless) ∧
      ∀ l', Relation.ReflTransGen (Qualifies .board) l l' →
        l'.course.stored = l.course.stored := by
  constructor
  · intro hMode
    rcases hLived.tame with ⟨hCourse, hUpdater⟩
    constructor
    · intro u hMem
      exact hUpdater u hMem hMode
    · exact (hCourse hMode).harmless
  · intro l' hRun
    induction hRun with
    | refl =>
        rfl
    | tail hRun hLast ih =>
        exact hLast.stored_eq.trans ih

/- A run that looks for the version in normal mode is harmless. -/
theorem harmless_on_smooth_run :
    (qualified 1).Lived .board ∧
      (qualified 1).updater.map Updater.stage =
        some .qualifyModemOn ∧
      ∀ question answer,
        .asked question answer ∈ (qualified 1).course.past →
          question.Harmless := by
  have hLived : (qualified 1).Lived .board := lived_rehearse _ _
  have hMode : (qualified 1).course.safeMode = false := by
    decide +kernel
  refine ⟨hLived, by decide +kernel, ?_⟩
  exact ((risks_in_safe_mode hLived).1 hMode).2

end Life

end Fota
