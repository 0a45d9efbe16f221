import Fota.Proofs.Modem.LatestNotices
import Fota.Proofs.Update.Life

/-
  This file defines what it takes for the past of a boot to end
  in a verified download, and when the installs of a boot are
  justified.

  Key definitions include:
    * `Update.Attempt`
    * `Update.Verified`
    * `Update.Question.Calm`
    * `Update.Justified`

  The main statements say that calm happenings leave a download
  verified, and how installs stay justified.
-/

namespace Fota

open Update (Answer Course Happening Question Setting Talk)

------------------------------------------------------------
-- Delivered Completions
------------------------------------------------------------

namespace Update.Happening

variable
  {completion : Completion}
  {line : String}

theorem completion_deliver
    {m : Mailbox}
    (hCompletion :
      (m.deliver line).2.completion = some completion) :
    Report.completion? line = some completion ∨
      m.completion = some completion := by
  have hHolds := Mailbox.holds_deliver .completion line m
  change (m.deliver line).2.completion = _ at hHolds
  rw [hHolds] at hCompletion
  cases hRead : Report.completion? line with
  | none =>
      rw [Mailbox.Kind.update_of_none .completion hRead]
        at hCompletion
      exact Or.inr hCompletion
  | some reported =>
      rw [Mailbox.Kind.update_of_some .completion hRead]
        at hCompletion
      exact Or.inl hCompletion

/- A completion was there before, or its notice has arrived. -/
theorem completion_onMailbox
    {h : Happening}
    {m : Mailbox}
    (hCompletion :
      (h.onMailbox m).completion = some completion) :
    (∃ line, h = .notice line ∧
      Report.completion? line = some completion) ∨
      m.completion = some completion := by
  cases h with
  | notice line =>
      rcases completion_deliver hCompletion with hLine | hBefore
      · exact Or.inl ⟨line, rfl, hLine⟩
      · exact Or.inr hBefore
  | asked question answer =>
      right
      cases question <;>
        first
          | exact hCompletion
          | cases hCompletion

/- A completion was there before, or has arrived on the way. -/
theorem completion_foldl
    (past : List Happening)
    {m : Mailbox}
    (hCompletion :
      (past.foldl (fun m h => h.onMailbox m) m).completion =
        some completion) :
    (∃ line, .notice line ∈ past ∧
      Report.completion? line = some completion) ∨
      m.completion = some completion := by
  induction past generalizing m with
  | nil =>
      exact Or.inr hCompletion
  | cons h past ih =>
      rcases ih hCompletion with ⟨line, hMem, hLine⟩ | hAfter
      · left
        exact ⟨line, List.mem_cons_of_mem _ hMem, hLine⟩
      · rcases completion_onMailbox hAfter with
          ⟨line, rfl, hLine⟩ | hBefore
        · left
          exact ⟨line, List.mem_cons_self, hLine⟩
        · exact Or.inr hBefore

/- An install is started. -/
def startsInstall : Happening → Bool
| asked (.command .install) _ => true
| _ => false

theorem exists_of_startsInstall
    {h : Happening}
    (hStarts : h.startsInstall = true) :
    ∃ reply, h = .asked (.command .install) reply := by
  unfold startsInstall at hStarts
  split at hStarts
  · exact ⟨_, rfl⟩
  · cases hStarts

end Update.Happening

------------------------------------------------------------
-- Verified Downloads
------------------------------------------------------------

namespace Update

/-
  The last attempt at a download: nothing was cleared and no
  install was started since, and the image of the path, and no
  other, was asked for and granted.
-/
structure Attempt
    (path : UpgradePath)
    (attempt : List Happening) : Prop where
  last : ∀ answer, .asked .clearCompletion answer ∉ attempt
  unused : ∀ reply, .asked (.command .install) reply ∉ attempt
  granted : ∃ reply : Reply,
    .asked (.command (.download path.file)) reply ∈ attempt ∧
      reply.outcome = .ok
  named : ∀ file reply,
    .asked (.command (.download file)) reply ∈ attempt →
      file = path.file

/- The past ends in an attempt at a download. -/
def Awaited
    (path : UpgradePath)
    (past : List Happening) : Prop :=
  ∃ before attempt,
    past = before ++ .asked .clearCompletion () :: attempt ∧
      Attempt path attempt

/- A completed transfer that brought the image of a path. -/
structure Brings
    (path : UpgradePath)
    (completion : Completion) : Prop where
  command : completion.command = 100
  result : completion.result = 1
  status : completion.status = 200
  digest : path.hasDigest completion.digest.text = true

/-
  A completion was delivered during an attempt and taken from
  the mailbox, it brings the image of the path, and neither
  another attempt nor an install was begun afterwards.
-/
structure Verification
    (path : UpgradePath)
    (completion : Completion)
    (attempt after : List Happening) : Prop where
  begun : Attempt path attempt
  delivered : ∃ line, .notice line ∈ attempt ∧
    Report.completion? line = some completion
  brings : Brings path completion
  last : ∀ answer, .asked .clearCompletion answer ∉ after
  unused : ∀ reply, .asked (.command .install) reply ∉ after

/- The past ends in a verified download. -/
def Verified
    (path : UpgradePath)
    (past : List Happening) : Prop :=
  ∃ before attempt completion after,
    past =
      before ++ .asked .clearCompletion () ::
        (attempt ++
          .asked .takeCompletion (some completion) ::
            after) ∧
      Verification path completion attempt after

------------------------------------------------------------
-- Calm Happenings
------------------------------------------------------------

/- A question that neither begins an attempt nor an install. -/
structure Question.Calm
    (question : Question) : Prop where
  clear : question ≠ .clearCompletion
  install : question ≠ .command .install
  download : ∀ file, question ≠ .command (.download file)

/- Only calm questions are asked among some happenings. -/
def Calm
    (added : List Happening) : Prop :=
  ∀ question answer,
    .asked question answer ∈ added → question.Calm

variable
  {path : UpgradePath}
  {past attempt added : List Happening}

theorem Attempt.append
    (hAttempt : Attempt path attempt)
    (hCalm : Calm added) :
    Attempt path (attempt ++ added) := by
  constructor
  · intro answer hMem
    rcases List.mem_append.mp hMem with hMem | hMem
    · exact hAttempt.last answer hMem
    · exact (hCalm _ _ hMem).clear rfl
  · intro reply hMem
    rcases List.mem_append.mp hMem with hMem | hMem
    · exact hAttempt.unused reply hMem
    · exact (hCalm _ _ hMem).install rfl
  · rcases hAttempt.granted with ⟨reply, hMem, hGranted⟩
    exact ⟨reply, List.mem_append_left _ hMem, hGranted⟩
  · intro file reply hMem
    rcases List.mem_append.mp hMem with hMem | hMem
    · exact hAttempt.named file reply hMem
    · exact absurd rfl ((hCalm _ _ hMem).download file)

/- Calm happenings go on with the attempt. -/
theorem Awaited.append
    (hAwaited : Awaited path past)
    (hCalm : Calm added) :
    Awaited path (past ++ added) := by
  rcases hAwaited with ⟨before, attempt, rfl, hAttempt⟩
  exact
    ⟨before, attempt ++ added, by simp,
      hAttempt.append hCalm⟩

/- Calm happenings leave a download verified. -/
theorem Verified.append
    (hVerified : Verified path past)
    (hCalm : Calm added) :
    Verified path (past ++ added) := by
  rcases hVerified with
    ⟨before, attempt, completion, after, rfl, h⟩
  refine
    ⟨before, attempt, completion, after ++ added, by simp,
      h.begun, h.delivered, h.brings, ?_, ?_⟩
  · intro answer hMem
    rcases List.mem_append.mp hMem with hMem | hMem
    · exact h.last answer hMem
    · exact (hCalm _ _ hMem).clear rfl
  · intro reply hMem
    rcases List.mem_append.mp hMem with hMem | hMem
    · exact h.unused reply hMem
    · exact (hCalm _ _ hMem).install rfl

theorem calm_notices
    (lines : List String) :
    Calm (lines.map .notice) := by
  intro question answer hMem
  simp at hMem

/- A calm question adds calm happenings to a course. -/
theorem Course.calm_of_goes
    {s : Setting}
    {c c' : Course}
    {question : Question}
    {answer : Answer question}
    (hQuestion : question.Calm)
    (hGoes : goes s c question answer c') :
    ∃ added, c'.past = c.past ++ added ∧ Calm added := by
  rcases past_of_goes hGoes with ⟨lines, hPast⟩
  refine
    ⟨lines.map .notice ++ [.asked question answer], ?_, ?_⟩
  · rw [hPast, List.append_assoc]
  · intro other answer' hMem
    rcases List.mem_append.mp hMem with hMem | hMem
    · exact calm_notices lines other answer' hMem
    · cases List.mem_singleton.mp hMem
      exact hQuestion

------------------------------------------------------------
-- Justified Installs
------------------------------------------------------------

/-
  Each install among some happenings came when the past ended in
  a verified download.
-/
def Justified
    (path : UpgradePath)
    (past added : List Happening) : Prop :=
  ∀ before reply after,
    added =
        before ++ .asked (.command .install) reply :: after →
      Verified path (past ++ before)

theorem justified_nil :
    Justified path past [] := by
  intro before reply after hEq
  simp at hEq

/- One more happening needs a verification if it is an install. -/
theorem Justified.concat
    {h : Happening}
    (hJustified : Justified path past added)
    (hInstall :
      (∃ reply, h = .asked (.command .install) reply) →
        Verified path (past ++ added)) :
    Justified path past (added ++ [h]) := by
  intro before reply after hEq
  rcases List.eq_nil_or_concat after with rfl | ⟨rest, last, rfl⟩
  · rcases List.append_inj' hEq rfl with ⟨rfl, hLast⟩
    exact hInstall ⟨reply, (List.cons.inj hLast).1⟩
  · rw [List.concat_eq_append, ← List.cons_append,
      ← List.append_assoc] at hEq
    rcases List.append_inj' hEq rfl with ⟨rfl, hLast⟩
    exact hJustified before reply rest rfl

theorem Justified.notices
    (hJustified : Justified path past added)
    (lines : List String) :
    Justified path past (added ++ lines.map .notice) := by
  induction lines generalizing added with
  | nil =>
      simpa using hJustified
  | cons line lines ih =>
      have hConcat :
          Justified path past (added ++ [.notice line]) := by
        apply hJustified.concat
        rintro ⟨reply, hEq⟩
        cases hEq
      have hRest := ih hConcat
      rw [List.append_assoc] at hRest
      exact hRest

namespace Course

/- Each install since a moment of the boot was justified. -/
def InstallsJustified
    (path : UpgradePath)
    (c c' : Course) : Prop :=
  ∃ added, c'.past = c.past ++ added ∧
    Justified path c.past added

theorem installsJustified_refl
    (path : UpgradePath)
    (c : Course) :
    c.InstallsJustified path c :=
  ⟨[], by simp, justified_nil⟩

theorem InstallsJustified.goes
    {s : Setting}
    {c₀ c c' : Course}
    {question : Question}
    {answer : Answer question}
    (hJustified : c₀.InstallsJustified path c)
    (hInstall :
      question = .command .install → Verified path c.past)
    (hGoes : goes s c question answer c') :
    c₀.InstallsJustified path c' := by
  rcases hJustified with ⟨added, hPast, hAdded⟩
  rcases past_of_goes hGoes with ⟨lines, hNext⟩
  refine
    ⟨added ++ lines.map .notice ++ [.asked question answer],
      by rw [hNext, hPast]; simp, ?_⟩
  apply (hAdded.notices lines).concat
  rintro ⟨reply, hEq⟩
  cases hEq
  rw [← List.append_assoc, ← hPast]
  exact (hInstall rfl).append (calm_notices lines)

end Course

end Update

end Fota
