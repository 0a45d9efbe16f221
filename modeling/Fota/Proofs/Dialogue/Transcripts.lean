import Fota.Proofs.Dialogue.Courses

/-
  This file defines the transcripts of a dialogue: what was
  asked and answered, in order. A transcript does not depend on
  the state of the surroundings, and that of a dialogue which
  came to its end determines the result.

  Key definitions include:
    * `Dialogue.Exchange`
    * `Dialogue.Unfolds`
    * `Dialogue.follow?`

  The main statements take the transcript of two dialogues in
  turn apart, and say that each course has a transcript, which
  is the beginning of one that comes to its end.
-/

namespace Fota

namespace Dialogue

variable {Q : Type} {A : Q → Type} {α β W : Type}

------------------------------------------------------------
-- Transcripts
------------------------------------------------------------

/- A question that was answered. -/
structure Exchange
    (Q : Type)
    (A : Q → Type) where
  question : Q
  answer : A question

/-
  A dialogue unfolds into a transcript and ends with a result,
  or without one when it is cut off.
-/
inductive Unfolds
    {Q : Type}
    {A : Q → Type}
    {α : Type} :
    Dialogue Q A α →
      List (Exchange Q A) →
      Option α →
      Prop where
| done (result : α) :
    Unfolds (done result) [] (some result)
| cut (d : Dialogue Q A α) :
    Unfolds d [] none
| ask
    {question : Q}
    {resume : A question → Dialogue Q A α}
    {talk : List (Exchange Q A)}
    {result : Option α}
    (answer : A question)
    (hResume : Unfolds (resume answer) talk result) :
    Unfolds (ask question resume) (⟨question, answer⟩ :: talk)
      result

------------------------------------------------------------
-- Dialogues that Come to their End
------------------------------------------------------------

/- A finished dialogue has nothing to tell but its result. -/
@[simp]
theorem unfolds_done
    (result a : α)
    (talk : List (Exchange Q A)) :
    (done result : Dialogue Q A α).Unfolds talk (some a) ↔
      talk = [] ∧ a = result := by
  constructor
  · intro hUnfolds
    cases hUnfolds
    exact ⟨rfl, rfl⟩
  · rintro ⟨rfl, rfl⟩
    exact .done _

/- A dialogue that asks goes on with the answer. -/
@[simp]
theorem unfolds_ask
    (question : Q)
    (resume : A question → Dialogue Q A α)
    (a : α)
    (talk : List (Exchange Q A)) :
    (ask question resume).Unfolds talk (some a) ↔
      ∃ answer rest,
        talk = ⟨question, answer⟩ :: rest ∧
          (resume answer).Unfolds rest (some a) := by
  constructor
  · intro hUnfolds
    cases hUnfolds with
    | ask answer hResume =>
        exact ⟨answer, _, rfl, hResume⟩
  · rintro ⟨answer, rest, rfl, hResume⟩
    exact .ask answer hResume

/- The transcript of two dialogues in turn has two parts. -/
theorem unfolds_bind
    (d : Dialogue Q A α)
    (next : α → Dialogue Q A β)
    (b : β)
    (talk : List (Exchange Q A)) :
    (d >>= next).Unfolds talk (some b) ↔
      ∃ a first second,
        talk = first ++ second ∧
          d.Unfolds first (some a) ∧
          (next a).Unfolds second (some b) := by
  induction d generalizing talk with
  | done result =>
      constructor
      · intro hNext
        exact ⟨result, [], talk, rfl, .done result, hNext⟩
      · rintro ⟨a, first, second, rfl, hFirst, hSecond⟩
        rw [unfolds_done] at hFirst
        rcases hFirst with ⟨rfl, rfl⟩
        exact hSecond
  | ask question resume ih =>
      simp only [ask_bind, unfolds_ask, ih]
      constructor
      · rintro ⟨answer, _, rfl, a, first, second, rfl, hParts⟩
        exact
          ⟨a, ⟨question, answer⟩ :: first, second, rfl,
            ⟨answer, first, rfl, hParts.1⟩, hParts.2⟩
      · rintro
          ⟨a, _, second, rfl, ⟨answer, first, rfl, hFirst⟩,
            hSecond⟩
        exact
          ⟨answer, first ++ second, rfl, a, first, second, rfl,
            hFirst, hSecond⟩

/- A choice unfolds as the branch that is taken. -/
@[simp]
theorem unfolds_ite
    (c : Prop)
    [Decidable c]
    (d e : Dialogue Q A α)
    (result : Option α)
    (talk : List (Exchange Q A)) :
    (if c then d else e).Unfolds talk result ↔
      (c → d.Unfolds talk result) ∧
        (¬ c → e.Unfolds talk result) := by
  split <;> simp [*]

/-
  The result to which a transcript leads, if it is one of the
  dialogue.
-/
def follow?
    {Q : Type}
    {A : Q → Type}
    {α : Type}
    [DecidableEq Q] :
    Dialogue Q A α → List (Exchange Q A) → Option α
| done result, [] => some result
| done _, _ :: _ => none
| ask _ _, [] => none
| ask question resume, ⟨asked, answer⟩ :: talk =>
    if hSame : asked = question then
      (resume (hSame ▸ answer)).follow? talk
    else
      none

/- A transcript that leads to a result ends with it. -/
theorem follow?_eq_some_iff
    [DecidableEq Q]
    (d : Dialogue Q A α)
    (talk : List (Exchange Q A))
    (a : α) :
    d.follow? talk = some a ↔ d.Unfolds talk (some a) := by
  induction d generalizing talk with
  | done result =>
      cases talk with
      | nil =>
          simp [follow?, eq_comm]
      | cons exchange talk =>
          simp [follow?]
  | ask question resume ih =>
      rw [unfolds_ask]
      cases talk with
      | nil =>
          simp [follow?]
      | cons exchange talk =>
          rcases exchange with ⟨asked, answer⟩
          by_cases hSame : asked = question
          · subst hSame
            simp only [follow?, ↓reduceDIte, ih]
            constructor
            · intro hResume
              exact ⟨answer, talk, rfl, hResume⟩
            · rintro ⟨_, _, hTalk, hResume⟩
              cases hTalk
              exact hResume
          · simp [follow?, hSame]

------------------------------------------------------------
-- Dialogues that Are Cut Off
------------------------------------------------------------

/- If each question has an answer, a dialogue may end. -/
theorem exists_unfolds
    (d : Dialogue Q A α)
    (hAnswers : ∀ question, Nonempty (A question)) :
    ∃ talk a, d.Unfolds talk (some a) := by
  induction d with
  | done result =>
      exact ⟨[], result, .done result⟩
  | ask question resume ih =>
      rcases hAnswers question with ⟨answer⟩
      rcases ih answer with ⟨talk, a, hResume⟩
      exact ⟨_, a, .ask answer hResume⟩

/- So may one that was cut off, had it gone on. -/
theorem Unfolds.exists_end
    {d : Dialogue Q A α}
    {result : Option α}
    {talk : List (Exchange Q A)}
    (hUnfolds : d.Unfolds talk result)
    (hAnswers : ∀ question, Nonempty (A question)) :
    ∃ rest a, d.Unfolds (talk ++ rest) (some a) := by
  induction hUnfolds with
  | done result =>
      exact ⟨[], result, .done result⟩
  | cut d =>
      exact d.exists_unfolds hAnswers
  | ask answer hResume ih =>
      rcases ih with ⟨rest, a, hEnd⟩
      exact ⟨rest, a, .ask answer hEnd⟩

/- What is asked in a transcript is what may be asked. -/
theorem Unfolds.asks
    {K : Q → Prop}
    {d : Dialogue Q A α}
    {result : Option α}
    {talk : List (Exchange Q A)}
    (hUnfolds : d.Unfolds talk result)
    (hAsks : d.Asks K) :
    ∀ exchange ∈ talk, K exchange.question := by
  induction hUnfolds with
  | done result =>
      intro exchange hMem
      cases hMem
  | cut d =>
      intro exchange hMem
      cases hMem
  | ask answer hResume ih =>
      rw [asks_ask] at hAsks
      intro exchange hMem
      rcases List.mem_cons.mp hMem with rfl | hMem
      · exact hAsks.1
      · exact ih (hAsks.2 answer) exchange hMem

/- The result of a transcript is one that may be given. -/
theorem Unfolds.yields
    {P : α → Prop}
    {d : Dialogue Q A α}
    {a : α}
    {talk : List (Exchange Q A)}
    (hUnfolds : d.Unfolds talk (some a))
    (hYields : d.Yields P) :
    P a := by
  induction d generalizing talk with
  | done result =>
      rw [unfolds_done] at hUnfolds
      rw [yields_done] at hYields
      rw [hUnfolds.2]
      exact hYields
  | ask question resume ih =>
      rw [unfolds_ask] at hUnfolds
      rw [yields_ask] at hYields
      rcases hUnfolds with ⟨answer, rest, rfl, hResume⟩
      exact ih answer hResume (hYields answer)

------------------------------------------------------------
-- Transcripts of Runs
------------------------------------------------------------

/-
  A run in a state has a transcript. What is seen of the state
  after it follows from the transcript if this is so of every
  single question.
-/
theorem exists_unfolds_run
    {S G : Type}
    (view : S → G)
    (note : G → Exchange Q A → G)
    (answer : (question : Q) → StateM S (A question))
    (hNoted : ∀ question state,
      view ((answer question).run state).2 =
        note (view state)
          ⟨question, ((answer question).run state).1⟩)
    (d : Dialogue Q A α)
    (state : S) :
    ∃ talk,
      d.Unfolds talk (some ((d.run answer).run state).1) ∧
        view ((d.run answer).run state).2 =
          talk.foldl note (view state) := by
  induction d generalizing state with
  | done result =>
      exact ⟨[], .done result, rfl⟩
  | ask question resume ih =>
      rcases
        ih ((answer question).run state).1
          ((answer question).run state).2 with
        ⟨talk, hUnfolds, hView⟩
      refine ⟨⟨question, _⟩ :: talk, .ask _ hUnfolds, ?_⟩
      rw [List.foldl_cons, ← hNoted]
      exact hView

------------------------------------------------------------
-- Transcripts of Courses
------------------------------------------------------------

/-
  A course has a transcript, which surroundings that keep a log
  have added to it.
-/
theorem Leads.unfolds
    {R : Surroundings Q A W}
    {log : W → List (Exchange Q A)}
    {d : Dialogue Q A α}
    {w w' : W}
    {result : Option α}
    (hLeads : d.Leads R w result w')
    (hLogged : ∀ w question answer w',
      R w question answer w' →
        log w' = log w ++ [⟨question, answer⟩]) :
    ∃ talk, d.Unfolds talk result ∧ log w' = log w ++ talk := by
  induction hLeads with
  | done result w =>
      exact ⟨[], .done result, by simp⟩
  | cut d w =>
      exact ⟨[], .cut d, by simp⟩
  | @ask question _ _ _ _ answer _ hAnswer hResume ih =>
      rcases ih with ⟨talk, hUnfolds, hLog⟩
      refine
        ⟨⟨question, answer⟩ :: talk, .ask answer hUnfolds, ?_⟩
      rw [hLog, hLogged _ _ _ _ hAnswer]
      simp

/- The result of a course is one that may be given. -/
theorem Leads.yields
    {R : Surroundings Q A W}
    {P : α → Prop}
    {d : Dialogue Q A α}
    {w w' : W}
    {a : α}
    (hLeads : d.Leads R w (some a) w')
    (hYields : d.Yields P) :
    P a := by
  have hAlways :
      d.Always R (fun _ => True) (fun a _ => P a ∧ True) w :=
    always_of_asks (asks_true d) hYields
      (fun _ _ _ _ _ _ _ => trivial) trivial
  exact ((hLeads.of_always hAlways trivial).2 a rfl).1

end Dialogue

end Fota
