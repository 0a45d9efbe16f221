import Fota.Dialogue

/-
  This file defines what can be said of a dialogue whatever its
  surroundings answer: which questions it may ask, which results
  it may end with, and how the state of its surroundings may
  change on the way. A dialogue may be cut off before any of its
  questions, as by a loss of power.

  Key definitions include:
    * `Dialogue.Surroundings`
    * `Dialogue.Leads`
    * `Dialogue.Asks`
    * `Dialogue.Yields`
    * `Dialogue.Always`
    * `Dialogue.Answered`

  The main statements say that `Asks`, `Yields` and `Always`
  follow the way in which dialogues are put together, and that
  what always holds of a dialogue holds of each of its courses.
-/

namespace Fota

namespace Dialogue

variable {Q : Type} {A : Q → Type} {α β W : Type}

------------------------------------------------------------
-- Questions and Results
------------------------------------------------------------

/- Every question that the dialogue may come to satisfies `K`. -/
def Asks
    {Q : Type}
    {A : Q → Type}
    {α : Type}
    (K : Q → Prop) :
    Dialogue Q A α → Prop
| done _ => True
| ask question resume =>
    K question ∧ ∀ answer, (resume answer).Asks K

/- Every result that the dialogue may end with satisfies `P`. -/
def Yields
    {Q : Type}
    {A : Q → Type}
    {α : Type}
    (P : α → Prop) :
    Dialogue Q A α → Prop
| done result => P result
| ask _ resume => ∀ answer, (resume answer).Yields P

@[simp]
theorem asks_done
    (K : Q → Prop)
    (result : α) :
    (done result : Dialogue Q A α).Asks K :=
  trivial

@[simp]
theorem asks_ask
    (K : Q → Prop)
    (question : Q)
    (resume : A question → Dialogue Q A α) :
    (ask question resume).Asks K ↔
      K question ∧ ∀ answer, (resume answer).Asks K :=
  Iff.rfl

@[simp]
theorem yields_done
    (P : α → Prop)
    (result : α) :
    (done result : Dialogue Q A α).Yields P ↔ P result :=
  Iff.rfl

@[simp]
theorem yields_ask
    (P : α → Prop)
    (question : Q)
    (resume : A question → Dialogue Q A α) :
    (ask question resume).Yields P ↔
      ∀ answer, (resume answer).Yields P :=
  Iff.rfl

/- The results of two dialogues in turn are those of the second. -/
@[simp]
theorem yields_bind
    (P : β → Prop)
    (d : Dialogue Q A α)
    (next : α → Dialogue Q A β) :
    (d >>= next).Yields P ↔
      d.Yields (fun a => (next a).Yields P) := by
  induction d with
  | done _ =>
      rfl
  | ask question resume ih =>
      simp only [ask_bind, yields_ask, ih]

/- Two dialogues in turn ask what each of them asks. -/
@[simp]
theorem asks_bind
    (K : Q → Prop)
    (d : Dialogue Q A α)
    (next : α → Dialogue Q A β) :
    (d >>= next).Asks K ↔
      d.Asks K ∧ d.Yields (fun a => (next a).Asks K) := by
  induction d with
  | done _ =>
      simp
  | ask question resume ih =>
      simp only [ask_bind, asks_ask, yields_ask, ih]
      constructor
      · rintro ⟨hQuestion, hResume⟩
        exact
          ⟨⟨hQuestion, fun answer => (hResume answer).1⟩,
            fun answer => (hResume answer).2⟩
      · rintro ⟨⟨hQuestion, hAsks⟩, hYields⟩
        exact
          ⟨hQuestion,
            fun answer => ⟨hAsks answer, hYields answer⟩⟩

/- A choice asks what the branch that is taken asks. -/
@[simp]
theorem asks_ite
    (K : Q → Prop)
    (c : Prop)
    [Decidable c]
    (d e : Dialogue Q A α) :
    (if c then d else e).Asks K ↔
      (c → d.Asks K) ∧ (¬ c → e.Asks K) := by
  split <;> simp [*]

/- A choice yields what the branch that is taken yields. -/
@[simp]
theorem yields_ite
    (P : α → Prop)
    (c : Prop)
    [Decidable c]
    (d e : Dialogue Q A α) :
    (if c then d else e).Yields P ↔
      (c → d.Yields P) ∧ (¬ c → e.Yields P) := by
  split <;> simp [*]

/- A choice between two results yields the one that is taken. -/
@[simp high]
theorem yields_choice
    (P : α → Prop)
    (c : Prop)
    [Decidable c]
    (a b : α) :
    (if c then done a else done b :
      Dialogue Q A α).Yields P ↔ P (if c then a else b) := by
  split <;> rfl

/- A dialogue asks whatever a wider class allows. -/
theorem Asks.mono
    {K L : Q → Prop}
    {d : Dialogue Q A α}
    (hAsks : d.Asks K)
    (hWider : ∀ question, K question → L question) :
    d.Asks L := by
  induction d with
  | done _ =>
      trivial
  | ask question resume ih =>
      exact
        ⟨hWider question hAsks.1,
          fun answer => ih answer (hAsks.2 answer)⟩

/- A dialogue yields whatever follows from what it yields. -/
theorem Yields.mono
    {P R : α → Prop}
    {d : Dialogue Q A α}
    (hYields : d.Yields P)
    (hWeaker : ∀ result, P result → R result) :
    d.Yields R := by
  induction d with
  | done result =>
      exact hWeaker result hYields
  | ask question resume ih =>
      intro answer
      exact ih answer (hYields answer)

/- What holds of every result is yielded. -/
theorem Yields.of_forall
    {P : α → Prop}
    (d : Dialogue Q A α)
    (hAll : ∀ result, P result) :
    d.Yields P := by
  induction d with
  | done result =>
      exact hAll result
  | ask question resume ih =>
      intro answer
      exact ih answer

@[simp]
theorem yields_true
    (d : Dialogue Q A α) :
    d.Yields (fun _ => True) :=
  Yields.of_forall d (fun _ => trivial)

/- Any question may be asked if all of them may. -/
theorem asks_true
    (d : Dialogue Q A α) :
    d.Asks (fun _ => True) := by
  induction d with
  | done _ =>
      trivial
  | ask question resume ih =>
      exact ⟨trivial, ih⟩

/- Two dialogues in turn, the second one for any result. -/
theorem Asks.bind
    {K : Q → Prop}
    {d : Dialogue Q A α}
    {next : α → Dialogue Q A β}
    (hFirst : d.Asks K)
    (hNext : ∀ a, (next a).Asks K) :
    (d >>= next).Asks K := by
  rw [asks_bind]
  exact ⟨hFirst, Yields.of_forall d hNext⟩

/- A dialogue carried out in another one asks what that asks. -/
theorem Asks.run
    {Q' : Type}
    {A' : Q' → Type}
    {K : Q → Prop}
    {L : Q' → Prop}
    {d : Dialogue Q A α}
    (hAsks : d.Asks K)
    (answer : (question : Q) → Dialogue Q' A' (A question))
    (hAnswer : ∀ question, K question →
      (answer question).Asks L) :
    (d.run answer).Asks L := by
  induction d with
  | done _ =>
      trivial
  | ask question resume ih =>
      rw [run_ask]
      apply (hAnswer question hAsks.1).bind
      intro given
      exact ih given (hAsks.2 given)

/-
  Surroundings that answer in a state keep what survives each
  question that is asked, and give a result that may be given.
-/
theorem run_keeps
    {σ : Type}
    {K : Q → Prop}
    {P : α → Prop}
    {safe : σ → Prop}
    {d : Dialogue Q A α}
    {state : σ}
    (answer : (question : Q) → StateM σ (A question))
    (hAsks : d.Asks K)
    (hYields : d.Yields P)
    (hKept : ∀ question state, K question → safe state →
      safe ((answer question).run state).2)
    (hSafe : safe state) :
    P ((d.run answer).run state).1 ∧
      safe ((d.run answer).run state).2 := by
  induction d generalizing state with
  | done result =>
      exact ⟨hYields, hSafe⟩
  | ask question resume ih =>
      have hNext := hKept question state hAsks.1 hSafe
      exact ih _ (hAsks.2 _) (hYields _) hNext

------------------------------------------------------------
-- Courses
------------------------------------------------------------

/-
  Surroundings relate the state in which a question reaches
  them to their answer and the state in which they give it.
-/
abbrev Surroundings
    (Q : Type)
    (A : Q → Type)
    (W : Type) : Type :=
  W → (question : Q) → A question → W → Prop

/-
  A course of a dialogue leads its surroundings from one state
  to another. It ends with a result, or without one when it is
  cut off.
-/
inductive Leads
    {Q : Type}
    {A : Q → Type}
    {α W : Type}
    (R : Surroundings Q A W) :
    Dialogue Q A α → W → Option α → W → Prop where
| done (result : α) (w : W) :
    Leads R (done result) w (some result) w
| cut (d : Dialogue Q A α) (w : W) :
    Leads R d w none w
| ask
    {question : Q}
    {resume : A question → Dialogue Q A α}
    {w w' w'' : W}
    {answer : A question}
    {result : Option α}
    (hAnswer : R w question answer w')
    (hResume : Leads R (resume answer) w' result w'') :
    Leads R (ask question resume) w result w''

/-
  However the dialogue goes on from a state of its surroundings,
  `safe` holds after each answer, and `post` holds of its result
  and the state at its end.
-/
def Always
    {Q : Type}
    {A : Q → Type}
    {α W : Type}
    (R : Surroundings Q A W)
    (safe : W → Prop)
    (post : α → W → Prop) :
    Dialogue Q A α → W → Prop
| done result, w => post result w
| ask question resume, w =>
    ∀ answer w', R w question answer w' →
      safe w' ∧ (resume answer).Always R safe post w'

@[simp]
theorem always_done
    (R : Surroundings Q A W)
    (safe : W → Prop)
    (post : α → W → Prop)
    (result : α)
    (w : W) :
    (done result : Dialogue Q A α).Always R safe post w ↔
      post result w :=
  Iff.rfl

@[simp]
theorem always_ask
    (R : Surroundings Q A W)
    (safe : W → Prop)
    (post : α → W → Prop)
    (question : Q)
    (resume : A question → Dialogue Q A α)
    (w : W) :
    (ask question resume).Always R safe post w ↔
      ∀ answer w', R w question answer w' →
        safe w' ∧ (resume answer).Always R safe post w' :=
  Iff.rfl

/- Two dialogues in turn go on from where the first one ends. -/
@[simp]
theorem always_bind
    (R : Surroundings Q A W)
    (safe : W → Prop)
    (post : β → W → Prop)
    (d : Dialogue Q A α)
    (next : α → Dialogue Q A β)
    (w : W) :
    (d >>= next).Always R safe post w ↔
      d.Always R safe
        (fun a w' => (next a).Always R safe post w') w := by
  induction d generalizing w with
  | done _ =>
      rfl
  | ask question resume ih =>
      simp only [ask_bind, always_ask, ih]

/- A choice goes on as the branch that is taken. -/
@[simp]
theorem always_ite
    (R : Surroundings Q A W)
    (safe : W → Prop)
    (post : α → W → Prop)
    (c : Prop)
    [Decidable c]
    (d e : Dialogue Q A α)
    (w : W) :
    (if c then d else e).Always R safe post w ↔
      (c → d.Always R safe post w) ∧
        (¬ c → e.Always R safe post w) := by
  split <;> simp [*]

/- What always holds implies whatever is weaker. -/
theorem Always.mono
    {R : Surroundings Q A W}
    {safe safe' : W → Prop}
    {post post' : α → W → Prop}
    {d : Dialogue Q A α}
    {w : W}
    (hAlways : d.Always R safe post w)
    (hSafe : ∀ w, safe w → safe' w)
    (hPost : ∀ result w, post result w → post' result w) :
    d.Always R safe' post' w := by
  induction d generalizing w with
  | done result =>
      exact hPost result w hAlways
  | ask question resume ih =>
      intro answer w' hAnswer
      have hNext := hAlways answer w' hAnswer
      exact ⟨hSafe w' hNext.1, ih answer hNext.2⟩

/-
  A property of the surroundings that survives every question
  in `K` survives a dialogue that asks nothing else.
-/
theorem always_of_asks
    {R : Surroundings Q A W}
    {K : Q → Prop}
    {P : α → Prop}
    {safe : W → Prop}
    {d : Dialogue Q A α}
    {w : W}
    (hAsks : d.Asks K)
    (hYields : d.Yields P)
    (hKept : ∀ w question answer w', K question → safe w →
      R w question answer w' → safe w')
    (hSafe : safe w) :
    d.Always R safe
      (fun result w' => P result ∧ safe w') w := by
  induction d generalizing w with
  | done result =>
      exact ⟨hYields, hSafe⟩
  | ask question resume ih =>
      intro answer w' hAnswer
      have hNext : safe w' :=
        hKept w question answer w' hAsks.1 hSafe hAnswer
      exact
        ⟨hNext,
          ih answer (hAsks.2 answer) (hYields answer) hNext⟩

/- A course is also one in surroundings that allow more. -/
theorem Leads.mono
    {R R' : Surroundings Q A W}
    {d : Dialogue Q A α}
    {w w' : W}
    {result : Option α}
    (hLeads : d.Leads R w result w')
    (hWider : ∀ w question answer w',
      R w question answer w' → R' w question answer w') :
    d.Leads R' w result w' := by
  induction hLeads with
  | done result w =>
      exact .done result w
  | cut d w =>
      exact .cut d w
  | ask hAnswer hResume ih =>
      exact .ask (hWider _ _ _ _ hAnswer) ih

/- What always holds of a dialogue holds of each of its courses. -/
theorem Leads.of_always
    {R : Surroundings Q A W}
    {safe : W → Prop}
    {post : α → W → Prop}
    {d : Dialogue Q A α}
    {w w' : W}
    {result : Option α}
    (hLeads : d.Leads R w result w')
    (hAlways : d.Always R safe post w)
    (hSafe : safe w) :
    safe w' ∧ ∀ a ∈ result, post a w' := by
  induction hLeads with
  | done r w =>
      refine ⟨hSafe, ?_⟩
      intro a hMem
      rw [Option.mem_some] at hMem
      subst hMem
      exact hAlways
  | cut d w =>
      refine ⟨hSafe, ?_⟩
      intro a hMem
      cases hMem
  | ask hAnswer hResume ih =>
      have hNext := hAlways _ _ hAnswer
      exact ih hNext.2 hNext.1

/- A course keeps what each question that is asked keeps. -/
theorem Leads.keeps
    {R : Surroundings Q A W}
    {K : Q → Prop}
    {safe : W → Prop}
    {d : Dialogue Q A α}
    {w w' : W}
    {result : Option α}
    (hLeads : d.Leads R w result w')
    (hAsks : d.Asks K)
    (hKept : ∀ w question answer w', K question → safe w →
      R w question answer w' → safe w')
    (hSafe : safe w) :
    safe w' := by
  have hAlways :=
    always_of_asks hAsks (yields_true d) hKept hSafe
  exact (hLeads.of_always hAlways hSafe).1

------------------------------------------------------------
-- Answers
------------------------------------------------------------

/-
  However the dialogue goes on from a state of its surroundings,
  they answer the next question. So it comes to its end, unless
  it is cut off.
-/
def Answered
    {Q : Type}
    {A : Q → Type}
    {α W : Type}
    (R : Surroundings Q A W) :
    Dialogue Q A α → W → Prop
| done _, _ => True
| ask question resume, w =>
    (∃ answer w', R w question answer w') ∧
      ∀ answer w', R w question answer w' →
        (resume answer).Answered R w'

@[simp]
theorem answered_done
    (R : Surroundings Q A W)
    (result : α)
    (w : W) :
    (done result : Dialogue Q A α).Answered R w :=
  trivial

@[simp]
theorem answered_ask
    (R : Surroundings Q A W)
    (question : Q)
    (resume : A question → Dialogue Q A α)
    (w : W) :
    (ask question resume).Answered R w ↔
      (∃ answer w', R w question answer w') ∧
        ∀ answer w', R w question answer w' →
          (resume answer).Answered R w' :=
  Iff.rfl

-- From here on, only the lemmas above open these.
attribute [irreducible] Asks Yields Always Answered

end Dialogue

end Fota
