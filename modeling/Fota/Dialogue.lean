/-
  This file defines dialogues. A dialogue is a computation that
  asks its surroundings questions and goes on with the answers;
  what the surroundings answer is decided elsewhere. The parts
  of the firmware that drive other parts are dialogues, so that
  they can be run against any surroundings and reasoned about
  for every answer.

  Key definitions include:
    * `Dialogue`
    * `Dialogue.bind`
    * `Dialogue.run`

  The main statements say that dialogues form a lawful monad and
  that running one is a map of monads.
-/

namespace Fota

------------------------------------------------------------
-- Dialogues
------------------------------------------------------------

/-
  A dialogue over questions `Q`, where `A q` is the type of the
  answers to `q`, ends with a result in `α`.
-/
inductive Dialogue
    (Q : Type)
    (A : Q → Type)
    (α : Type) where
| done (result : α)
| ask (question : Q) (resume : A question → Dialogue Q A α)

namespace Dialogue

variable {Q : Type} {A : Q → Type} {α β : Type}

/- Go on with a second dialogue once the first one is done. -/
def bind
    {Q : Type}
    {A : Q → Type}
    {α β : Type} :
    Dialogue Q A α →
      (α → Dialogue Q A β) →
      Dialogue Q A β
| done result, next => next result
| ask question resume, next =>
    ask question (fun answer => (resume answer).bind next)

instance : Monad (Dialogue Q A) where
  pure := done
  bind := bind

/- The dialogue that asks one question and returns its answer. -/
def query
    (question : Q) : Dialogue Q A (A question) :=
  ask question done

/- Run a dialogue against surroundings that answer in `m`. -/
def run
    {m : Type → Type}
    [Monad m]
    (answer : (question : Q) → m (A question)) :
    Dialogue Q A α → m α
| done result => pure result
| ask question resume => do
    let given ← answer question
    run answer (resume given)

/- A finished dialogue goes straight on. -/
@[simp]
theorem done_bind
    (result : α)
    (next : α → Dialogue Q A β) :
    (done result : Dialogue Q A α) >>= next = next result :=
  rfl

/- A question is asked before the dialogue goes on. -/
@[simp]
theorem ask_bind
    (question : Q)
    (resume : A question → Dialogue Q A α)
    (next : α → Dialogue Q A β) :
    (ask question resume >>= next) =
      ask question (fun answer => resume answer >>= next) :=
  rfl

/- Returning a result is finishing with it. -/
@[simp]
theorem pure_eq_done
    (result : α) :
    (pure result : Dialogue Q A α) = done result :=
  rfl

private theorem bind_done
    (d : Dialogue Q A α) :
    d.bind done = d := by
  induction d with
  | done _ =>
      rfl
  | ask question resume ih =>
      simp only [bind, ih]

private theorem bind_assoc
    {γ : Type}
    (d : Dialogue Q A α)
    (f : α → Dialogue Q A β)
    (g : β → Dialogue Q A γ) :
    (d.bind f).bind g = d.bind (fun a => (f a).bind g) := by
  induction d with
  | done _ =>
      rfl
  | ask question resume ih =>
      simp only [bind, ih]

instance : LawfulMonad (Dialogue Q A) :=
  LawfulMonad.mk'
    (Dialogue Q A)
    (fun d => bind_done d)
    (fun _ _ => rfl)
    (fun d f g => bind_assoc d f g)

/- Running a finished dialogue returns its result. -/
@[simp]
theorem run_done
    {m : Type → Type}
    [Monad m]
    (answer : (question : Q) → m (A question))
    (result : α) :
    (done result).run answer = pure result :=
  rfl

/- Running a question asks the surroundings and goes on. -/
@[simp]
theorem run_ask
    {m : Type → Type}
    [Monad m]
    (answer : (question : Q) → m (A question))
    (question : Q)
    (resume : A question → Dialogue Q A α) :
    (ask question resume).run answer =
      (do
        let given ← answer question
        (resume given).run answer) :=
  rfl

/- Running two dialogues in turn runs the first, then the second. -/
theorem run_bind
    {m : Type → Type}
    [Monad m]
    [LawfulMonad m]
    (answer : (question : Q) → m (A question))
    (d : Dialogue Q A α)
    (next : α → Dialogue Q A β) :
    (d >>= next).run answer =
      d.run answer >>= fun a => (next a).run answer := by
  induction d with
  | done _ =>
      simp
  | ask question resume ih =>
      simp [ih]

end Dialogue

end Fota
