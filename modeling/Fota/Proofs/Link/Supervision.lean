import Fota.Proofs.Link.Moves

/-
  This file defines supervised links: the states that a link can
  come to by any operations, whatever the radio does, with the
  log of what was asked and answered. What holds of a fresh link
  and is kept by every move holds of every supervised link.

  Key definitions include:
    * `Link.Operation`
    * `Link.carryOut`
    * `Link.Supervised`

  The main statements are `Link.moves_carryOut` and
  `Link.Supervised.invariant`.
-/

namespace Fota

namespace Link

------------------------------------------------------------
-- Operations
------------------------------------------------------------

/-
  What may be asked of a supervisor, directly or as the control
  of the link of some technology.
-/
inductive Operation where
| obey (order : Order)
| obeyFor (technology : Technology) (order : Order)
| listen
| stopListening
| process
| setUpdateMode (technology : Technology) (enabled : Bool)
deriving DecidableEq, Repr

/- Carry an operation out. -/
def carryOut :
    Operation → Link → Talk Link
| .obey order, l => do
    let (_, l) ← l.obey order
    return l
| .obeyFor technology order, l => do
    let (_, l) ← l.obeyFor technology order
    return l
| .listen, l => return l.listen
| .stopListening, l => return l.stopListening
| .process, l => l.process
| .setUpdateMode technology enabled, l =>
    l.setUpdateModeFor technology enabled

variable
  {l l' : Link}
  {talk log : List Exchange}
  {result : Except Fault Unit}

theorem moves_obey
    {order : Order}
    (hObey : (l.obey order).Unfolds talk (some (result, l'))) :
    Moves l talk l' := by
  cases order with
  | on =>
      exact (Move.powerUp (powersUp_of_unfolds hObey)).moves
  | off =>
      exact moves_off hObey
  | connect =>
      exact moves_connect hObey
  | disconnect reason =>
      exact (Move.drop (drops_of_unfolds hObey)).moves

theorem moves_obeyFor
    {technology : Technology}
    {order : Order}
    (hObey :
      (l.obeyFor technology order).Unfolds talk
        (some (result, l'))) :
    Moves l talk l' := by
  unfold obeyFor at hObey
  split at hObey
  · exact moves_obey hObey
  · rcases (Dialogue.unfolds_done _ _ _).mp hObey with
      ⟨rfl, hSame⟩
    cases hSame
    exact .nil l

theorem moves_setUpdateModeFor
    {technology : Technology}
    {enabled : Bool}
    (hSet :
      (l.setUpdateModeFor technology enabled).Unfolds talk
        (some l')) :
    Moves l talk l' := by
  unfold setUpdateModeFor setUpdateMode at hSet
  split at hSet
  · split at hSet
    · next hSame =>
        rcases (Dialogue.unfolds_done _ _ _).mp hSet with
          ⟨rfl, rfl⟩
        exact .nil _
    · next hNew =>
        simp only [Talk.suppressData, Dialogue.ask_bind,
          Dialogue.done_bind, Dialogue.unfolds_ask,
          Dialogue.pure_eq_done, Dialogue.unfolds_done] at hSet
        rcases hSet with ⟨_, _, rfl, rfl, rfl⟩
        exact (Move.suppress hNew).moves
  · rcases (Dialogue.unfolds_done _ _ _).mp hSet with ⟨rfl, rfl⟩
    exact .nil _

/- Every operation is a sequence of moves. -/
theorem moves_carryOut
    (operation : Operation)
    (hCarry :
      (carryOut operation l).Unfolds talk (some l')) :
    Moves l talk l' := by
  cases operation with
  | obey order =>
      rw [carryOut, Dialogue.unfolds_bind] at hCarry
      rcases hCarry with
        ⟨⟨result, l₁⟩, talk, _, rfl, hObey, hDone⟩
      rcases (Dialogue.unfolds_done _ _ _).mp hDone with
        ⟨rfl, rfl⟩
      rw [List.append_nil]
      exact moves_obey hObey
  | obeyFor technology order =>
      rw [carryOut, Dialogue.unfolds_bind] at hCarry
      rcases hCarry with
        ⟨⟨result, l₁⟩, talk, _, rfl, hObey, hDone⟩
      rcases (Dialogue.unfolds_done _ _ _).mp hDone with
        ⟨rfl, rfl⟩
      rw [List.append_nil]
      exact moves_obeyFor hObey
  | listen =>
      rcases (Dialogue.unfolds_done _ _ _).mp hCarry with
        ⟨rfl, rfl⟩
      exact (Move.request (.inl rfl)).moves
  | stopListening =>
      rcases (Dialogue.unfolds_done _ _ _).mp hCarry with
        ⟨rfl, rfl⟩
      exact (Move.request (.inr rfl)).moves
  | process =>
      exact moves_process hCarry
  | setUpdateMode technology enabled =>
      exact moves_setUpdateModeFor hCarry

------------------------------------------------------------
-- Supervised Links
------------------------------------------------------------

/-
  A link under supervision from the start, with the log of all
  that its supervisor has asked. The radio answers as it likes.
-/
inductive Supervised
    (technology : Technology)
    (policy : Policy) :
    Link → List Exchange → Prop where
| start
    {l : Link}
    {talk : List Exchange}
    (hStart :
      (start technology policy).Unfolds talk (some l)) :
    Supervised technology policy l talk
| operate
    {l l' : Link}
    {log talk : List Exchange}
    (hLink : Supervised technology policy l log)
    (operation : Operation)
    (hOperate :
      (carryOut operation l).Unfolds talk (some l')) :
    Supervised technology policy l' (log ++ talk)

variable
  {technology : Technology}
  {policy : Policy}

/- Supervision starts with a fresh link, whose status is shown. -/
theorem fresh_of_start
    (hStart : (start technology policy).Unfolds talk (some l)) :
    l = fresh technology policy ∧
      talk = [(fresh technology policy).shows .disconnected] := by
  simp only [start, Talk.showLink, Dialogue.ask_bind,
    Dialogue.done_bind, Dialogue.unfolds_ask,
    Dialogue.pure_eq_done, Dialogue.unfolds_done] at hStart
  rcases hStart with ⟨_, _, rfl, rfl, rfl⟩
  exact ⟨rfl, rfl⟩

/- A link of which the first attempt is under way. -/
def attempting : Link :=
  { fresh .cellular .standard with
    watchdog := ⟨some (.ofNat 7), 300000⟩
    status := .connecting
    powered := true
    initialized := true
    connecting := true }

/- What its supervisor has asked. -/
def firstAttempt : List Exchange :=
  [⟨.showLink .cellular .disconnected, ()⟩] ++
    [⟨.isReady, false⟩, ⟨.now, .ofNat 7⟩,
      ⟨.count .connectAttempt, ()⟩, ⟨.powerOn, .ok ()⟩,
      ⟨.announce .cellular .poweredOn, ()⟩,
      ⟨.hasCredentials, true⟩,
      ⟨.showLink .cellular .connecting, ()⟩,
      ⟨.announce .cellular .connecting, ()⟩,
      ⟨.beginConnect, .ok ()⟩]

theorem supervised_attempting :
    Supervised .cellular .standard attempting firstAttempt := by
  refine
    .operate (l := fresh .cellular .standard) (.start ?_)
      (.obey .connect) ?_
  · exact (Dialogue.follow?_eq_some_iff _ _ _).mp rfl
  · exact (Dialogue.follow?_eq_some_iff _ _ _).mp rfl

section Invariants

variable
  {G : Type}
  {note : G → Exchange → G}
  {Inv : Link → G → Prop}

/-
  An account `g` of the log is brought up to date exchange by
  exchange. What each move keeps of the link and the account is
  kept by moves in turn,
-/
theorem Moves.keeps
    (hMoves : Moves l talk l')
    (hKept : ∀ l talk l' g, Move l talk l' → Inv l g →
      Inv l' (talk.foldl note g))
    {g : G}
    (hInv : Inv l g) :
    Inv l' (talk.foldl note g) := by
  induction hMoves generalizing g with
  | nil l =>
      exact hInv
  | cons hMove hMoves ih =>
      rw [List.foldl_append]
      exact ih (hKept _ _ _ _ hMove hInv)

/- and so it holds whenever a link is supervised. -/
theorem Supervised.invariant
    (hSupervised : Supervised technology policy l log)
    {g : G}
    (hFresh : Inv (fresh technology policy)
      (note g ((fresh technology policy).shows .disconnected)))
    (hKept : ∀ l talk l' g, Move l talk l' → Inv l g →
      Inv l' (talk.foldl note g)) :
    Inv l (log.foldl note g) := by
  induction hSupervised with
  | start hStart =>
      rcases fresh_of_start hStart with ⟨rfl, rfl⟩
      exact hFresh
  | operate hLink operation hOperate ih =>
      rw [List.foldl_append]
      exact (moves_carryOut operation hOperate).keeps hKept ih

end Invariants

end Link

end Fota
