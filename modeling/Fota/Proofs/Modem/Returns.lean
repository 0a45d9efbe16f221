import Mathlib.Logic.Relation
import Fota.Proofs.Modem.Exchanges

/-
  This file shows that a command always comes back, and on time.
  The loops of a client are given here round by round, as they
  would run without any limit. They come to an end, and the
  client returns what they end with. On a port whose clock moves
  while it is idle, that is at the deadline or soon after.

  Key definitions include:
    * `Port.Breaks`
    * `Port.Takes`
    * `Port.Sent`
    * `Port.Unsent`
    * `Port.Punctual`
    * `Client.Takes`
    * `Client.Stops`
    * `Client.Round`
    * `Client.Ends`

  The main statement is `Client.exchange_returns`. It rests on
  `Port.send_returns`, by the bytes that are left to write, on
  `Client.pump_returns`, by the bytes that a port holds, and on
  `Client.await_returns`, by how often it is still found empty.
-/

namespace Fota

open Relation (ReflTransGen)

namespace Port

variable
  {σ : Type}
  [Port σ]
  {s s' : σ}
  {bytes : List UInt8}

------------------------------------------------------------
-- What a Port May Do
------------------------------------------------------------

/- Looking at a port fails, or reading what it has ready. -/
inductive Breaks :
    σ → σ → Prop
| look {s s' : σ} {fault : PortFault} :
    ready s = (.error fault, s') → Breaks s s'
| read {s s₁ s' : σ} {fault : PortFault} :
    ready s = (.ok true, s₁) →
    Port.read Client.chunkSize s₁ = (.error fault, s') →
    Breaks s s'

/- A port has nothing ready, or gives nothing of it. -/
inductive Quiet :
    σ → σ → Prop
| look {s s' : σ} :
    ready s = (.ok false, s') → Quiet s s'
| read {s s₁ s' : σ} :
    ready s = (.ok true, s₁) →
    Port.read Client.chunkSize s₁ = (.ok [], s') →
    Quiet s s'

/- A port gives some bytes that it has ready. -/
inductive Gives
    (bytes : List UInt8) :
    σ → σ → Prop
| read {s s₁ s' : σ} :
    bytes ≠ [] →
    ready s = (.ok true, s₁) →
    Port.read Client.chunkSize s₁ = (.ok bytes, s') →
    Gives bytes s s'

/- A write takes some bytes, and leaves the others to write. -/
inductive Takes :
    List UInt8 × σ → List UInt8 × σ → Prop
| write {bytes : List UInt8} {count : Nat} {s s' : σ} :
    bytes ≠ [] →
    Port.write bytes s = (.ok count, s') →
    Takes (bytes, s) (bytes.drop count, s')

/- After any number of writes that take some bytes, one fails. -/
inductive Fails
    (bytes : List UInt8) :
    σ → σ → Prop
| write {left : List UInt8} {fault : PortFault} {s s₁ s' : σ} :
    ReflTransGen Takes (bytes, s) (left, s₁) →
    left ≠ [] →
    Port.write left s₁ = (.error fault, s') →
    Fails bytes s s'

/- A line and its end are taken, and both are sent off. -/
inductive Sent
    (bytes : List UInt8) :
    σ → σ → Prop
| flush {s s₁ s₂ s' : σ} :
    ReflTransGen Takes (bytes, s) ([], s₁) →
    ReflTransGen Takes (Port.lineEnd, s₁) ([], s₂) →
    Port.flush s₂ = (.ok (), s') →
    Sent bytes s s'

/- A write of a line or its end fails, or sending them off. -/
inductive Unsent
    (bytes : List UInt8) :
    σ → σ → Prop
| text {s s' : σ} :
    Fails bytes s s' →
    Unsent bytes s s'
| lineEnd {s s₁ s' : σ} :
    ReflTransGen Takes (bytes, s) ([], s₁) →
    Fails Port.lineEnd s₁ s' →
    Unsent bytes s s'
| flush {s s₁ s₂ s' : σ} {fault : PortFault} :
    ReflTransGen Takes (bytes, s) ([], s₁) →
    ReflTransGen Takes (Port.lineEnd, s₁) ([], s₂) →
    Port.flush s₂ = (.error fault, s') →
    Unsent bytes s s'

/- A look breaks, finds nothing or gives some bytes. -/
theorem breaks_or_quiet_or_gives
    (s : σ) :
    (∃ s', Breaks s s') ∨ (∃ s', Quiet s s') ∨
      ∃ bytes s', Gives bytes s s' := by
  rcases hReady : ready s with ⟨fault | found, s₁⟩
  · exact .inl ⟨s₁, .look hReady⟩
  · cases found with
    | false =>
        exact .inr (.inl ⟨s₁, .look hReady⟩)
    | true =>
        rcases hRead : Port.read Client.chunkSize s₁ with
          ⟨fault | bytes, s₂⟩
        · exact .inl ⟨s₂, .read hReady hRead⟩
        · by_cases hSome : bytes = []
          · subst hSome
            exact .inr (.inl ⟨s₂, .read hReady hRead⟩)
          · exact
              .inr (.inr ⟨bytes, s₂, .read hSome hReady hRead⟩)

/- Bytes that are given are no longer held. -/
theorem Gives.backlog_lt
    (hGives : Gives bytes s s') :
    backlog s' < backlog s := by
  rcases hGives with ⟨hSome, hReady, hRead⟩
  rcases List.exists_cons_of_ne_nil hSome with
    ⟨byte, more, rfl⟩
  exact
    Nat.lt_of_lt_of_le (backlog_read _ s' _ byte more hRead)
      (backlog_ready s _ hReady)

------------------------------------------------------------
-- Writing Round by Round
------------------------------------------------------------

/- What is left after a write is sent as the rest is. -/
theorem Takes.send_eq
    {x y : List UInt8 × σ}
    (hTakes : Takes x y) :
    send x.1 x.2 = send y.1 y.2 := by
  rcases hTakes with ⟨hSome, hWrite⟩
  exact send_of_took hSome hWrite

theorem Takes.send_eq_of_rounds
    {x y : List UInt8 × σ}
    (hRounds : ReflTransGen Takes x y) :
    send x.1 x.2 = send y.1 y.2 := by
  induction hRounds with
  | refl =>
      rfl
  | tail _ hTakes ih =>
      exact ih.trans hTakes.send_eq

/-
  Writing comes to an end on any port, as each write leaves
  fewer bytes: they are all taken, or a write fails.
-/
theorem send_returns
    (bytes : List UInt8)
    (s : σ) :
    (∃ s', ReflTransGen Takes (bytes, s) ([], s') ∧
        send bytes s = (true, s')) ∨
      ∃ s', Fails bytes s s' ∧ send bytes s = (false, s') := by
  induction hLength : bytes.length using Nat.strongRecOn
    generalizing bytes s with
  | ind size ih =>
      cases bytes with
      | nil =>
          exact .inl ⟨s, .refl, send_nil s⟩
      | cons byte rest =>
          have hSome : byte :: rest ≠ [] :=
            List.cons_ne_nil byte rest
          rcases hWrite : write (byte :: rest) s with
            ⟨fault | count, s₁⟩
          · exact
              .inr
                ⟨s₁, .write .refl hSome hWrite,
                  send_of_failed hSome hWrite⟩
          · have hTakes :
                Takes (byte :: rest, s)
                  ((byte :: rest).drop count, s₁) :=
              .write hSome hWrite
            have hTook := write_some s s₁ byte rest count hWrite
            have hLess :
                ((byte :: rest).drop count).length < size := by
              rw [List.length_drop]
              omega
            have hSend :
                send (byte :: rest) s =
                  send ((byte :: rest).drop count) s₁ :=
              hTakes.send_eq
            rw [hSend]
            rcases ih _ hLess _ s₁ rfl with
              ⟨s', hRounds, hSent⟩ | ⟨s', hFails, hFailed⟩
            · exact .inl ⟨s', .head hTakes hRounds, hSent⟩
            · rcases hFails with ⟨hRounds, hLeft, hFault⟩
              exact
                .inr
                  ⟨s', .write (.head hTakes hRounds) hLeft hFault,
                    hFailed⟩

/- Bytes are sent exactly when writes take all of them, -/
theorem send_eq_true_iff :
    send bytes s = (true, s') ↔
      ReflTransGen Takes (bytes, s) ([], s') := by
  constructor
  · intro hSend
    rcases send_returns bytes s with
      ⟨s₁, hRounds, hSent⟩ | ⟨s₁, -, hFailed⟩
    · cases hSent.symm.trans hSend
      exact hRounds
    · cases hFailed.symm.trans hSend
  · intro hRounds
    exact (Takes.send_eq_of_rounds hRounds).trans (send_nil s')

/- and they are not when one fails. -/
theorem send_eq_false_iff :
    send bytes s = (false, s') ↔ Fails bytes s s' := by
  constructor
  · intro hSend
    rcases send_returns bytes s with
      ⟨s₁, -, hSent⟩ | ⟨s₁, hFails, hFailed⟩
    · cases hSent.symm.trans hSend
    · cases hFailed.symm.trans hSend
      exact hFails
  · rintro ⟨hRounds, hLeft, hFault⟩
    exact
      (Takes.send_eq_of_rounds hRounds).trans
        (send_of_failed hLeft hFault)

/- So a line is sent, or it is not, as its steps say. -/
theorem sendLine_eq_true_iff :
    sendLine bytes s = (true, s') ↔ Sent bytes s s' := by
  unfold sendLine
  constructor
  · intro hSent
    split at hSent
    · cases hSent
    · next s₁ hText =>
        split at hSent
        · cases hSent
        · next s₂ hEnd =>
            split at hSent
            · next s₃ hFlush =>
                cases hSent
                exact
                  .flush (send_eq_true_iff.mp hText)
                    (send_eq_true_iff.mp hEnd) hFlush
            · cases hSent
  · rintro ⟨hText, hEnd, hFlush⟩
    rw [send_eq_true_iff.mpr hText]
    dsimp only
    rw [send_eq_true_iff.mpr hEnd]
    dsimp only
    rw [hFlush]

theorem sendLine_eq_false_iff :
    sendLine bytes s = (false, s') ↔ Unsent bytes s s' := by
  unfold sendLine
  constructor
  · intro hFailed
    split at hFailed
    · next s₁ hText =>
        cases hFailed
        exact .text (send_eq_false_iff.mp hText)
    · next s₁ hText =>
        split at hFailed
        · next s₂ hEnd =>
            cases hFailed
            exact
              .lineEnd (send_eq_true_iff.mp hText)
                (send_eq_false_iff.mp hEnd)
        · next s₂ hEnd =>
            split at hFailed
            · cases hFailed
            · next s₃ hFlush =>
                cases hFailed
                exact
                  .flush (send_eq_true_iff.mp hText)
                    (send_eq_true_iff.mp hEnd) hFlush
  · intro hUnsent
    cases hUnsent with
    | text hFails =>
        rw [send_eq_false_iff.mpr hFails]
    | lineEnd hText hFails =>
        rw [send_eq_true_iff.mpr hText]
        dsimp only
        rw [send_eq_false_iff.mpr hFails]
    | flush hText hEnd hFlush =>
        rw [send_eq_true_iff.mpr hText]
        dsimp only
        rw [send_eq_true_iff.mpr hEnd]
        dsimp only
        rw [hFlush]

------------------------------------------------------------
-- Punctual Ports
------------------------------------------------------------

/-
  In the states in `fine` the clock of a port moves by `idle`
  when nothing is ready, and it stands while bytes are read. A
  read of what is ready gives some bytes, unless it fails, and
  any operation may fail.
-/
structure Punctual
    (fine : σ → Prop)
    (idle : Nat) : Prop where
  moves : 0 < idle
  nothing :
    ∀ s s', fine s → ready s = (.ok false, s') →
      now s' = (now s).after idle
  found :
    ∀ s s', fine s → ready s = (.ok true, s') →
      now s' = now s
  some :
    ∀ s s₁ bytes s', fine s → ready s = (.ok true, s₁) →
      read Client.chunkSize s₁ = (.ok bytes, s') →
        bytes ≠ [] ∧ now s' = now s₁
  ready : ∀ s, fine s → fine (ready s).2
  read : ∀ s room, fine s → fine (read room s).2
  write : ∀ s bytes, fine s → fine (write bytes s).2
  flush : ∀ s, fine s → fine (flush s).2

section Punctual

variable
  {fine : σ → Prop}
  {idle : Nat}

/- Such a port moves its clock when it is quiet. -/
theorem Punctual.quiet
    (hPunctual : Punctual fine idle)
    (hFine : fine s)
    (hQuiet : Quiet s s') :
    fine s' ∧ now s' = (now s).after idle := by
  rcases hQuiet with hReady | ⟨hReady, hRead⟩
  · have hFine' := hPunctual.ready s hFine
    rw [hReady] at hFine'
    exact ⟨hFine', hPunctual.nothing s s' hFine hReady⟩
  · exact
      absurd rfl (hPunctual.some s _ [] s' hFine hReady hRead).1

/- Its clock stands when it gives bytes. -/
theorem Punctual.gives
    (hPunctual : Punctual fine idle)
    (hFine : fine s)
    (hGives : Gives bytes s s') :
    fine s' ∧ now s' = now s := by
  rcases hGives with ⟨-, hReady, hRead⟩
  have hFine₁ := hPunctual.ready s hFine
  rw [hReady] at hFine₁
  have hFine' := hPunctual.read _ Client.chunkSize hFine₁
  rw [hRead] at hFine'
  refine ⟨hFine', ?_⟩
  rw [(hPunctual.some s _ bytes s' hFine hReady hRead).2,
    hPunctual.found s _ hFine hReady]

theorem Punctual.breaks
    (hPunctual : Punctual fine idle)
    (hFine : fine s)
    (hBreaks : Breaks s s') :
    fine s' := by
  rcases hBreaks with hReady | ⟨hReady, hRead⟩
  · have hFine' := hPunctual.ready s hFine
    rwa [hReady] at hFine'
  · have hFine₁ := hPunctual.ready s hFine
    rw [hReady] at hFine₁
    have hFine' := hPunctual.read _ Client.chunkSize hFine₁
    rwa [hRead] at hFine'

end Punctual

end Port

namespace Client

open Port (Breaks Gives Punctual Quiet Sent Unsent)

variable
  {σ : Type}
  [Port σ]

------------------------------------------------------------
-- Reading Round by Round
------------------------------------------------------------

/- The client reads bytes that end nothing, and goes on. -/
inductive Takes
    (awaited : Option String) :
    Heard × σ → Heard × σ → Prop
| read {heard heard' : Heard} {bytes : List UInt8} {s s' : σ} :
    Gives bytes s s' →
    hear awaited bytes heard = (none, heard') →
    Takes awaited (heard, s) (heard', s')

/- The client stops reading, with an outcome or without one. -/
inductive Stops
    (awaited : Option String) :
    Heard × σ → Option Outcome × Heard × σ → Prop
| broken {heard : Heard} {s s' : σ} :
    Breaks s s' →
    Stops awaited (heard, s) (some .error, heard, s')
| quiet {heard : Heard} {s s' : σ} :
    Quiet s s' →
    Stops awaited (heard, s) (none, heard, s')
| ended {heard heard' : Heard} {bytes : List UInt8} {s s' : σ}
    {outcome : Outcome} :
    Gives bytes s s' →
    hear awaited bytes heard = (some outcome, heard') →
    Stops awaited (heard, s) (some outcome, heard', s')

variable
  {awaited : Option String}
  {x y : Heard × σ}

theorem Takes.pump_eq
    (hTakes : Takes awaited x y) :
    pump awaited x.1 x.2 = pump awaited y.1 y.2 := by
  rcases hTakes with ⟨⟨hSome, hReady, hRead⟩, hHear⟩
  rcases List.exists_cons_of_ne_nil hSome with
    ⟨byte, more, rfl⟩
  rw [pump_read hReady hRead, hHear]

theorem pump_of_breaks
    {heard : Heard}
    {s s' : σ}
    (hBreaks : Breaks s s') :
    pump awaited heard s = (some .error, heard, s') := by
  cases hBreaks with
  | look hReady =>
      rw [pump]
      split <;> simp_all
  | read hReady hRead =>
      exact pump_found hReady hRead

theorem pump_of_quiet
    {heard : Heard}
    {s s' : σ}
    (hQuiet : Quiet s s') :
    pump awaited heard s = (none, heard, s') := by
  cases hQuiet with
  | look hReady =>
      exact pump_idle hReady
  | read hReady hRead =>
      exact pump_found hReady hRead

theorem Stops.pump_eq
    {result : Option Outcome × Heard × σ}
    (hStops : Stops awaited x result) :
    pump awaited x.1 x.2 = result := by
  cases hStops with
  | broken hBreaks =>
      exact pump_of_breaks hBreaks
  | quiet hQuiet =>
      exact pump_of_quiet hQuiet
  | ended hGives hHear =>
      rcases hGives with ⟨hSome, hReady, hRead⟩
      rcases List.exists_cons_of_ne_nil hSome with
        ⟨byte, more, rfl⟩
      rw [pump_read hReady hRead, hHear]

/-
  Reading comes to an end on any port, as each round leaves
  fewer bytes in it, and the client returns what it ends with.
-/
theorem pump_returns
    (awaited : Option String)
    (heard : Heard)
    (s : σ) :
    ∃ last, ReflTransGen (Takes awaited) (heard, s) last ∧
      Stops awaited last (pump awaited heard s) := by
  induction hBacklog : Port.backlog s using
    Nat.strongRecOn generalizing s heard with
  | ind size ih =>
      rcases Port.breaks_or_quiet_or_gives s with
        ⟨s', hBreaks⟩ | ⟨s', hQuiet⟩ | ⟨bytes, s', hGives⟩
      · have hStops :
            Stops awaited (heard, s) (some .error, heard, s') :=
          .broken hBreaks
        rw [hStops.pump_eq]
        exact ⟨_, .refl, hStops⟩
      · have hStops :
            Stops awaited (heard, s) (none, heard, s') :=
          .quiet hQuiet
        rw [hStops.pump_eq]
        exact ⟨_, .refl, hStops⟩
      · rcases hHear : hear awaited bytes heard with
          ⟨_ | outcome, heard'⟩
        · have hTakes :
              Takes awaited (heard, s) (heard', s') :=
            .read hGives hHear
          have hLess := hGives.backlog_lt
          rcases ih _ (hBacklog ▸ hLess) heard' s' rfl with
            ⟨last, hRounds, hStops⟩
          rw [hTakes.pump_eq]
          exact ⟨last, .head hTakes hRounds, hStops⟩
        · have hStops :
              Stops awaited (heard, s)
                (some outcome, heard', s') :=
            .ended hGives hHear
          rw [hStops.pump_eq]
          exact ⟨_, .refl, hStops⟩

------------------------------------------------------------
-- Waiting Round by Round
------------------------------------------------------------

/- A round of the wait: bytes are read, or time is left. -/
inductive Round
    (command : String)
    (deadline : Instant) :
    Heard × σ → Heard × σ → Prop
| took {x y : Heard × σ} :
    Takes (some command) x y →
    Round command deadline x y
| waited {x y : Heard × σ} :
    Stops (some command) x (none, y) →
    (Port.now y.2).toNat < deadline.toNat →
    Round command deadline x y

/- The end of the wait: an outcome comes, or time is up. -/
inductive Ends
    (command : String)
    (deadline : Instant) :
    Heard × σ → Outcome × Heard × σ → Prop
| stopped {x y : Heard × σ} {outcome : Outcome} :
    Stops (some command) x (some outcome, y) →
    Ends command deadline x (outcome, y)
| late {x y : Heard × σ} :
    Stops (some command) x (none, y) →
    deadline.toNat ≤ (Port.now y.2).toNat →
    Ends command deadline x (.timeout, y)

variable
  {fine : σ → Prop}
  {idle : Nat}
  {command : String}
  {deadline : Instant}

/- Reading leaves a port fine, and its clock where it was. -/
theorem Takes.punctual
    (hPunctual : Punctual fine idle)
    (hTakes : Takes awaited x y)
    (hFine : fine x.2) :
    fine y.2 ∧ Port.now y.2 = Port.now x.2 := by
  rcases hTakes with ⟨hGives, -⟩
  exact hPunctual.gives hFine hGives

theorem Takes.punctual_rounds
    (hPunctual : Punctual fine idle)
    (hRounds : ReflTransGen (Takes awaited) x y)
    (hFine : fine x.2) :
    fine y.2 ∧ Port.now y.2 = Port.now x.2 := by
  induction hRounds with
  | refl =>
      exact ⟨hFine, rfl⟩
  | tail _ hTakes ih =>
      have hNext := hTakes.punctual hPunctual ih.1
      exact ⟨hNext.1, hNext.2.trans ih.2⟩

/- Without an outcome the port was quiet. -/
theorem Stops.punctual
    (hPunctual : Punctual fine idle)
    (hStops : Stops awaited x (none, y))
    (hFine : fine x.2) :
    fine y.2 ∧ Port.now y.2 = (Port.now x.2).after idle := by
  cases hStops with
  | quiet hQuiet =>
      exact hPunctual.quiet hFine hQuiet

/- A round leaves a punctual port fine. -/
theorem Round.punctual
    (hPunctual : Punctual fine idle)
    (hRound : Round command deadline x y)
    (hFine : fine x.2) :
    fine y.2 := by
  cases hRound with
  | took hTakes =>
      exact (hTakes.punctual hPunctual hFine).1
  | waited hStops =>
      exact (hStops.punctual hPunctual hFine).1

/- The wait goes on as it does from the next round. -/
theorem Round.await_eq
    (hRound : Round command deadline x y) :
    await command deadline x.1 x.2 =
      await command deadline y.1 y.2 := by
  cases hRound with
  | took hTakes =>
      exact await_congr hTakes.pump_eq
  | waited hStops hBelow =>
      exact
        await_again hStops.pump_eq (Nat.not_le_of_lt hBelow)

theorem Ends.await_eq
    {result : Outcome × Heard × σ}
    (hEnds : Ends command deadline x result) :
    await command deadline x.1 x.2 = result := by
  cases hEnds with
  | stopped hStops =>
      exact await_done hStops.pump_eq
  | late hStops hDue =>
      exact await_late hStops.pump_eq hDue

/- Any rounds that come to an end give what the client returns. -/
theorem await_eq_of_ends
    (hRounds : ReflTransGen (Round command deadline) x y)
    {result : Outcome × Heard × σ}
    (hEnds : Ends command deadline y result) :
    await command deadline x.1 x.2 = result := by
  induction hRounds using ReflTransGen.head_induction_on with
  | refl =>
      exact hEnds.await_eq
  | head hRound _ ih =>
      exact hRound.await_eq.trans ih

/-
  The wait comes to an end on any port: after each time that the
  port is quiet, it is quiet less often before the deadline.
-/
theorem await_returns
    (command : String)
    (deadline : Instant)
    (heard : Heard)
    (s : σ) :
    ∃ last,
      ReflTransGen (Round command deadline) (heard, s) last ∧
        Ends command deadline last
          (await command deadline heard s) := by
  induction hLeft : Port.idlesLeft deadline s using
    Nat.strongRecOn generalizing s heard with
  | ind left ih =>
      rcases pump_returns (some command) heard s with
        ⟨last, hTakes, hStops⟩
      have hRounds :
          ReflTransGen (Round command deadline) (heard, s) last :=
        hTakes.lift id fun _ _ => .took
      rcases hPump : pump (some command) heard s with
        ⟨_ | outcome, heard', s'⟩
      · rw [hPump] at hStops
        by_cases hDue :
            deadline.toNat ≤ (Port.now s').toNat
        · have hEnds := Ends.late hStops hDue
          rw [await_late hPump hDue]
          exact ⟨last, hRounds, hEnds⟩
        · have hBelow := Nat.lt_of_not_le hDue
          have hLess := idlesLeft_pump hPump hBelow
          rcases ih _ (hLeft ▸ hLess) heard' s' rfl with
            ⟨last', hRounds', hEnds⟩
          rw [await_again hPump hDue]
          exact
            ⟨last',
              hRounds.trans (.head (.waited hStops hBelow) hRounds'),
              hEnds⟩
      · rw [hPump] at hStops
        rw [await_done hPump]
        exact ⟨last, hRounds, .stopped hStops⟩

------------------------------------------------------------
-- When a Wait Ends
------------------------------------------------------------

/- Hearing lines does not bring the end of the time. -/
theorem hear_ne_timeout
    (awaited : Option String)
    (bytes : List UInt8)
    (heard : Heard) :
    (hear awaited bytes heard).1 ≠ some .timeout := by
  have hLine (line : String) (heard : Heard) :
      (hearLine awaited line heard).1 ≠ some .timeout := by
    have hFinal := Reading.final?_ne_timeout line
    unfold hearLine
    dsimp only
    repeat' split
    all_goals simp_all
  induction bytes generalizing heard with
  | nil =>
      nofun
  | cons byte bytes ih =>
      rw [hear]
      dsimp only
      split
      · exact ih _
      · next line _ =>
          split
          · next hEnded =>
              intro hTime
              have hOutcome := congrArg Prod.fst hEnded
              exact hLine line _ (hOutcome.trans hTime)
          · exact ih _

/- While the wait goes on, the deadline has not passed. -/
theorem now_le_deadline
    (hPunctual : Punctual fine idle)
    (hRounds : ReflTransGen (Round command deadline) x y)
    (hFine : fine x.2)
    (hEarly : (Port.now x.2).toNat ≤ deadline.toNat) :
    fine y.2 ∧ (Port.now y.2).toNat ≤ deadline.toNat := by
  induction hRounds with
  | refl =>
      exact ⟨hFine, hEarly⟩
  | tail _ hRound ih =>
      refine ⟨hRound.punctual hPunctual ih.1, ?_⟩
      cases hRound with
      | took hTakes =>
          rw [(hTakes.punctual hPunctual ih.1).2]
          exact ih.2
      | waited _ hBelow =>
          exact Nat.le_of_lt hBelow

/- So when the time is up, it was so when nothing came last. -/
theorem Ends.timeout
    (hPunctual : Punctual fine idle)
    {result : Heard × σ}
    (hEnds : Ends command deadline x (.timeout, result))
    (hFine : fine x.2)
    (hEarly : (Port.now x.2).toNat ≤ deadline.toNat) :
    deadline.toNat ≤ (Port.now result.2).toNat ∧
      (Port.now result.2).toNat ≤ deadline.toNat + idle := by
  cases hEnds with
  | stopped hStops =>
      cases hStops with
      | ended _ hHear =>
          exact
            absurd (congrArg Prod.fst hHear)
              (hear_ne_timeout _ _ _)
  | late hStops hDue =>
      have hMoved := (hStops.punctual hPunctual hFine).2
      have hAfter := (Port.now x.2).toNat_after idle
      rw [← hMoved] at hAfter
      omega

------------------------------------------------------------
-- Commands
------------------------------------------------------------

/- Hearing what has arrived leaves a port fine. -/
theorem drain_punctual
    (hPunctual : Punctual fine idle)
    {s : σ}
    (hFine : fine s)
    (client : Client) :
    fine (drain client s).2 := by
  rcases pump_returns none ⟨client, []⟩ s with
    ⟨last, hRounds, hStops⟩
  have hLast := (Takes.punctual_rounds hPunctual hRounds hFine).1
  unfold drain
  rcases hPump : pump none ⟨client, []⟩ s with
    ⟨outcome, heard, s'⟩
  rw [hPump] at hStops
  dsimp only
  cases hStops with
  | broken hBreaks =>
      exact hPunctual.breaks hLast hBreaks
  | quiet hQuiet =>
      exact (hPunctual.quiet hLast hQuiet).1
  | ended hGives =>
      exact (hPunctual.gives hLast hGives).1

/- Sending a line does so, too. -/
theorem writes_punctual
    (hPunctual : Punctual fine idle)
    {x y : List UInt8 × σ}
    (hRounds : ReflTransGen Port.Takes x y)
    (hFine : fine x.2) :
    fine y.2 := by
  induction hRounds with
  | refl =>
      exact hFine
  | tail _ hTakes ih =>
      rcases hTakes with @⟨bytes, count, s, s', -, hWrite⟩
      have hKept := hPunctual.write s bytes ih
      rwa [hWrite] at hKept

theorem sent_punctual
    (hPunctual : Punctual fine idle)
    {s s' : σ}
    {bytes : List UInt8}
    (hFine : fine s)
    (hSent : Sent bytes s s') :
    fine s' := by
  rcases hSent with ⟨hText, hEnd, hFlush⟩
  have hFine₁ := writes_punctual hPunctual hText hFine
  have hFine₂ := writes_punctual hPunctual hEnd hFine₁
  have hKept := hPunctual.flush _ hFine₂
  rwa [hFlush] at hKept

theorem exchange_of_unsent
    {client : Client}
    {s s' : σ}
    (patience : UInt32)
    (hFits : command.utf8ByteSize ≤ Command.sizeMax)
    (hUnsent :
      Unsent (Text.utf8 command) (drain client s).2 s') :
    exchange command patience client s =
      (.refused, (drain client s).1, s') := by
  unfold exchange
  rw [if_neg (Nat.not_lt_of_le hFits)]
  dsimp only
  rw [Port.sendLine_eq_false_iff.mpr hUnsent]

theorem exchange_of_sent
    {client : Client}
    {s s₁ : σ}
    (patience : UInt32)
    (hFits : command.utf8ByteSize ≤ Command.sizeMax)
    (hSent :
      Sent (Text.utf8 command) (drain client s).2 s₁) :
    exchange command patience client s =
      let result :=
        await command ((Port.now s₁).after patience.toNat)
          ⟨(drain client s).1, []⟩ s₁
      (⟨result.1, result.2.1.lines⟩, result.2.1.client,
        result.2.2) := by
  unfold exchange
  rw [if_neg (Nat.not_lt_of_le hFits)]
  dsimp only
  rw [Port.sendLine_eq_true_iff.mpr hSent]

------------------------------------------------------------
-- Punctual Exchanges
------------------------------------------------------------

/-
  A client always comes back, from hearing what has arrived and
  from a command, on any port whose clock moves while it is idle.

  A command that is too long is refused without waiting, and so
  is one of which any write fails, after whatever writes have
  taken some of it, or which is not sent off. Any other is taken
  to its end, and has its reply when the rounds of the wait come
  to an end, which they do. It times out at the deadline at the
  earliest, and at most one idle look later, as long as the
  clock does not stop before. If the port breaks in any round,
  then the reply is an error, with the port as the failure left
  it.
-/
theorem exchange_returns
    (hPunctual : Punctual fine idle)
    {s : σ}
    (hFine : fine s)
    (command : String)
    (patience : UInt32)
    (client : Client) :
    (∃ last result,
      ReflTransGen (Takes none) (⟨client, []⟩, s) last ∧
        Stops none last result ∧
          drain client s = (result.2.1.client, result.2.2)) ∧
    (Command.sizeMax < command.utf8ByteSize →
      exchange command patience client s =
        (.refused, client, s)) ∧
    (command.utf8ByteSize ≤ Command.sizeMax →
      ((∃ s', Unsent (Text.utf8 command) (drain client s).2 s') ∨
        ∃ s₁, Sent (Text.utf8 command) (drain client s).2 s₁) ∧
      (∀ s',
        Unsent (Text.utf8 command) (drain client s).2 s' →
          exchange command patience client s =
            (.refused, (drain client s).1, s')) ∧
      ∀ s₁,
        Sent (Text.utf8 command) (drain client s).2 s₁ →
          let due := (Port.now s₁).toNat + patience.toNat
          let deadline := (Port.now s₁).after patience.toNat
          let start := (⟨(drain client s).1, []⟩, s₁)
          ∃ last outcome heard s',
            ReflTransGen (Round command deadline) start last ∧
              Ends command deadline last (outcome, heard, s') ∧
                exchange command patience client s =
                  (⟨outcome, heard.lines⟩, heard.client, s') ∧
              (outcome = .timeout → due ≤ Instant.last →
                due ≤ (Port.now s').toNat ∧
                  (Port.now s').toNat ≤ due + idle) ∧
              ∀ x broken,
                ReflTransGen (Round command deadline) start x →
                Breaks x.2 broken →
                  outcome = .error ∧ heard = x.1 ∧
                    s' = broken) := by
  refine
    ⟨?_, fun hLong => exchange_of_long hLong patience client s,
      fun hFits =>
        ⟨?_, fun _ => exchange_of_unsent patience hFits, ?_⟩⟩
  · rcases pump_returns none ⟨client, []⟩ s with
      ⟨last, hRounds, hStops⟩
    exact ⟨last, _, hRounds, hStops, rfl⟩
  · rcases hLine :
        Port.sendLine (Text.utf8 command) (drain client s).2 with
      ⟨_ | _, s'⟩
    · exact .inl ⟨s', Port.sendLine_eq_false_iff.mp hLine⟩
    · exact .inr ⟨s', Port.sendLine_eq_true_iff.mp hLine⟩
  · intro s₁ hSent due deadline start
    have hFine₁ : fine s₁ :=
      sent_punctual hPunctual
        (drain_punctual hPunctual hFine client) hSent
    have hDeadline :=
      (Port.now s₁).toNat_after patience.toNat
    have hEarly :
        (Port.now s₁).toNat ≤
          ((Port.now s₁).after patience.toNat).toNat := by
      have hLast := (Port.now s₁).toNat_le_last
      omega
    have hExchange := exchange_of_sent patience hFits hSent
    rcases await_returns command
      ((Port.now s₁).after patience.toNat)
      ⟨(drain client s).1, []⟩ s₁ with
      ⟨last, hRounds, hEnds⟩
    rcases hAwait :
      await command ((Port.now s₁).after patience.toNat)
        ⟨(drain client s).1, []⟩ s₁ with
      ⟨outcome, heard, s'⟩
    rw [hAwait] at hEnds hExchange
    refine
      ⟨last, outcome, heard, s', hRounds, hEnds, hExchange, ?_,
        ?_⟩
    · rintro rfl hLast
      rcases now_le_deadline hPunctual hRounds hFine₁ hEarly with
        ⟨hFineLast, hBefore⟩
      have hTimes :=
        hEnds.timeout hPunctual hFineLast hBefore
      dsimp only at hTimes
      omega
    · intro x broken hRounds hBreaks
      have hBroken :=
        await_eq_of_ends hRounds (.stopped (.broken hBreaks))
      rw [hAwait] at hBroken
      cases hBroken
      exact ⟨rfl, rfl, rfl⟩

end Client

------------------------------------------------------------
-- Punctual Wires
------------------------------------------------------------

namespace Bench

namespace Wire

/- A wire on which some time passes when it is found empty. -/
def Idles
    (idle : Nat)
    (w : Wire) : Prop :=
  w.idle = idle

theorem idles_sendOff
    {idle : Nat}
    {w : Wire}
    (hIdles : Idles idle w)
    (line : List UInt8) :
    Idles idle (w.sendOff true line) :=
  (kept_sendOff w line).2.trans hIdles

/- Such a wire is punctual, whichever of its operations fail. -/
theorem punctual_idles
    {idle : Nat}
    (hIdle : 0 < idle) :
    Port.Punctual (Idles idle) idle where
  moves := hIdle
  nothing := by
    intro w w' hIdles hReady
    change w.ready = _ at hReady
    unfold ready look at hReady
    split at hReady
    · cases hReady
    · split at hReady <;> cases hReady
      exact congrArg w.clock.after hIdles
  found := by
    intro w w' hIdles hReady
    change w.ready = _ at hReady
    unfold ready look at hReady
    split at hReady
    · cases hReady
    · split at hReady <;> cases hReady
      rfl
  some := by
    intro w w₁ bytes w' hIdles hReady hRead
    have hClock := clock_read 1 Client.chunkSize w₁
    change w.ready = _ at hReady
    change w₁.read 1 Client.chunkSize = _ at hRead
    unfold ready look at hReady
    split at hReady
    · cases hReady
    · split at hReady <;> cases hReady
      next hDue =>
        refine ⟨?_, ?_⟩
        · rintro rfl
          exact absurd hRead (read_ne_nil (by decide) hDue)
        · rwa [hRead] at hClock
  ready := by
    intro w hIdles
    change Idles idle w.ready.2
    unfold ready look
    split
    · exact hIdles
    · split <;> exact hIdles
  read := by
    intro w room hIdles
    change Idles idle (w.read 1 room).2
    unfold read
    split <;> exact hIdles
  write := by
    intro w bytes hIdles
    change Idles idle (w.write true bytes).2
    unfold write
    split
    · exact hIdles
    · dsimp only
      split
      · exact hIdles
      · apply idles_sendOff
        exact hIdles
  flush := by
    intro w hIdles
    change Idles idle w.flush.2
    unfold flush
    split <;> exact hIdles

/- A wire that cannot be asked for bytes. -/
def deaf : Wire :=
  { Client.silent with trouble.readyFails := true }

end Wire

end Bench

namespace Client

open Bench.Wire (Idles deaf punctual_idles)
open Port (Sent)

theorem drain_deaf :
    drain .fresh deaf = (.fresh, deaf) := by
  have hStops :
      Stops none (⟨.fresh, []⟩, deaf)
        (some .error, ⟨.fresh, []⟩, deaf) :=
    .broken (.look rfl)
  rw [drain, hStops.pump_eq]

/- A wire that takes whatever is written sends a command. -/
theorem sent_at
    {w w₁ w₂ w₃ : Bench.Wire}
    (hText :
      Port.write (Text.utf8 "AT") w =
        (.ok (Text.utf8 "AT").length, w₁))
    (hEnd :
      Port.write Port.lineEnd w₁ =
        (.ok Port.lineEnd.length, w₂))
    (hFlush : Port.flush w₂ = (.ok (), w₃)) :
    Sent (Text.utf8 "AT") w w₃ :=
  Port.sendLine_eq_true_iff.mp
    (Port.sendLine_of_took_all (by decide) hText hEnd hFlush)

/- A command times out on the first and breaks on the second. -/
theorem exchange_returns_from_silence :
    Idles 7 silent ∧ Idles 7 deaf ∧
      (∃ s',
        exchange "AT" 3 .fresh silent =
            (⟨.timeout, []⟩, .fresh, s') ∧
          10 ≤ (Port.now s').toNat ∧
            (Port.now s').toNat ≤ 17) ∧
      ∃ s',
        exchange "AT" 3 .fresh deaf =
            (⟨.error, []⟩, .fresh, s') ∧
          Port.now s' = Port.now deaf := by
  have hPunctual : Port.Punctual (Idles 7) 7 :=
    punctual_idles (by decide)
  have hSilent : Idles 7 silent :=
    rfl
  have hDeaf : Idles 7 deaf :=
    rfl
  refine ⟨hSilent, hDeaf, ?_, ?_⟩
  · have hReturns :=
      ((exchange_returns hPunctual hSilent "AT" 3 .fresh).2.2
        (by decide)).2.2
    rw [drain_silent] at hReturns
    rcases hReturns _ (sent_at rfl rfl rfl) with
      ⟨last, outcome, heard, s', -, -, hExchange, hTime, -⟩
    rcases exchange_silent with ⟨s'', hRun⟩
    have hSame := hRun.symm.trans hExchange
    rw [Prod.mk.injEq, Prod.mk.injEq, Reply.mk.injEq] at hSame
    rcases hSame with ⟨⟨rfl, -⟩, -, rfl⟩
    exact ⟨_, hRun, hTime rfl (by decide)⟩
  · have hReturns :=
      ((exchange_returns hPunctual hDeaf "AT" 3 .fresh).2.2
        (by decide)).2.2
    rw [drain_deaf] at hReturns
    rcases hReturns _ (sent_at rfl rfl rfl) with
      ⟨last, outcome, heard, s', -, -, hExchange, -, hBreaks⟩
    rcases hBreaks _ _ .refl (.look rfl) with ⟨rfl, rfl, rfl⟩
    exact ⟨_, hExchange, rfl⟩

end Client

end Fota
