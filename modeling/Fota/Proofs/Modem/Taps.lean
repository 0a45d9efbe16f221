import Fota.Proofs.Modem.Readings

/-
  This file defines ports that work and ports with a tap, which
  logs what is taken from a port and what is given to it. It
  shows that a client hears exactly the bytes that it takes from
  a port that works, in order, and that the tap changes nothing.

  Key definitions include:
    * `Port.Works`
    * `Port.Looks`
    * `Port.Event`
    * `Port.Event.Sends`
    * `Port.Tapped`
    * `Client.Follows`

  The main statements are `Client.pump_works`,
  `Client.await_works` and `Port.sendLine_works`.
-/

namespace Fota

------------------------------------------------------------
-- Ports that Work
------------------------------------------------------------

namespace Port

variable
  {σ : Type}
  [Port σ]

/-
  In the states in `fine` a port works: nothing fails, and a
  read of what is ready gives some bytes. A write takes some of
  the bytes, maybe not all.
-/
structure Works
    (fine : σ → Prop) : Prop where
  look :
    ∀ s, fine s →
      (∃ s', ready s = (.ok false, s') ∧ fine s') ∨
        ∃ s₁ byte bytes s',
          ready s = (.ok true, s₁) ∧
            read Client.chunkSize s₁ =
                (.ok (byte :: bytes), s') ∧
              fine s'
  write :
    ∀ s bytes, fine s → bytes ≠ [] →
      ∃ count s', write bytes s = (.ok count, s') ∧ fine s'
  flush :
    ∀ s, fine s → ∃ s', flush s = (.ok (), s') ∧ fine s'

------------------------------------------------------------
-- Taps
------------------------------------------------------------

/- A look at a port: bytes are taken, or nothing is ready. -/
inductive Look where
| took (bytes : List UInt8)
| idle (time : Instant)
deriving DecidableEq, Repr

/- The bytes that are taken. -/
def Look.bytes :
    Look → List UInt8
| took bytes => bytes
| idle _ => []

/-
  What passes a tap: looks, the bytes that a write takes, and
  each flush with its time.
-/
inductive Event where
| looked (look : Look)
| wrote (bytes : List UInt8)
| flushed (time : Instant)
deriving DecidableEq, Repr

/- Looks, one after the other. There is at least one. -/
structure Looks where
  before : List Look
  last : Look
deriving DecidableEq, Repr

namespace Looks

/- All looks, in order. -/
def all
    (looks : Looks) : List Look :=
  looks.before ++ [looks.last]

/- The bytes that are taken. -/
def bytes
    (looks : Looks) : List UInt8 :=
  looks.all.flatMap Look.bytes

/- The bytes that are taken before the last look. -/
def bytesBefore
    (looks : Looks) : List UInt8 :=
  looks.before.flatMap Look.bytes

/- What a tap logs of the looks. -/
def events
    (looks : Looks) : List Event :=
  looks.all.map .looked

/- Looks that are followed by others. -/
def append
    (first second : Looks) : Looks where
  before := first.all ++ second.before
  last := second.last

theorem bytes_eq
    (looks : Looks) :
    looks.bytes = looks.bytesBefore ++ looks.last.bytes := by
  simp [bytes, all, bytesBefore]

theorem bytes_append
    (first second : Looks) :
    (first.append second).bytes =
      first.bytes ++ second.bytes := by
  simp [bytes, all, append]

theorem bytesBefore_append
    (first second : Looks) :
    (first.append second).bytesBefore =
      first.bytes ++ second.bytesBefore := by
  simp [bytes, bytesBefore, append]

theorem events_append
    (first second : Looks) :
    (first.append second).events =
      first.events ++ second.events := by
  simp [events, all, append]

/- Before the last look, none is idle at a deadline or later. -/
def Within
    (deadline : Instant)
    (looks : Looks) : Prop :=
  ∀ time, .idle time ∈ looks.before →
    time.toNat < deadline.toNat

/- The last look is idle, at a deadline or later. -/
def Exhaust
    (deadline : Instant)
    (looks : Looks) : Prop :=
  ∃ time, looks.last = .idle time ∧ deadline.toNat ≤ time.toNat

theorem Within.append
    {deadline : Instant}
    {first second : Looks}
    (hFirst : first.Within deadline)
    (hLast : ∀ time, first.last = .idle time →
      time.toNat < deadline.toNat)
    (hSecond : second.Within deadline) :
    (first.append second).Within deadline := by
  intro time hMem
  unfold Looks.append all at hMem
  rw [List.mem_append, List.mem_append, List.mem_singleton]
    at hMem
  rcases hMem with (hBefore | hIdle) | hAfter
  · exact hFirst time hBefore
  · exact hLast time hIdle.symm
  · exact hSecond time hAfter

end Looks

/- A port with a tap and its log. -/
structure Tapped
    (σ : Type) where
  port : σ
  log : List Event

/- A port whose tap has logged nothing. -/
def tap
    {σ : Type}
    (s : σ) : Tapped σ where
  port := s
  log := []

/- What is logged of an operation, when it works. -/
def Event.ofResult
    {α : Type}
    (event : α → Event) :
    Except PortFault α → List Event
| .ok a => [event a]
| .error _ => []

/- What is logged when a port is asked if anything is ready. -/
def Event.ofReady
    (time : Instant) :
    Except PortFault Bool → List Event
| .ok false => [.looked (.idle time)]
| _ => []

instance : Port (Tapped σ) where
  now t := now t.port
  ready t :=
    let found := ready t.port
    (found.1,
      ⟨found.2, t.log ++ Event.ofReady (now found.2) found.1⟩)
  read room t :=
    let got := read room t.port
    (got.1,
      ⟨got.2,
        t.log ++
          Event.ofResult (fun bytes => .looked (.took bytes))
            got.1⟩)
  write bytes t :=
    let put := write bytes t.port
    (put.1,
      ⟨put.2,
        t.log ++
          Event.ofResult
            (fun count => .wrote (bytes.take count)) put.1⟩)
  flush t :=
    let sent := flush t.port
    (sent.1,
      ⟨sent.2,
        t.log ++
          Event.ofResult
            (fun _ => .flushed (now sent.2)) sent.1⟩)
  backlog t := backlog t.port
  idlesLeft time t := idlesLeft time t.port
  backlog_ready := by
    intro t t' hReady
    rw [Prod.mk.injEq] at hReady
    have hPort := backlog_ready t.port (ready t.port).2
    rw [← hReady.2]
    exact hPort (Prod.ext hReady.1 rfl)
  backlog_read := by
    intro t t' room b bs hRead
    rw [Prod.mk.injEq] at hRead
    have hPort :=
      backlog_read t.port (read room t.port).2 room b bs
    rw [← hRead.2]
    exact hPort (Prod.ext hRead.1 rfl)
  idlesLeft_ready := by
    intro time t t' hReady hEarly
    rw [Prod.mk.injEq] at hReady
    rw [← hReady.2] at hEarly ⊢
    exact
      idlesLeft_ready time t.port _ (Prod.ext hReady.1 rfl)
        hEarly
  idlesLeft_read_none := by
    intro time t t₁ t' room hRoom hReady hRead hEarly
    rw [Prod.mk.injEq] at hReady hRead
    rw [← hRead.2] at hEarly ⊢
    rw [← hReady.2] at hRead hEarly ⊢
    exact
      idlesLeft_read_none time t.port _ _ room hRoom
        (Prod.ext hReady.1 rfl) (Prod.ext hRead.1 rfl) hEarly
  idlesLeft_read := by
    intro time t t₁ t' room b bs hReady hRead
    rw [Prod.mk.injEq] at hReady hRead
    rw [← hRead.2]
    rw [← hReady.2] at hRead ⊢
    exact
      idlesLeft_read time t.port _ _ room b bs
        (Prod.ext hReady.1 rfl) (Prod.ext hRead.1 rfl)
  write_some := by
    intro t t' b bs count hWrite
    rw [Prod.mk.injEq] at hWrite
    exact
      write_some t.port _ b bs count (Prod.ext hWrite.1 rfl)

/- Bytes are taken by writes, in pieces of any sizes. -/
def Event.Writes
    (bytes : List UInt8)
    (events : List Event) : Prop :=
  ∃ pieces : List (List UInt8),
    events = pieces.map .wrote ∧ pieces.flatten = bytes

/- A line is taken with its end, and sent off at some time. -/
def Event.Sends
    (bytes : List UInt8)
    (time : Instant)
    (events : List Event) : Prop :=
  ∃ writes : List Event,
    Event.Writes (bytes ++ lineEnd) writes ∧
      events = writes ++ [.flushed time]

theorem Event.Writes.append
    {first second : List UInt8}
    {events more : List Event}
    (hFirst : Event.Writes first events)
    (hSecond : Event.Writes second more) :
    Event.Writes (first ++ second) (events ++ more) := by
  rcases hFirst with ⟨pieces, rfl, rfl⟩
  rcases hSecond with ⟨others, rfl, rfl⟩
  exact
    ⟨pieces ++ others, List.map_append.symm,
      List.flatten_append⟩

variable
  {fine : σ → Prop}
  {s s' : σ}
  {log : List Event}

theorem idle_tapped
    (hReady : ready s = (.ok false, s')) :
    ready (⟨s, log⟩ : Tapped σ) =
      (.ok false, ⟨s', log ++ [.looked (.idle (now s'))]⟩) := by
  simp [ready, hReady, Event.ofReady]

theorem ready_tapped
    (hReady : ready s = (.ok true, s')) :
    ready (⟨s, log⟩ : Tapped σ) = (.ok true, ⟨s', log⟩) := by
  simp [ready, hReady, Event.ofReady]

theorem read_tapped
    {room : Nat}
    {bytes : List UInt8}
    (hRead : read room s = (.ok bytes, s')) :
    read room (⟨s, log⟩ : Tapped σ) =
      (.ok bytes, ⟨s', log ++ [.looked (.took bytes)]⟩) := by
  simp [read, hRead, Event.ofResult]

theorem write_tapped
    {bytes : List UInt8}
    {count : Nat}
    (hWrite : write bytes s = (.ok count, s')) :
    write bytes (⟨s, log⟩ : Tapped σ) =
      (.ok count, ⟨s', log ++ [.wrote (bytes.take count)]⟩) := by
  simp [write, hWrite, Event.ofResult]

theorem flush_tapped
    (hFlush : flush s = (.ok (), s')) :
    flush (⟨s, log⟩ : Tapped σ) =
      (.ok (), ⟨s', log ++ [.flushed (now s')]⟩) := by
  simp [flush, hFlush, Event.ofResult]

/-
  A port that works takes all bytes that are sent, in any number
  of writes, and the tap logs them. Each write leaves fewer.
-/
theorem send_works
    (hWorks : Works fine)
    (hFine : fine s)
    (bytes : List UInt8)
    (log : List Event) :
    ∃ s' events,
      send bytes s = (true, s') ∧
        send bytes (⟨s, log⟩ : Tapped σ) =
            (true, ⟨s', log ++ events⟩) ∧
          Event.Writes bytes events ∧ fine s' := by
  induction hLength : bytes.length using Nat.strongRecOn
    generalizing s bytes log with
  | ind size ih =>
      cases bytes with
      | nil =>
          exact
            ⟨s, [], send_nil s, by simp, ⟨[], rfl, rfl⟩, hFine⟩
      | cons byte rest =>
          have hSome : byte :: rest ≠ [] :=
            List.cons_ne_nil byte rest
          rcases hWorks.write s (byte :: rest) hFine hSome with
            ⟨count, s₁, hWrite, hFine₁⟩
          have hTook := write_some s s₁ byte rest count hWrite
          have hLess :
              ((byte :: rest).drop count).length < size := by
            rw [List.length_drop]
            omega
          let taken := (byte :: rest).take count
          rcases ih _ hLess hFine₁ _ (log ++ [.wrote taken]) rfl
            with ⟨s', events, hSend, hTapped, hWrites, hFine'⟩
          have hTaken : Event.Writes taken [.wrote taken] :=
            ⟨[taken], rfl, List.flatten_singleton⟩
          refine
            ⟨s', [.wrote taken] ++ events, ?_, ?_, ?_, hFine'⟩
          · rw [send_of_took hSome hWrite]
            exact hSend
          · rw [send_of_took hSome (write_tapped hWrite),
              ← List.append_assoc]
            exact hTapped
          · have hAll := hTaken.append hWrites
            rwa [List.take_append_drop] at hAll

/- It sends a line; the clock is logged once that is done. -/
theorem sendLine_works
    (hWorks : Works fine)
    (hFine : fine s)
    (bytes : List UInt8)
    (log : List Event) :
    ∃ s' events,
      sendLine bytes s = (true, s') ∧
        sendLine bytes (⟨s, log⟩ : Tapped σ) =
            (true, ⟨s', log ++ events⟩) ∧
          Event.Sends bytes (now s') events ∧ fine s' := by
  rcases send_works hWorks hFine bytes log with
    ⟨s₁, text, hText, hTextTapped, hTextWrites, hFine₁⟩
  rcases send_works hWorks hFine₁ lineEnd (log ++ text) with
    ⟨s₂, stop, hEnd, hEndTapped, hEndWrites, hFine₂⟩
  rcases hWorks.flush s₂ hFine₂ with ⟨s₃, hFlush, hFine₃⟩
  refine
    ⟨s₃, text ++ stop ++ [.flushed (now s₃)], ?_, ?_,
      ⟨_, hTextWrites.append hEndWrites, rfl⟩, hFine₃⟩
  · simp [sendLine, hText, hEnd, hFlush]
  · unfold sendLine
    rw [hTextTapped]
    dsimp only
    rw [hEndTapped]
    dsimp only
    rw [flush_tapped hFlush]
    simp only [List.append_assoc]

end Port

------------------------------------------------------------
-- Hearing Looks
------------------------------------------------------------

namespace Client

open Port (Event Looks Tapped Works)

/-
  Hearing what is taken in looks leads to an outcome, if any,
  and to what is then heard. Only the last look brings it.
-/
structure Follows
    (awaited : Option String)
    (heard : Heard)
    (looks : Looks)
    (outcome : Option Outcome)
    (heard' : Heard) : Prop where
  hears : hear awaited looks.bytes heard = (outcome, heard')
  goesOn : (hear awaited looks.bytesBefore heard).1 = none

variable
  {awaited : Option String}
  {heard heard' heard'' : Heard}
  {looks more : Looks}
  {outcome : Option Outcome}

theorem follows_idle
    (time : Instant) :
    Follows awaited heard ⟨[], .idle time⟩ none heard :=
  ⟨rfl, rfl⟩

theorem follows_took
    {bytes : List UInt8}
    (hHear : hear awaited bytes heard = (outcome, heard')) :
    Follows awaited heard ⟨[], .took bytes⟩ outcome heard' where
  hears := by
    rw [Looks.bytes_eq]
    exact hHear
  goesOn := rfl

theorem Follows.append
    (hFirst : Follows awaited heard looks none heard')
    (hSecond : Follows awaited heard' more outcome heard'') :
    Follows awaited heard (looks.append more) outcome
      heard'' where
  hears := by
    rw [Looks.bytes_append, hear_append, hFirst.hears]
    exact hSecond.hears
  goesOn := by
    rw [Looks.bytesBefore_append, hear_append, hFirst.hears]
    exact hSecond.goesOn

------------------------------------------------------------
-- Hearing from a Port
------------------------------------------------------------

variable
  {σ : Type}
  [Port σ]
  {fine : σ → Prop}
  {s s₁ s₂ : σ}

theorem pump_idle
    (hReady : Port.ready s = (.ok false, s₁)) :
    pump awaited heard s = (none, heard, s₁) := by
  rw [pump]
  split <;> simp_all

/- What is ready is read, and what is read decides. -/
theorem pump_found
    {got : Except PortFault (List UInt8)}
    (hReady : Port.ready s = (.ok true, s₁))
    (hRead : Port.read chunkSize s₁ = (got, s₂)) :
    pump awaited heard s =
      match got with
      | .error _ => (some .error, heard, s₂)
      | .ok [] => (none, heard, s₂)
      | .ok (byte :: bytes) =>
          match hear awaited (byte :: bytes) heard with
          | (some outcome, heard) => (some outcome, heard, s₂)
          | (none, heard) => pump awaited heard s₂ := by
  rw [pump]
  split
  · simp_all
  · simp_all
  · next hFound =>
      rw [hReady] at hFound
      cases hFound
      split <;>
        next hGot =>
          rw [hRead] at hGot
          cases hGot
          rfl

theorem pump_read
    {byte : UInt8}
    {bytes : List UInt8}
    (hReady : Port.ready s = (.ok true, s₁))
    (hRead :
      Port.read chunkSize s₁ = (.ok (byte :: bytes), s₂)) :
    pump awaited heard s =
      match hear awaited (byte :: bytes) heard with
      | (some outcome, heard) => (some outcome, heard, s₂)
      | (none, heard) => pump awaited heard s₂ :=
  pump_found hReady hRead

/-
  From a port that works, what is ready is heard. Nothing is
  ready then, unless an outcome came.
-/
theorem pump_works
    (hWorks : Works fine)
    (hFine : fine s)
    (awaited : Option String)
    (heard : Heard)
    (log : List Event) :
    ∃ (looks : Looks) (outcome : Option Outcome) (heard' : Heard)
      (s' : σ),
      pump awaited heard s = (outcome, heard', s') ∧
        pump awaited heard (⟨s, log⟩ : Tapped σ) =
            (outcome, heard', ⟨s', log ++ looks.events⟩) ∧
          Follows awaited heard looks outcome heard' ∧
            fine s' ∧
              (∀ time, .idle time ∉ looks.before) ∧
                (outcome = none →
                  looks.last = .idle (Port.now s')) := by
  -- Each read leaves fewer bytes in the port.
  induction hBacklog : Port.backlog s using
    Nat.strongRecOn generalizing s heard log with
  | ind size ih =>
      rcases hWorks.look s hFine with
        ⟨s', hReady, hFine'⟩ |
          ⟨s₁, byte, bytes, s₂, hReady, hRead, hFine₂⟩
      · exact
          ⟨⟨[], .idle (Port.now s')⟩, none, heard, s',
            pump_idle hReady, pump_idle (Port.idle_tapped hReady),
            follows_idle _, hFine', fun _ => List.not_mem_nil,
            fun _ => rfl⟩
      · let look : Looks := ⟨[], .took (byte :: bytes)⟩
        rw [pump_read hReady hRead,
          pump_read (Port.ready_tapped hReady)
            (Port.read_tapped hRead)]
        cases hHear : hear awaited (byte :: bytes) heard with
        | mk outcome heard₁ =>
            cases outcome with
            | some outcome =>
                exact
                  ⟨look, some outcome, heard₁, s₂, rfl, rfl,
                    follows_took hHear, hFine₂,
                    fun _ => List.not_mem_nil, nofun⟩
            | none =>
                have hLook := Port.backlog_ready s s₁ hReady
                have hLess :=
                  Port.backlog_read s₁ s₂ _ _ _ hRead
                rcases ih (Port.backlog s₂) (by omega) hFine₂
                  heard₁ (log ++ look.events) rfl with
                  ⟨looks, outcome, heard', s', hPump,
                    hPumpTapped, hFollows, hFine', hBusy, hEnd⟩
                refine
                  ⟨look.append looks, outcome, heard', s', hPump,
                    ?_, (follows_took hHear).append hFollows,
                    hFine', ?_, hEnd⟩
                · rw [Looks.events_append, ← List.append_assoc]
                  exact hPumpTapped
                · intro time hMem
                  rcases List.mem_cons.mp hMem with hTook | hMem
                  · cases hTook
                  · exact hBusy time hMem

section Await

variable
  {command : String}
  {deadline : Instant}

/- A wait goes on as its first round says. -/
theorem await_eq :
    await command deadline heard s =
      match pump (some command) heard s with
      | (some outcome, heard, s₁) => (outcome, heard, s₁)
      | (none, heard, s₁) =>
          if deadline.toNat ≤ (Port.now s₁).toNat then
            (.timeout, heard, s₁)
          else
            await command deadline heard s₁ := by
  rw [await]
  split
  · next hPump =>
      rw [hPump]
  · next hPump =>
      rw [hPump]
      rfl

theorem await_congr
    {s' : σ}
    (hPump :
      pump (some command) heard s =
        pump (some command) heard' s') :
    await command deadline heard s =
      await command deadline heard' s' := by
  rw [await_eq, await_eq, hPump]

theorem await_done
    {outcome : Outcome}
    (hPump :
      pump (some command) heard s =
        (some outcome, heard', s₁)) :
    await command deadline heard s = (outcome, heard', s₁) := by
  rw [await_eq, hPump]

theorem await_late
    (hPump : pump (some command) heard s = (none, heard', s₁))
    (hDue : deadline.toNat ≤ (Port.now s₁).toNat) :
    await command deadline heard s = (.timeout, heard', s₁) := by
  rw [await_eq, hPump]
  exact if_pos hDue

theorem await_again
    (hPump : pump (some command) heard s = (none, heard', s₁))
    (hDue : ¬ deadline.toNat ≤ (Port.now s₁).toNat) :
    await command deadline heard s =
      await command deadline heard' s₁ := by
  rw [await_eq, hPump]
  exact if_neg hDue

end Await

/-
  So an answer is awaited, until one comes or nothing is ready
  at the deadline or later.
-/
theorem await_works
    (hWorks : Works fine)
    (hFine : fine s)
    (command : String)
    (deadline : Instant)
    (heard : Heard)
    (log : List Event) :
    ∃ (looks : Looks) (outcome : Option Outcome) (heard' : Heard)
      (s' : σ),
      await command deadline heard s =
          (outcome.getD .timeout, heard', s') ∧
        await command deadline heard (⟨s, log⟩ : Tapped σ) =
            (outcome.getD .timeout, heard',
              ⟨s', log ++ looks.events⟩) ∧
          Follows (some command) heard looks outcome heard' ∧
            fine s' ∧
              looks.Within deadline ∧
                (outcome = none → looks.Exhaust deadline) := by
  -- After each round without an outcome fewer are left.
  induction hLeft : Port.idlesLeft deadline s using
    Nat.strongRecOn generalizing s heard log with
  | ind left ih =>
      rcases pump_works hWorks hFine (some command) heard log with
        ⟨looks, outcome, heard₁, s₁, hPump, hPumpTapped,
          hFollows, hFine₁, hBusy, hEnd⟩
      have hWithin : looks.Within deadline :=
        fun time hMem => absurd hMem (hBusy time)
      cases outcome with
      | some outcome =>
          exact
            ⟨looks, some outcome, heard₁, s₁, await_done hPump,
              await_done hPumpTapped, hFollows, hFine₁, hWithin,
              nofun⟩
      | none =>
          have hLast := hEnd rfl
          by_cases hDue : deadline.toNat ≤ (Port.now s₁).toNat
          · exact
              ⟨looks, none, heard₁, s₁, await_late hPump hDue,
                await_late hPumpTapped hDue, hFollows, hFine₁,
                hWithin, fun _ => ⟨_, hLast, hDue⟩⟩
          · have hLess :=
              idlesLeft_pump hPump (Nat.lt_of_not_le hDue)
            rcases ih _ (hLeft ▸ hLess) hFine₁ heard₁
              (log ++ looks.events) rfl with
              ⟨more, outcome, heard', s', hAwait, hAwaitTapped,
                hMore, hFine', hMoreWithin, hMoreEnd⟩
            refine
              ⟨looks.append more, outcome, heard', s', ?_, ?_,
                hFollows.append hMore, hFine', ?_, hMoreEnd⟩
            · rw [await_again hPump hDue]
              exact hAwait
            · rw [await_again hPumpTapped hDue,
                Looks.events_append, ← List.append_assoc]
              exact hAwaitTapped
            · refine hWithin.append ?_ hMoreWithin
              rw [hLast]
              rintro time ⟨⟩
              omega

end Client

end Fota
