import Fota.Proofs.Modem.Wires

/-
  This file shows that the exchange of a command for its reply
  is a reading of the bytes that are received, however they are
  split into chunks. The lines that are finished before the
  command is sent are none of the reply, and the line that is
  then unfinished is carried into it.

  The main statements are `Client.exchange_works` and
  `Client.exchange_equals_reading`.
-/

namespace Fota

open LineBuffer (holding)
open Port (Event Looks Tapped Works)

namespace Client

variable
  {σ : Type}
  [Port σ]
  {fine : σ → Prop}
  {s s₁ s₂ s₃ s₄ : σ}
  {command : String}

------------------------------------------------------------
-- Hearing without a Command
------------------------------------------------------------

/- Without a command nothing ends the hearing. -/
theorem hear_idle
    (bytes : List UInt8)
    (heard : Heard) :
    (hear none bytes heard).1 = none := by
  have hLine : ∀ line heard,
      (hearLine none line heard).1 = none := by
    intro line heard
    unfold hearLine
    dsimp only
    split <;> rfl
  induction bytes generalizing heard with
  | nil =>
      rfl
  | cons byte bytes ih =>
      rw [hear]
      cases (heard.client.buffer.push byte).1 with
      | none =>
          exact ih _
      | some line =>
          dsimp only
          split
          · next hEnded =>
              have hNone := congrArg Prod.fst hEnded
              rw [hLine] at hNone
              cases hNone
          · exact ih _

/- When nothing has arrived, nothing is heard. -/
theorem drain_idle
    (hIdle : Port.ready s = (.ok false, s₁))
    (client : Client) :
    drain client s = (client, s₁) := by
  rw [drain, pump_idle hIdle]

/- What has arrived while no command is awaited is heard. -/
theorem drain_works
    (hWorks : Works fine)
    (hFine : fine s)
    (client : Client)
    (log : List Event) :
    ∃ (looks : Looks) (heard : Heard) (s' : σ),
      drain client s = (heard.client, s') ∧
        drain client (⟨s, log⟩ : Tapped σ) =
            (heard.client, ⟨s', log ++ looks.events⟩) ∧
          Follows none ⟨client, []⟩ looks none heard ∧
            fine s' ∧
              ∃ time, looks.last = .idle time := by
  rcases pump_works hWorks hFine none ⟨client, []⟩ log with
    ⟨looks, outcome, heard, s', hPump, hPumpTapped, hFollows,
      hFine', _, hEnd⟩
  have hNone : outcome = none := by
    rw [← hear_idle looks.bytes ⟨client, []⟩, hFollows.hears]
  subst hNone
  refine
    ⟨looks, heard, s', ?_, ?_, hFollows, hFine', _, hEnd rfl⟩
  · rw [drain, hPump]
  · rw [drain, hPumpTapped]

------------------------------------------------------------
-- Exchanges
------------------------------------------------------------

/- A command that does not fit is refused, and nothing is done. -/
theorem exchange_of_long
    (hLong : Command.sizeMax < command.utf8ByteSize)
    (patience : UInt32)
    (client : Client)
    (s : σ) :
    exchange command patience client s =
      (.refused, client, s) := by
  unfold exchange
  exact if_pos hLong

/-
  A reply that comes in a single read, after nothing else has
  arrived, is heard in one go.
-/
theorem exchange_of_single_read
    {chunk : List UInt8}
    {client : Client}
    {outcome : Outcome}
    {heard : Heard}
    (hHear :
      hear (some command) chunk ⟨client, []⟩ =
        (some outcome, heard))
    (hFits : command.utf8ByteSize ≤ Command.sizeMax)
    (hIdle : Port.ready s = (.ok false, s₁))
    (hSend : Port.sendLine (Text.utf8 command) s₁ = (true, s₂))
    (hReady : Port.ready s₂ = (.ok true, s₃))
    (hRead : Port.read chunkSize s₃ = (.ok chunk, s₄))
    (patience : UInt32) :
    exchange command patience client s =
      (⟨outcome, heard.lines⟩, heard.client, s₄) := by
  have hShort : ¬ Command.sizeMax < command.utf8ByteSize := by
    omega
  have hDrain := drain_idle hIdle client
  have hPump :
      pump (some command) ⟨client, []⟩ s₂ =
        (some outcome, heard, s₄) := by
    cases chunk with
    | nil =>
        cases hHear
    | cons byte bytes =>
        rw [pump_read hReady hRead, hHear]
  unfold exchange
  rw [if_neg hShort, hDrain]
  dsimp only
  rw [hSend]
  dsimp only
  rw [await_done hPump]

/- The answer to a query: an echo, a notice, a line and the end. -/
def queriedAnswer : String :=
  "AT+COPS?\r\r\n+UUFWINSTALL: 7\r\n+COPS: 0\r\nOK\r\n"

/- A wire whose modem gives it in one go. -/
def queried : Bench.Wire :=
  .answering "AT+COPS?" queriedAnswer

theorem exchange_queried :
    ∃ s',
      exchange "AT+COPS?" 1000 .fresh queried =
        (⟨.ok, ["+COPS: 0"]⟩,
          ⟨.empty, { Mailbox.empty with progress := some 7 }⟩,
          s') := by
  have hHear :
      hear (some "AT+COPS?") (Text.utf8 queriedAnswer)
          ⟨.fresh, []⟩ =
        (some .ok,
          ⟨⟨.empty, { Mailbox.empty with progress := some 7 }⟩,
            ["+COPS: 0"]⟩) := by
    decide +kernel
  exact
    ⟨_,
      exchange_of_single_read hHear (by decide) rfl
        (Port.sendLine_of_took_all (by decide) rfl rfl rfl) rfl
        rfl 1000⟩

/-
  Any other command is sent after what has arrived was heard.
  Then its reply is heard, until an outcome comes or the time is
  up.
-/
theorem exchange_works
    (hWorks : Works fine)
    (hFine : fine s)
    (hFits : command.utf8ByteSize ≤ Command.sizeMax)
    (patience : UInt32)
    (client : Client)
    (log : List Event) :
    ∃ (early late : Looks) (sending : List Event)
      (sentAt : Instant) (outcome : Option Outcome)
      (waiting heard : Heard) (s' : σ),
      Follows none ⟨client, []⟩ early none waiting ∧
        Follows (some command) ⟨waiting.client, []⟩ late outcome
            heard ∧
          exchange command patience client s =
              (⟨outcome.getD .timeout, heard.lines⟩,
                heard.client, s') ∧
            exchange command patience client
                  (⟨s, log⟩ : Tapped σ) =
                (⟨outcome.getD .timeout, heard.lines⟩,
                  heard.client,
                  ⟨s',
                    log ++ early.events ++ sending ++
                      late.events⟩) ∧
              Event.Sends (Text.utf8 command) sentAt sending ∧
                fine s' ∧
                  (∃ time, early.last = .idle time) ∧
                    late.Within (sentAt.after patience.toNat) ∧
                      (outcome = none →
                        late.Exhaust
                          (sentAt.after patience.toNat)) := by
  have hShort : ¬ Command.sizeMax < command.utf8ByteSize := by
    omega
  rcases drain_works hWorks hFine client log with
    ⟨early, waiting, s₁, hDrain, hDrainTapped, hEarly, hFine₁,
      hIdle⟩
  rcases Port.sendLine_works hWorks hFine₁ (Text.utf8 command)
    (log ++ early.events) with
    ⟨s₂, sending, hSend, hSendTapped, hSends, hFine₂⟩
  rcases await_works hWorks hFine₂ command
    ((Port.now s₂).after patience.toNat) ⟨waiting.client, []⟩
    (log ++ early.events ++ sending) with
    ⟨late, outcome, heard, s', hAwait, hAwaitTapped, hLate,
      hFine', hWithin, hExhaust⟩
  refine
    ⟨early, late, sending, Port.now s₂, outcome, waiting, heard,
      s', hEarly, hLate, ?_, ?_, hSends, hFine', hIdle, hWithin,
      hExhaust⟩
  · unfold exchange
    rw [if_neg hShort, hDrain]
    dsimp only
    rw [hSend]
    dsimp only
    rw [hAwait]
  · have hNow :
        Port.now
            (⟨s₂, log ++ early.events ++ sending⟩ : Tapped σ) =
          Port.now s₂ :=
      rfl
    unfold exchange
    rw [if_neg hShort, hDrainTapped]
    dsimp only
    rw [hSendTapped]
    dsimp only
    rw [hNow, hAwaitTapped]

/-
  An exchange is a reading of the received bytes, whatever was
  received before and however the bytes are split.

  All that is ready is taken before the command is sent, and the
  notices in it are handed over. The line that these bytes leave
  unfinished is read, together with the bytes taken afterwards,
  as the reply. No bytes are taken once the reply has come to
  its end, nor once nothing was ready at the deadline or later;
  without an end they are taken until then. A command that does
  not fit is refused, and nothing is taken or written.
-/
theorem exchange_equals_reading
    (hWorks : Works fine)
    (hFine : fine s)
    (past : List UInt8)
    (mailbox : Mailbox)
    (command : String)
    (patience : UInt32) :
    let client : Client :=
      ⟨holding (Received.unfinished past), mailbox⟩
    (Command.sizeMax < command.utf8ByteSize →
      exchange command patience client s =
        (.refused, client, s)) ∧
    (command.utf8ByteSize ≤ Command.sizeMax →
      ∃ (early late : Looks) (sending : List Event)
        (sentAt : Instant) (s' : σ),
        let deadline := sentAt.after patience.toNat
        let idle :=
          Received.lines (Received.unfinished past ++ early.bytes)
        let carried :=
          Received.unfinished (past ++ early.bytes)
        let reply :=
          Reading.ofBytes (some command) (carried ++ late.bytes)
        let answer : Reply :=
          ⟨reply.outcome.getD .timeout, reply.lines⟩
        let after : Client :=
          ⟨holding reply.unfinished,
            (mailbox.deliverAll
              (idle.filter Report.isNotice)).deliverAll
              reply.notices⟩
        exchange command patience client s =
            (answer, after, s') ∧
          exchange command patience client (Port.tap s) =
              (answer, after,
                ⟨s',
                  early.events ++ sending ++ late.events⟩) ∧
            Event.Sends (Text.utf8 command) sentAt sending ∧
              (∃ time, early.last = .idle time) ∧
                (Reading.ofBytes (some command)
                      (carried ++ late.bytesBefore)).outcome =
                    none ∧
                  late.Within deadline ∧
                    (reply.outcome = none →
                      late.Exhaust deadline)) := by
  intro client
  refine
    ⟨fun hLong => exchange_of_long hLong patience client s, ?_⟩
  intro hFits
  rcases exchange_works hWorks hFine hFits patience client [] with
    ⟨early, late, sending, sentAt, outcome, waiting, heard, s',
      hEarly, hLate, hExchange, hTapped, hSends, _, hIdle,
      hWithin, hExhaust⟩
  refine ⟨early, late, sending, sentAt, s', ?_⟩
  intro deadline idle carried reply answer after
  have hCarried :
      carried =
        Received.unfinished
          (Received.unfinished past ++ early.bytes) :=
    (Received.lines_append past early.bytes).2
  have hWaiting :
      waiting.client =
        ⟨holding carried,
          mailbox.deliverAll (idle.filter Report.isNotice)⟩ := by
    have hHeard :=
      hear_eq_reading none _ early.bytes
        (Received.plain_unfinished past) mailbox []
    rw [hEarly.hears, Reading.ofBytes, Reading.ofLines_idle,
      ← hCarried] at hHeard
    exact congrArg Heard.client (congrArg Prod.snd hHeard)
  have hReply :=
    hear_eq_reading (some command) carried late.bytes
      (Received.plain_unfinished _)
      (mailbox.deliverAll (idle.filter Report.isNotice)) []
  rw [← hWaiting, hLate.hears, List.nil_append] at hReply
  have hOutcome : outcome = reply.outcome :=
    congrArg Prod.fst hReply
  have hHeard : heard = ⟨after, reply.lines⟩ :=
    congrArg Prod.snd hReply
  have hBefore :=
    hear_eq_reading (some command) carried late.bytesBefore
      (Received.plain_unfinished _)
      (mailbox.deliverAll (idle.filter Report.isNotice)) []
  rw [← hWaiting] at hBefore
  rw [hOutcome, hHeard] at hExchange hTapped
  refine
    ⟨hExchange, hTapped, hSends, hIdle, ?_, hWithin,
      hOutcome ▸ hExhaust⟩
  exact (congrArg Prod.fst hBefore).symm.trans hLate.goesOn

/- A wire whose modem never answers. -/
def silent : Bench.Wire :=
  .fresh (.ofNat 0) 7 []

theorem drain_silent :
    drain .fresh silent = (.fresh, silent.advance 7) :=
  drain_idle rfl _

/- On the silent wire the first look is past the deadline. -/
theorem exchange_silent :
    ∃ s',
      exchange "AT" 3 .fresh silent =
        (⟨.timeout, []⟩, .fresh, s') := by
  have hSend :
      Port.sendLine (Text.utf8 "AT") (silent.advance 7) =
        (true, _) :=
    Port.sendLine_of_took_all (by decide) rfl rfl rfl
  unfold exchange
  rw [if_neg (by decide), drain_silent]
  dsimp only
  rw [hSend]
  dsimp only
  rw [await_late (pump_idle rfl) (by decide)]
  exact ⟨_, rfl⟩

/-
  The bytes taken from the queried wire have this reading. From
  the silent one they are taken until the deadline.
-/
theorem exchange_equals_reading_of_query :
    queried.Sound ∧ silent.Sound ∧
      (∃ early late : Looks,
        let reply :=
          Reading.ofBytes (some "AT+COPS?")
            (Received.unfinished early.bytes ++ late.bytes)
        reply.outcome = some .ok ∧
          reply.lines = ["+COPS: 0"] ∧
            (exchange "AT+COPS?" 1000 .fresh queried).1 =
              ⟨.ok, reply.lines⟩) ∧
        ∃ (early late : Looks) (sending : List Event)
          (sentAt : Instant) (s' : Bench.Wire),
          exchange "AT" 3 .fresh (Port.tap silent) =
              (⟨.timeout, []⟩, .fresh,
                ⟨s', early.events ++ sending ++ late.events⟩) ∧
            Event.Sends (Text.utf8 "AT") sentAt sending ∧
              late.Exhaust (sentAt.after 3) := by
  have hSound : queried.Sound :=
    Bench.Wire.sound_answering _ _
  have hSilent : silent.Sound :=
    Bench.Wire.sound_fresh _ _ _
  have hReads :=
    (exchange_equals_reading Bench.Wire.works_sound hSound []
      .empty "AT+COPS?" 1000).2 (by decide)
  have hWaits :=
    (exchange_equals_reading Bench.Wire.works_sound hSilent []
      .empty "AT" 3).2 (by decide)
  rw [Received.unfinished_nil, ← LineBuffer.empty_eq_holding]
    at hReads hWaits
  refine ⟨hSound, hSilent, ?_, ?_⟩
  · rcases hReads with ⟨early, late, _, _, _, hExchange, _⟩
    rcases exchange_queried with ⟨s', hRun⟩
    have hReply := hExchange.symm.trans hRun
    rw [Prod.mk.injEq, Reply.mk.injEq] at hReply
    rcases hReply with ⟨⟨hOutcome, hLines⟩, _⟩
    refine ⟨early, late, ?_, hLines, ?_⟩
    · rcases Option.getD_eq_iff.mp hOutcome with
        hSome | hTimeout
      · exact hSome
      · cases hTimeout.2
    · rw [hRun]
      exact congrArg _ hLines.symm
  · rcases hWaits with
      ⟨early, late, sending, sentAt, s', hExchange, hTapped,
        hSends, _, _, _, hExhaust⟩
    rcases exchange_silent with ⟨s'', hRun⟩
    have hAnswer := hExchange.symm.trans hRun
    rw [Prod.mk.injEq, Reply.mk.injEq, Prod.mk.injEq]
      at hAnswer
    rcases hAnswer with ⟨⟨hOutcome, hLines⟩, hAfter, _⟩
    have hNone :
        (Reading.ofBytes (some "AT")
          (Received.unfinished ([] ++ early.bytes) ++
            late.bytes)).outcome = none := by
      rcases Option.getD_eq_iff.mp hOutcome with
        hTimeout | hNone
      · exact
          absurd hTimeout
            (Reading.outcome_ofBytes_ne_timeout _ _)
      · exact hNone.1
    refine
      ⟨early, late, sending, sentAt, s', ?_, hSends,
        hExhaust hNone⟩
    rw [hOutcome, hLines, hAfter] at hTapped
    exact hTapped

end Client

end Fota
