import Fota.Proofs.Modem.Exchanges

/-
  This file shows which notices reach the mailbox over a run of
  calls: those among the lines of the bytes that are heard, each
  of them once and in order. What a read brings behind the line
  that ends a reply is not heard, and a notice in it is lost.

  Key definitions include:
    * `Client.overhear`
    * `Client.Hearing`
    * `Client.Hearing.Chain`
    * `Client.Call`
    * `Client.Episode`

  The main statements are `Client.notices_handed_once` and
  `Client.notice_lost_behind_reply`.
-/

namespace Fota

open LineBuffer (holding)
open Port (Event Looks Tapped Works)

namespace Client

------------------------------------------------------------
-- Overhearing
------------------------------------------------------------

/-
  The bytes that are heard, each with the line that the mailbox
  takes when it is heard, if there is one. This goes on as long
  as `hear` does.
-/
def overhear
    (awaited : Option String) :
    List UInt8 → Heard → List (UInt8 × Option String)
| [], _ => []
| byte :: bytes, heard =>
    let pushed := heard.client.buffer.push byte
    let noted :=
      { heard with
        client := { heard.client with buffer := pushed.2 } }
    match pushed.1 with
    | none => (byte, none) :: overhear awaited bytes noted
    | some line =>
        let taken :=
          if (noted.client.mailbox.deliver line).1 then
            some line
          else
            none
        match hearLine awaited line noted with
        | (some _, _) => [(byte, taken)]
        | (none, heard) =>
            (byte, taken) :: overhear awaited bytes heard

variable
  {awaited : Option String}

/- What is heard comes before what is not. -/
theorem overhear_prefix
    (awaited : Option String)
    (bytes : List UInt8)
    (heard : Heard) :
    (overhear awaited bytes heard).map Prod.fst <+: bytes := by
  induction bytes generalizing heard with
  | nil =>
      exact List.prefix_refl []
  | cons byte bytes ih =>
      rw [overhear]
      cases (heard.client.buffer.push byte).1 with
      | none =>
          exact (List.prefix_cons_inj byte).mpr (ih _)
      | some line =>
          dsimp only
          split
          · exact
              (List.prefix_cons_inj byte).mpr List.nil_prefix
          · exact (List.prefix_cons_inj byte).mpr (ih _)

/- Without an outcome all bytes are heard. -/
theorem overhear_of_none
    {bytes : List UInt8}
    {heard : Heard}
    (hNone : (hear awaited bytes heard).1 = none) :
    (overhear awaited bytes heard).map Prod.fst = bytes := by
  induction bytes generalizing heard with
  | nil =>
      rfl
  | cons byte bytes ih =>
      rw [hear] at hNone
      rw [overhear]
      cases hPushed : (heard.client.buffer.push byte).1 with
      | none =>
          rw [hPushed] at hNone
          exact congrArg _ (ih hNone)
      | some line =>
          rw [hPushed] at hNone
          dsimp only at hNone ⊢
          generalize hearLine awaited line _ = next at hNone ⊢
          rcases next with ⟨_ | outcome, later⟩
          · exact congrArg _ (ih hNone)
          · cases hNone

/- Bytes may be overheard in two parts. -/
theorem overhear_append
    {first second : List UInt8}
    {heard : Heard}
    (hNone : (hear awaited first heard).1 = none) :
    overhear awaited (first ++ second) heard =
      overhear awaited first heard ++
        overhear awaited second
          (hear awaited first heard).2 := by
  induction first generalizing heard with
  | nil =>
      rfl
  | cons byte bytes ih =>
      rw [hear] at hNone ⊢
      rw [List.cons_append, overhear, overhear]
      cases hPushed : (heard.client.buffer.push byte).1 with
      | none =>
          rw [hPushed] at hNone
          exact congrArg _ (ih hNone)
      | some line =>
          rw [hPushed] at hNone
          dsimp only at hNone ⊢
          generalize hearLine awaited line _ = next at hNone ⊢
          rcases next with ⟨_ | outcome, later⟩
          · exact congrArg _ (ih hNone)
          · cases hNone

/- The bytes that are heard behind an unfinished line. -/
theorem overhear_holding
    (awaited : Option String)
    (u bytes : List UInt8)
    (hPlain : Received.Plain u)
    (m : Mailbox)
    (said : List String) :
    let heard : Heard := ⟨⟨holding u, m⟩, said⟩
    let trace := overhear awaited bytes heard
    let kept := trace.map Prod.fst
    trace.filterMap Prod.snd =
        (Received.lines (u ++ kept)).filter Report.isNotice ∧
      (hear awaited bytes heard).2.client =
        ⟨holding (Received.unfinished (u ++ kept)),
          m.deliverAll (trace.filterMap Prod.snd)⟩ := by
  induction u, bytes, hPlain using Received.induction
    generalizing m said with
  | nil u hPlain =>
      simp [overhear, hear, Received.lines_of_plain hPlain,
        Received.unfinished_of_plain hPlain]
  | skip u bytes hPlain ih =>
      simp only [overhear, hear, LineBuffer.push_return,
        List.map_cons, List.filterMap_cons,
        Received.lines_append_return,
        Received.unfinished_append_return]
      exact ih m said
  | join u byte bytes hPlain hReturn hFeed ih =>
      simp only [overhear, hear,
        LineBuffer.push_join hReturn hFeed, List.map_cons,
        List.filterMap_cons]
      simpa only [List.append_assoc, List.singleton_append] using
        ih m said
  | feed u bytes hPlain ih =>
      simp only [overhear, hear, LineBuffer.push_feed]
      cases hShown : Received.shown? u with
      | none =>
          simp only [List.map_cons, List.filterMap_cons,
            Received.lines_append_feed hPlain,
            Received.unfinished_append_feed hPlain, hShown]
          exact ih m said
      | some line =>
          dsimp only
          rw [Mailbox.deliver_fst]
          cases hEnds : ends awaited line with
          | true =>
              rcases exists_final_of_ends hEnds with
                ⟨outcome, hFinal⟩
              have hNotice := not_notice_of_ends hEnds
              simp [hearLine_of_ends hEnds hFinal, hNotice,
                Received.lines_append_feed hPlain,
                Received.unfinished_append_feed hPlain, hShown]
          | false =>
              simp only [hearLine_of_not_ends hEnds,
                List.map_cons, List.filterMap_cons,
                Received.lines_append_feed hPlain,
                Received.unfinished_append_feed hPlain, hShown]
              have hRest := ih (m.deliver line).2
                (said ++ [line].filter (answers awaited))
              cases hNotice : Report.isNotice line with
              | true =>
                  simpa [hNotice] using hRest
              | false =>
                  have hSame :=
                    Mailbox.deliver_of_not_notice (m := m) hNotice
                  simpa [hNotice, hSame] using hRest

------------------------------------------------------------
-- Hearings
------------------------------------------------------------

/-
  A client that hears what is taken in looks, awaiting a reply
  or not. Only the last look brings the outcome.
-/
structure Hearing where
  client : Client
  awaited : Option String
  looks : Looks
  goesOn :
    (hear awaited looks.bytesBefore ⟨client, []⟩).1 = none

namespace Hearing

/- The bytes that are taken. -/
def bytes
    (h : Hearing) : List UInt8 :=
  h.looks.bytes

/- What hearing the bytes comes to. -/
def result
    (h : Hearing) : Option Outcome × Heard :=
  hear h.awaited h.bytes ⟨h.client, []⟩

/- The bytes that are heard, with the lines that are taken. -/
def trace
    (h : Hearing) : List (UInt8 × Option String) :=
  overhear h.awaited h.bytes ⟨h.client, []⟩

/- The bytes that are heard. -/
def kept
    (h : Hearing) : List UInt8 :=
  h.trace.map Prod.fst

/- The bytes that are not heard. -/
def lost
    (h : Hearing) : List UInt8 :=
  h.bytes.drop h.kept.length

/- The lines that are handed to the mailbox, in order. -/
def handed
    (h : Hearing) : List String :=
  h.trace.filterMap Prod.snd

theorem kept_append_lost
    (h : Hearing) :
    h.kept ++ h.lost = h.bytes := by
  have hPrefix : h.kept <+: h.bytes :=
    overhear_prefix h.awaited h.bytes ⟨h.client, []⟩
  have hTake := List.prefix_iff_eq_take.mp hPrefix
  calc
    h.kept ++ h.lost =
        h.bytes.take h.kept.length ++ h.lost :=
      congrArg (· ++ h.lost) hTake
    _ = h.bytes :=
      List.take_append_drop _ _

/- Bytes are lost only behind an outcome, in the last look. -/
theorem lost_behind_outcome
    (h : Hearing) :
    (h.result.1 = none → h.lost = []) ∧
      h.lost <:+ h.looks.last.bytes := by
  constructor
  · intro hNone
    have hKept : h.kept = h.bytes := overhear_of_none hNone
    unfold lost
    rw [hKept]
    exact List.drop_length
  · have hBytes :
        h.bytes = h.looks.bytesBefore ++ h.looks.last.bytes :=
      h.looks.bytes_eq
    have hBefore :=
      congrArg List.length (overhear_of_none h.goesOn)
    rw [List.length_map] at hBefore
    unfold lost kept trace
    rw [List.length_map, hBytes, overhear_append h.goesOn,
      List.length_append, hBefore, List.drop_length_add_append]
    exact List.drop_suffix _ _

/- The client that has heard the bytes. -/
def after
    (h : Hearing) : Client :=
  h.result.2.client

/- Hearing after hearing leads from a client to a client. -/
def Chain :
    Client → List Hearing → Client → Prop
| client, [], client' => client' = client
| client, h :: hearings, client' =>
    h.client = client ∧ Chain h.after hearings client'

theorem chain_append
    {client client' client'' : Client}
    {hearings more : List Hearing}
    (hFirst : Chain client hearings client')
    (hSecond : Chain client' more client'') :
    Chain client (hearings ++ more) client'' := by
  induction hearings generalizing client with
  | nil =>
      cases hFirst
      exact hSecond
  | cons h hearings ih =>
      exact ⟨hFirst.1, ih hFirst.2⟩

/-
  The lines that are handed over are the notices among the lines
  of the bytes that are heard.
-/
theorem handed_of_chain
    {client' : Client}
    {hearings : List Hearing}
    {u : List UInt8}
    {m : Mailbox}
    (hPlain : Received.Plain u)
    (hChain : Chain ⟨holding u, m⟩ hearings client') :
    hearings.flatMap handed =
        (Received.lines (u ++ hearings.flatMap kept)).filter
          Report.isNotice ∧
      client' =
        ⟨holding
            (Received.unfinished (u ++ hearings.flatMap kept)),
          m.deliverAll (hearings.flatMap handed)⟩ := by
  induction hearings generalizing u m with
  | nil =>
      cases hChain
      simp [Received.lines_of_plain hPlain,
        Received.unfinished_of_plain hPlain]
  | cons h hearings ih =>
      rcases hChain with ⟨hClient, hRest⟩
      have hHeard :=
        overhear_holding h.awaited u h.bytes hPlain m []
      rw [← hClient] at hHeard
      have hHanded :
          h.handed =
            (Received.lines (u ++ h.kept)).filter
              Report.isNotice :=
        hHeard.1
      have hAfter :
          h.after =
            ⟨holding (Received.unfinished (u ++ h.kept)),
              m.deliverAll h.handed⟩ :=
        hHeard.2
      rw [hAfter] at hRest
      have hLater := ih (Received.plain_unfinished _) hRest
      have hParts :=
        Received.lines_append (u ++ h.kept)
          (hearings.flatMap kept)
      rw [List.flatMap_cons, List.flatMap_cons,
        ← List.append_assoc, hParts.1, hParts.2,
        List.filter_append, Mailbox.deliverAll_append,
        ← hHanded, ← hLater.1]
      exact ⟨rfl, hLater.2⟩

end Hearing

------------------------------------------------------------
-- Calls
------------------------------------------------------------

open Hearing (Chain)

/- A call on a client. -/
inductive Call where
| exchange (command : String) (patience : UInt32)
| drain

/-
  What a call hears and what passes the port: nothing when a
  command does not fit.
-/
inductive Episode : Call → List Hearing → List Event → Prop where
| refused
    {command : String}
    {patience : UInt32}
    (hLong : Command.sizeMax < command.utf8ByteSize) :
    Episode (.exchange command patience) [] []
| exchanged
    {command : String}
    {patience : UInt32}
    (hFits : command.utf8ByteSize ≤ Command.sizeMax)
    (early late : Hearing)
    (hEarly : early.awaited = none)
    (hLate : late.awaited = some command)
    (sending : List Event)
    (sentAt : Instant)
    (hSends :
      Event.Sends (Text.utf8 command) sentAt sending) :
    Episode (.exchange command patience) [early, late]
      (early.looks.events ++ sending ++ late.looks.events)
| drained
    (early : Hearing)
    (hEarly : early.awaited = none) :
    Episode .drain [early] early.looks.events

/- The episodes of calls, one after the other. -/
inductive Episodes :
    List Call → List Hearing → List Event → Prop where
| nil : Episodes [] [] []
| cons
    {call : Call}
    {calls : List Call}
    {hearings more : List Hearing}
    {events log : List Event}
    (hCall : Episode call hearings events)
    (hCalls : Episodes calls more log) :
    Episodes (call :: calls) (hearings ++ more) (events ++ log)

/- The bytes that are taken from the port, as the tap logs them. -/
def taken
    (log : List Event) : List UInt8 :=
  log.flatMap fun event =>
    match event with
    | .looked look => look.bytes
    | _ => []

theorem taken_events
    (looks : Looks) :
    taken looks.events = looks.bytes :=
  List.flatMap_map _ _ _

theorem taken_append
    (first second : List Event) :
    taken (first ++ second) = taken first ++ taken second :=
  List.flatMap_append

/- Nothing is taken while a line is sent. -/
theorem taken_sending
    {text : List UInt8}
    {time : Instant}
    {sending : List Event}
    (hSends : Event.Sends text time sending) :
    taken sending = [] := by
  rcases hSends with ⟨_, ⟨pieces, rfl, -⟩, rfl⟩
  have hWrites : taken (pieces.map .wrote) = [] := by
    unfold taken
    rw [List.flatMap_map]
    exact List.flatMap_eq_nil_iff.mpr fun _ _ => rfl
  rw [taken_append, hWrites]
  rfl

/- All bytes that are taken are bytes of the hearings. -/
theorem Episode.taken_eq
    {call : Call}
    {hearings : List Hearing}
    {events : List Event}
    (hCall : Episode call hearings events) :
    taken events = hearings.flatMap Hearing.bytes := by
  cases hCall with
  | refused hLong =>
      rfl
  | exchanged hFits early late hEarly hLate sending sentAt
      hSends =>
      rw [taken_append, taken_append, taken_events,
        taken_events, taken_sending hSends]
      simp [Hearing.bytes]
  | drained early hEarly =>
      rw [taken_events]
      simp [Hearing.bytes]

theorem Episodes.taken_eq
    {calls : List Call}
    {hearings : List Hearing}
    {log : List Event}
    (hCalls : Episodes calls hearings log) :
    taken log = hearings.flatMap Hearing.bytes := by
  induction hCalls with
  | nil =>
      rfl
  | cons hCall hCalls ih =>
      rw [taken_append, List.flatMap_append, hCall.taken_eq, ih]

variable
  {σ : Type}
  [Port σ]
  {fine : σ → Prop}
  {s : σ}

namespace Call

/- Make a call. -/
def run :
    Call → Client → σ → Client × σ
| exchange command patience, client, s =>
    (Client.exchange command patience client s).2
| drain, client, s =>
    Client.drain client s

/- Make calls, one after the other. -/
def runAll :
    List Call → Client → σ → Client × σ
| [], client, s => (client, s)
| call :: calls, client, s =>
    let made := call.run client s
    runAll calls made.1 made.2

/- On a port that works each call has an episode. -/
theorem run_works
    (hWorks : Works fine)
    (hFine : fine s)
    (call : Call)
    (client : Client)
    (log : List Event) :
    ∃ hearings events client' s',
      call.run client s = (client', s') ∧
        call.run client (⟨s, log⟩ : Tapped σ) =
            (client', ⟨s', log ++ events⟩) ∧
          Episode call hearings events ∧
            Chain client hearings client' ∧
              fine s' := by
  cases call with
  | drain =>
      rcases drain_works hWorks hFine client log with
        ⟨looks, heard, s', hDrain, hTapped, hEarly, hFine', _⟩
      let early : Hearing :=
        ⟨client, none, looks, hEarly.goesOn⟩
      have hAfter : heard.client = early.after :=
        congrArg (fun result => result.2.client)
          hEarly.hears.symm
      exact
        ⟨[early], looks.events, heard.client, s', hDrain,
          hTapped, .drained early rfl, ⟨rfl, hAfter⟩, hFine'⟩
  | exchange command patience =>
      by_cases hLong : Command.sizeMax < command.utf8ByteSize
      · have hRefused (σ : Type) [Port σ] (s : σ) :
            (exchange command patience).run client s =
              (client, s) :=
          congrArg Prod.snd
            (exchange_of_long hLong patience client s)
        exact
          ⟨[], [], client, s, hRefused σ s,
            by simpa using hRefused (Tapped σ) ⟨s, log⟩,
            .refused hLong, rfl, hFine⟩
      · have hFits :
            command.utf8ByteSize ≤ Command.sizeMax := by
          omega
        rcases exchange_works hWorks hFine hFits patience client
          log with
          ⟨looks, more, sending, sentAt, outcome, waiting, heard,
            s', hEarly, hLate, hExchange, hTapped, hSends,
            hFine', _⟩
        let early : Hearing :=
          ⟨client, none, looks, hEarly.goesOn⟩
        let late : Hearing :=
          ⟨waiting.client, some command, more, hLate.goesOn⟩
        have hWaiting : waiting.client = early.after :=
          congrArg (fun result => result.2.client)
            hEarly.hears.symm
        have hAfter : heard.client = late.after :=
          congrArg (fun result => result.2.client)
            hLate.hears.symm
        refine
          ⟨[early, late], _, heard.client, s',
            congrArg Prod.snd hExchange, ?_,
            .exchanged hFits early late rfl rfl sending sentAt
              hSends,
            ⟨rfl, hWaiting, hAfter⟩, hFine'⟩
        simpa [run, early, late] using congrArg Prod.snd hTapped

/- So have calls that are made one after the other. -/
theorem runAll_works
    (hWorks : Works fine)
    (hFine : fine s)
    (calls : List Call)
    (client : Client)
    (log : List Event) :
    ∃ hearings events client' s',
      runAll calls client s = (client', s') ∧
        runAll calls client (⟨s, log⟩ : Tapped σ) =
            (client', ⟨s', log ++ events⟩) ∧
          Episodes calls hearings events ∧
            Chain client hearings client' ∧
              fine s' := by
  induction calls generalizing s client log with
  | nil =>
      exact
        ⟨[], [], client, s, rfl, by simp [runAll], .nil, rfl,
          hFine⟩
  | cons call calls ih =>
      rcases run_works hWorks hFine call client log with
        ⟨hearings, events, client₁, s₁, hRun, hTapped, hCall,
          hChain, hFine₁⟩
      rcases ih hFine₁ client₁ (log ++ events) with
        ⟨more, later, client', s', hRunAll, hTappedAll, hCalls,
          hChainAll, hFine'⟩
      refine
        ⟨hearings ++ more, events ++ later, client', s', ?_, ?_,
          .cons hCall hCalls,
          Hearing.chain_append hChain hChainAll, hFine'⟩
      · rw [runAll, hRun]
        exact hRunAll
      · rw [runAll, hTapped]
        simpa using hTappedAll

end Call

------------------------------------------------------------
-- Notices
------------------------------------------------------------

open Call (runAll)

/-
  Over a run of calls the mailbox gets the notices among the
  lines of the bytes that are heard, in order and each of them
  once. What is not heard is what a read brings behind the line
  that ends a reply. If there is no such read, the notices are
  those of all the bytes that are taken.
-/
theorem notices_handed_once
    (hWorks : Works fine)
    (hFine : fine s)
    (past : List UInt8)
    (mailbox : Mailbox)
    (calls : List Call) :
    let client : Client :=
      ⟨holding (Received.unfinished past), mailbox⟩
    ∃ (hearings : List Hearing) (log : List Event)
      (client' : Client) (s' : σ),
      let handed := hearings.flatMap Hearing.handed
      let kept := hearings.flatMap Hearing.kept
      runAll calls client s = (client', s') ∧
        runAll calls client (Port.tap s) = (client', ⟨s', log⟩) ∧
          Episodes calls hearings log ∧
            Hearing.Chain client hearings client' ∧
              handed =
                  (Received.lines
                      (Received.unfinished past ++ kept)).filter
                    Report.isNotice ∧
                client' =
                    ⟨holding (Received.unfinished (past ++ kept)),
                      mailbox.deliverAll handed⟩ ∧
                  (∀ h ∈ hearings,
                    h.kept ++ h.lost = h.bytes ∧
                      (h.result.1 = none → h.lost = []) ∧
                        h.lost <:+ h.looks.last.bytes) ∧
                    ((∀ h ∈ hearings, h.lost = []) →
                      handed =
                        (Received.lines
                            (Received.unfinished past ++
                              taken log)).filter
                          Report.isNotice) := by
  intro client
  rcases Call.runAll_works hWorks hFine calls client [] with
    ⟨hearings, log, client', s', hRun, hTapped, hEpisodes,
      hChain, _⟩
  have hHanded :=
    Hearing.handed_of_chain (Received.plain_unfinished past)
      hChain
  have hCarried :=
    (Received.lines_append past
      (hearings.flatMap Hearing.kept)).2
  refine
    ⟨hearings, log, client', s', hRun, hTapped, hEpisodes, hChain,
      hHanded.1, hCarried ▸ hHanded.2, ?_, ?_⟩
  · intro h _
    exact ⟨h.kept_append_lost, h.lost_behind_outcome⟩
  · intro hLost
    have hKept :
        hearings.flatMap Hearing.kept =
          hearings.flatMap Hearing.bytes := by
      rw [List.flatMap_def, List.flatMap_def]
      refine congrArg List.flatten (List.map_congr_left ?_)
      intro h hMem
      rw [← h.kept_append_lost, hLost h hMem, List.append_nil]
    rw [hEpisodes.taken_eq, ← hKept]
    exact hHanded.1

/- The notice that comes before the answer of a query is handed. -/
theorem notices_handed_once_of_query :
    queried.Sound ∧
      ∃ hearings : List Hearing,
        hearings.flatMap Hearing.handed ≠ [] ∧
          hearings.flatMap Hearing.handed =
            (Received.lines (hearings.flatMap Hearing.kept)).filter
              Report.isNotice := by
  have hSound : queried.Sound :=
    Bench.Wire.sound_answering _ _
  have hRun :=
    notices_handed_once Bench.Wire.works_sound hSound [] .empty
      [.exchange "AT+COPS?" 1000]
  rw [Received.unfinished_nil, ← LineBuffer.empty_eq_holding]
    at hRun
  rcases hRun with
    ⟨hearings, log, client', s', hRun, _, _, _, hHanded, hAfter,
      _⟩
  refine ⟨hSound, hearings, ?_, hHanded⟩
  intro hNothing
  rcases exchange_queried with ⟨s'', hExchange⟩
  have hClient :
      client' =
        ⟨.empty, { Mailbox.empty with progress := some 7 }⟩ :=
    (congrArg Prod.fst hRun).symm.trans
      (congrArg (fun run => run.2.1) hExchange)
  rw [hNothing, hClient] at hAfter
  cases congrArg (fun client => client.mailbox.progress) hAfter

/- An answer with a notice behind it. -/
def crowdedAnswer : String :=
  "\r\nOK\r\n+UUFWINSTALL: 7\r\n"

/- A wire whose modem gives it in one go. -/
def crowded : Bench.Wire :=
  .answering "AT" crowdedAnswer

theorem exchange_crowded :
    ∃ s' s'' : Bench.Wire,
      exchange "AT" 1000 .fresh (Port.tap crowded) =
          (⟨.ok, []⟩, .fresh,
            ⟨s',
              [.looked (.idle (.ofNat 1)),
                .wrote (Text.utf8 "AT"), .wrote Port.lineEnd,
                .flushed (.ofNat 1),
                .looked (.took (Text.utf8 crowdedAnswer))]⟩) ∧
        Port.ready s' = (.ok false, s'') := by
  have hHear :
      hear (some "AT") (Text.utf8 crowdedAnswer)
          ⟨.fresh, []⟩ =
        (some .ok, ⟨.fresh, []⟩) := by
    decide +kernel
  exact
    ⟨_, _,
      exchange_of_single_read hHear (by decide) rfl
        (Port.sendLine_of_took_all (by decide) rfl rfl rfl) rfl
        rfl 1000,
      rfl⟩

/-
  The notice behind the answer is taken from the port, but it is
  not handed over, nor is it left for a later call.
-/
theorem notice_lost_behind_reply :
    let calls : List Call := [.exchange "AT" 1000, .drain]
    let made := runAll calls .fresh (Port.tap crowded)
    let notices :=
      (Received.lines (taken made.2.log)).filter Report.isNotice
    notices = ["+UUFWINSTALL: 7"] ∧
      made.1.mailbox = .empty ∧
        Mailbox.empty.deliverAll notices ≠ .empty := by
  intro calls made notices
  rcases exchange_crowded with ⟨s', s'', hExchange, hReady⟩
  have hMade :
      made =
        (.fresh,
          ⟨s'',
            [.looked (.idle (.ofNat 1)),
                .wrote (Text.utf8 "AT"), .wrote Port.lineEnd,
                .flushed (.ofNat 1),
                .looked (.took (Text.utf8 crowdedAnswer))] ++
              [.looked (.idle (Port.now s''))]⟩) := by
    simp only [made, calls, runAll, Call.run]
    rw [hExchange, drain, pump_idle (Port.idle_tapped hReady)]
  have hTaken :
      taken made.2.log = Text.utf8 crowdedAnswer := by
    rw [hMade, taken_append]
    exact
      (List.append_nil _).trans
        (List.append_nil (Text.utf8 crowdedAnswer))
  have hNotices : notices = ["+UUFWINSTALL: 7"] := by
    simp only [notices]
    rw [hTaken]
    decide +kernel
  refine ⟨hNotices, ?_, ?_⟩
  · rw [hMade]
    rfl
  · rw [hNotices]
    decide +kernel

end Client

end Fota
