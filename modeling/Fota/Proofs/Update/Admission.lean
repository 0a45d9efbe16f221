import Fota.Proofs.Update.Attempts
import Fota.Proofs.Update.PathChoice
import Fota.Proofs.Update.Polling

/-
  This file shows which requests an updater accepts, in each of
  its states and on every platform, and that a request is atomic:
  one that is accepted has its whole effect, one that is refused
  has none. While a run is in flight, no other one is accepted.

  Key definitions include:
    * `Update.Platform.Allows`
    * `Update.Platform.Powers`
    * `Updater.Call.Open`
    * `Updater.Call.Admitted`
    * `Updater.Call.accepted`
    * `Updater.Call.Settled`
    * `Updater.Call.Ended`
    * `Turn.Accepted`
    * `Turn.Refused`
    * `Turn.Atomic`

  The main statements are `Updater.request_settled`, for a
  request, and `Life.requests_atomic`, for all requests of a
  boot.
-/

namespace Fota

open Update (Course Exchange Platform Question Setting Talk)

------------------------------------------------------------
-- What a Platform Grants
------------------------------------------------------------

namespace Update.Platform

variable
  {W : Type}
  (p : Platform W)

/- The state after the questions whether updates are allowed. -/
def asked
    (w : W) : W :=
  p.after .isFeatureEnabled
    (p.after .areUpdatesEnabled (p.after .modemFamily w))

/- Modem, user and cloud allow updates. -/
structure Allows
    (w : W) : Prop where
  modem : p.answer .modemFamily w = Updater.supportedFamily
  user :
    p.answer .areUpdatesEnabled (p.after .modemFamily w) = true
  cloud :
    p.answer .isFeatureEnabled
        (p.after .areUpdatesEnabled (p.after .modemFamily w)) =
      true

/- The state after the modem was found off and switched on. -/
def switched
    (w : W) : W :=
  p.after .networkOn (p.after .networkPower w)

/- The moment from which on the power is awaited. -/
def began
    (w : W) : Instant :=
  p.answer .now (p.switched w)

/- The state from which on the power is awaited. -/
def awaiting
    (w : W) : W :=
  p.after .now (p.switched w)

/-
  The modem is on, or it can be switched on and its power is
  found on before the timeout is seen to have elapsed.
-/
def Powers
    (timeout : UInt32)
    (w : W) : Prop :=
  p.answer .networkPower w = .on ∨
    p.answer .networkOn (p.after .networkPower w) = .ok () ∧
      p.PowersOn (p.began w) timeout (p.awaiting w)

/- If the power has to be awaited, one of the looks ends that. -/
def Settles
    (timeout : UInt32)
    (w : W) : Prop :=
  p.answer .networkPower w ≠ .on →
    p.answer .networkOn (p.after .networkPower w) = .ok () →
      p.Ends (p.began w) timeout (p.awaiting w)

variable
  {p}
  {u : Updater}
  {w : W}

theorem result_isAllowed :
    p.result Updater.isAllowed w = true ↔ p.Allows w := by
  unfold Updater.isAllowed
  simp only [Talk.modemFamily, Talk.areUpdatesEnabled,
    Talk.isFeatureEnabled, Dialogue.ask_bind,
    Dialogue.done_bind, result_ask, Dialogue.pure_eq_done]
  split
  · next hOther =>
      exact
        iff_of_false Bool.false_ne_true fun hAllows =>
          hOther hAllows.modem
  · next hModem =>
      rw [result_ask]
      split
      · next hUnwanted =>
          exact
            iff_of_false Bool.false_ne_true fun hAllows =>
              hUnwanted hAllows.user
      · next hUser =>
          rw [Classical.not_not] at hModem hUser
          exact
            ⟨fun hCloud => ⟨hModem, hUser, hCloud⟩,
              fun hAllows => hAllows.cloud⟩

theorem left_isAllowed
    (hAllows : p.Allows w) :
    p.left Updater.isAllowed w = p.asked w := by
  unfold Updater.isAllowed
  simp only [Talk.modemFamily, Talk.areUpdatesEnabled,
    Talk.isFeatureEnabled, Dialogue.ask_bind,
    Dialogue.done_bind, left_ask, Dialogue.pure_eq_done]
  rw [if_neg (not_not_intro hAllows.modem), left_ask,
    if_neg (not_not_intro hAllows.user)]
  rfl

/- The modem is found on only if it is on in time. -/
theorem powers_of_result_powerOn
    (hOn : p.result u.powerOn w = true) :
    p.Powers u.policy.powerOnTimeout w := by
  unfold Updater.powerOn at hOn
  simp only [Talk.networkPower, Talk.networkOn, Talk.now,
    Dialogue.ask_bind, Dialogue.done_bind, result_ask,
    Dialogue.pure_eq_done] at hOn
  split at hOn
  · next hAtOnce =>
      exact .inl hAtOnce
  · next hOff =>
      right
      rw [result_ask] at hOn
      cases hSwitch :
          p.answer .networkOn (p.after .networkPower w) with
      | error fault =>
          rw [hSwitch] at hOn
          cases hOn
      | ok done =>
          rw [hSwitch] at hOn
          exact ⟨rfl, powersOn_of_result_awaitPower hOn⟩

/- If the wait for it ends, it is found on if it is on in time. -/
theorem result_powerOn
    (hSettles : p.Settles u.policy.powerOnTimeout w)
    (hPowers : p.Powers u.policy.powerOnTimeout w) :
    p.result u.powerOn w = true := by
  unfold Updater.powerOn
  simp only [Talk.networkPower, Talk.networkOn, Talk.now,
    Dialogue.ask_bind, Dialogue.done_bind, result_ask,
    Dialogue.pure_eq_done]
  split
  · rfl
  · next hOff =>
      rcases hPowers.resolve_left hOff with
        ⟨hSwitch, hPowersOn⟩
      rw [result_ask, hSwitch]
      exact
        result_awaitPower_of_ends (hSettles hOff hSwitch)
          hPowersOn

end Update.Platform

------------------------------------------------------------
-- Requests
------------------------------------------------------------

namespace Updater

/- A request asks for a run to begin. -/
def Call.asksRun : Call → Bool
| .checkUpdate _ => true
| .setPath _ => false
| .enableUpdates => true
| .tick => false

/- The state of the updater lets it accept a request. -/
def Call.Open
    (u : Updater) : Call → Prop
| .checkUpdate path => path.Valid ∧ u.Ready
| .setPath path => u.stage = .idle ∧ ∀ own ∈ path, own.Valid
| .enableUpdates => u.Ready
| .tick => False

/- So does the platform, where it has a say. -/
def Call.Admitted
    {W : Type}
    (p : Platform W)
    (w : W)
    (u : Updater) : Call → Prop
| .checkUpdate path => path.Valid ∧ u.Ready
| .setPath path => u.stage = .idle ∧ ∀ own ∈ path, own.Valid
| .enableUpdates =>
    u.Ready ∧ p.Allows w ∧
      p.Powers u.policy.powerOnTimeout (p.asked w)
| .tick => False

/- The updater once a request is accepted. -/
def Call.accepted
    (u : Updater) : Call → Updater
| .checkUpdate path => (u.usePath path).begun
| .setPath path =>
    { u with
      checkpoint.path := path.getD .empty
      checkpoint.ownPath := path.isSome }
| .enableUpdates => u.begun
| .tick => u

/-
  On a platform, a request is accepted if it is admitted and no
  wait for the power of the modem goes on for ever. If it is not
  admitted, it is refused. It has its whole effect if accepted.
-/
structure Call.Settled
    {W : Type}
    (p : Platform W)
    (w : W)
    (u : Updater)
    (call : Call) : Prop where
  accepts :
    (call = .enableUpdates →
      p.Settles u.policy.powerOnTimeout (p.asked w)) →
      call.Admitted p w u →
        p.result (call.talk u) w = .ok (call.accepted u)
  refuses :
    ¬ call.Admitted p w u →
      ∃ fault, p.result (call.talk u) w = .error fault
  effect :
    ∀ next, p.result (call.talk u) w = .ok next →
      next = call.accepted u

variable
  {W : Type}
  {p : Platform W}
  {w : W}
  {u : Updater}
  {call : Call}

/- A run that was asked for has begun. -/
theorem begun_of_asksRun
    (hRun : call.asksRun = true) :
    (call.accepted u).stage = .qualifyFlags ∧
      (call.accepted u).retries = .none ∧
        (call.accepted u).cooldown = none := by
  cases call with
  | checkUpdate path =>
      exact ⟨rfl, rfl, rfl⟩
  | enableUpdates =>
      exact ⟨rfl, rfl, rfl⟩
  | setPath path =>
      cases hRun
  | tick =>
      cases hRun

/- A run is only asked for with success at rest. -/
theorem Call.Open.rests
    (hOpen : call.Open u) :
    u.stage = .idle ∧ (call.asksRun = true → u.Ready) := by
  cases call with
  | checkUpdate path =>
      exact ⟨hOpen.2.2.1, fun _ => hOpen.2⟩
  | enableUpdates =>
      exact ⟨hOpen.2.1, fun _ => hOpen⟩
  | setPath path =>
      exact ⟨hOpen.1, nofun⟩
  | tick =>
      cases hOpen

/- A path is set as it was told if the updater is at rest. -/
theorem setPath_eq_ok
    {path : Option UpgradePath}
    (hOpen : Call.Open u (.setPath path)) :
    u.setPath path = .ok (Call.accepted u (.setPath path)) := by
  rcases hOpen with ⟨hIdle, hValid⟩
  unfold setPath
  rw [if_neg (not_not_intro hIdle)]
  cases path with
  | none =>
      rfl
  | some path =>
      exact if_pos (hValid path rfl)

theorem exists_setPath_eq_error
    {path : Option UpgradePath}
    (hShut : ¬ Call.Open u (.setPath path)) :
    ∃ fault, u.setPath path = .error fault := by
  unfold setPath
  by_cases hIdle : u.stage = .idle
  · rw [if_neg (not_not_intro hIdle)]
    cases path with
    | none =>
        exact absurd ⟨hIdle, nofun⟩ hShut
    | some path =>
        have hInvalid : ¬ path.Valid := fun hValid =>
          hShut
            ⟨hIdle, fun own hMem =>
              Option.some.inj hMem ▸ hValid⟩
        exact ⟨.invalidArgument, if_neg hInvalid⟩
  · exact ⟨.invalidState, if_pos hIdle⟩

/- What settles a request whatever the platform does. -/
theorem Call.Settled.of_result
    (hAccepts :
      call.Admitted p w u →
        p.result (call.talk u) w = .ok (call.accepted u))
    (hRefuses :
      ¬ call.Admitted p w u →
        ∃ fault, p.result (call.talk u) w = .error fault) :
    call.Settled p w u := by
  refine ⟨fun _ => hAccepts, hRefuses, ?_⟩
  intro next hNext
  by_cases hAdmitted : call.Admitted p w u
  · rw [hAccepts hAdmitted] at hNext
    exact (Except.ok.inj hNext).symm
  · rcases hRefuses hAdmitted with ⟨fault, hFault⟩
    rw [hFault] at hNext
    cases hNext

/- A path is checked before the updater is. -/
theorem checkUpdate_settled
    (path : UpgradePath) :
    Call.Settled p w u (.checkUpdate path) := by
  have hTalk :
      p.result (Call.talk (.checkUpdate path) u) w =
        p.result (u.checkUpdate path) w :=
    rfl
  apply Call.Settled.of_result
  · rintro ⟨hValid, hReady⟩
    rw [hTalk]
    unfold checkUpdate
    rw [if_neg (not_not_intro hValid),
      if_neg (not_not_intro hReady)]
    rfl
  · intro hShut
    rw [hTalk]
    unfold checkUpdate
    by_cases hValid : path.Valid
    · have hBusy : ¬ u.Ready := fun hReady =>
        hShut ⟨hValid, hReady⟩
      rw [if_neg (not_not_intro hValid), if_pos hBusy]
      exact ⟨.invalidState, rfl⟩
    · rw [if_pos hValid]
      exact ⟨.invalidArgument, rfl⟩

/- The platform is asked once the updater is at rest. -/
theorem result_enableUpdates :
    p.result u.enableUpdates w =
      if u.Ready ∧ p.result isAllowed w = true ∧
          p.result u.powerOn (p.asked w) = true then
        .ok u.begun
      else
        .error .invalidState := by
  unfold enableUpdates
  by_cases hReady : u.Ready
  · rw [if_neg (not_not_intro hReady), Platform.result_bind]
    by_cases hAllowed : p.result isAllowed w = true
    · have hAllows := Platform.result_isAllowed.mp hAllowed
      rw [Platform.left_isAllowed hAllows,
        if_neg (not_not_intro hAllowed), Platform.result_bind]
      by_cases hOn : p.result u.powerOn (p.asked w) = true
      · rw [if_neg (not_not_intro hOn),
          if_pos ⟨hReady, hAllowed, hOn⟩]
        rfl
      · rw [if_pos hOn, if_neg fun hAll => hOn hAll.2.2]
        rfl
    · rw [if_pos hAllowed,
        if_neg fun hAll => hAllowed hAll.2.1]
      rfl
  · rw [if_pos hReady, if_neg fun hAll => hReady hAll.1]
    rfl

theorem enableUpdates_settled :
    Call.Settled p w u .enableUpdates := by
  have hTalk :
      p.result (Call.talk .enableUpdates u) w =
        p.result u.enableUpdates w :=
    rfl
  rw [result_enableUpdates] at hTalk
  constructor
  · rintro hSettles ⟨hReady, hAllows, hPowers⟩
    have hAllowed := Platform.result_isAllowed.mpr hAllows
    have hOn := Platform.result_powerOn (hSettles rfl) hPowers
    rw [hTalk]
    exact if_pos ⟨hReady, hAllowed, hOn⟩
  · intro hShut
    refine ⟨.invalidState, ?_⟩
    rw [hTalk]
    apply if_neg
    rintro ⟨hReady, hAllowed, hOn⟩
    exact
      hShut
        ⟨hReady, Platform.result_isAllowed.mp hAllowed,
          Platform.powers_of_result_powerOn hOn⟩
  · intro next hNext
    rw [hTalk] at hNext
    split at hNext
    · exact (Except.ok.inj hNext).symm
    · cases hNext

/- So each request is settled by what it depends on. -/
theorem request_settled
    (hRequest : call ≠ .tick) :
    call.Settled p w u := by
  cases call with
  | tick =>
      exact absurd rfl hRequest
  | setPath path =>
      exact .of_result setPath_eq_ok exists_setPath_eq_error
  | checkUpdate path =>
      exact checkUpdate_settled path
  | enableUpdates =>
      exact enableUpdates_settled

------------------------------------------------------------
-- Transcripts of Requests
------------------------------------------------------------

variable
  {talk rest : List Exchange}
  {answer : Except Fault Updater}

/-
  How a request has ended: it was accepted with its whole effect
  as the updater was open for it, or it was refused and only
  inquiries were made.
-/
def Call.Ended
    (u : Updater)
    (call : Call)
    (talk : List Exchange)
    (answer : Except Fault Updater) : Prop :=
  (call.Open u ∧ answer = .ok (call.accepted u)) ∨
    (∃ fault, answer = .error fault) ∧
      ∀ exchange ∈ talk, exchange.question ∈ inquiries

/- A request may be refused after some inquiries. -/
theorem ended_of_refuses
    {fault : Fault}
    (hInquiries :
      ∀ exchange ∈ talk, exchange.question ∈ inquiries)
    (hUnfolds :
      (return .error fault :
        Talk (Except Fault Updater)).Unfolds rest
          (some answer)) :
    call.Ended u (talk ++ rest) answer := by
  rcases (Dialogue.unfolds_done _ _ _).mp hUnfolds with
    ⟨rfl, rfl⟩
  rw [List.append_nil]
  exact .inr ⟨⟨fault, rfl⟩, hInquiries⟩

/- Once a run has begun, nothing is left to be refused. -/
theorem ended_of_begins
    {started : Updater}
    (hOpen : call.Open u)
    (hAccepted : started.begun = call.accepted u)
    (hUnfolds :
      (do return .ok (← started.beginRun) :
        Talk (Except Fault Updater)).Unfolds rest
          (some answer)) :
    call.Ended u talk answer := by
  rw [Dialogue.unfolds_bind] at hUnfolds
  rcases hUnfolds with ⟨begun, _, _, _, hBegin, hEnd⟩
  left
  refine ⟨hOpen, ?_⟩
  rw [((Dialogue.unfolds_done _ _ _).mp hEnd).2,
    hBegin.yields beginRun_yields, hAccepted]

/- So is the end of a run that was asked of the platform. -/
theorem enableUpdates_ended
    (hUnfolds :
      u.enableUpdates.Unfolds talk (some answer)) :
    Call.enableUpdates.Ended u talk answer := by
  unfold enableUpdates at hUnfolds
  rw [Dialogue.unfolds_ite] at hUnfolds
  by_cases hReady : u.Ready
  · have hAsks := hUnfolds.2 (not_not_intro hReady)
    rw [Dialogue.unfolds_bind] at hAsks
    rcases hAsks with
      ⟨allowed, first, second, rfl, hFirst, hSecond⟩
    have hAsked := hFirst.asks isAllowed_asks
    rw [Dialogue.unfolds_ite] at hSecond
    cases allowed with
    | false =>
        exact ended_of_refuses hAsked (hSecond.1 nofun)
    | true =>
        have hPowers := hSecond.2 (not_not_intro rfl)
        rw [Dialogue.unfolds_bind] at hPowers
        rcases hPowers with
          ⟨powered, third, fourth, rfl, hThird, hFourth⟩
        have hBoth :
            ∀ exchange ∈ first ++ third,
              exchange.question ∈ inquiries :=
          List.forall_mem_append.mpr
            ⟨hAsked, hThird.asks powerOn_asks⟩
        rw [Dialogue.unfolds_ite] at hFourth
        cases powered with
        | false =>
            rw [← List.append_assoc]
            exact ended_of_refuses hBoth (hFourth.1 nofun)
        | true =>
            exact
              ended_of_begins hReady rfl
                (hFourth.2 (not_not_intro rfl))
  · exact
      ended_of_refuses (List.forall_mem_nil _)
        (hUnfolds.1 hReady)

theorem request_ended
    (hRequest : call ≠ .tick)
    (hUnfolds : (call.talk u).Unfolds talk (some answer)) :
    call.Ended u talk answer := by
  cases call with
  | tick =>
      exact absurd rfl hRequest
  | setPath path =>
      rcases (Dialogue.unfolds_done _ _ _).mp hUnfolds with
        ⟨rfl, rfl⟩
      by_cases hOpen : Call.Open u (.setPath path)
      · exact .inl ⟨hOpen, setPath_eq_ok hOpen⟩
      · exact
          .inr
            ⟨exists_setPath_eq_error hOpen,
              List.forall_mem_nil _⟩
  | checkUpdate path =>
      unfold Call.talk checkUpdate at hUnfolds
      simp only [Dialogue.unfolds_ite] at hUnfolds
      by_cases hValid : path.Valid
      · have hUnfolds := hUnfolds.2 (not_not_intro hValid)
        by_cases hReady : u.Ready
        · exact
            ended_of_begins ⟨hValid, hReady⟩ rfl
              (hUnfolds.2 (not_not_intro hReady))
        · exact
            ended_of_refuses (List.forall_mem_nil _)
              (hUnfolds.1 hReady)
      · exact
          ended_of_refuses (List.forall_mem_nil _)
            (hUnfolds.1 hValid)
  | enableUpdates =>
      exact enableUpdates_ended hUnfolds

/- Inquiries store no record. -/
theorem not_store_of_inquiry
    {question : Question}
    (hInquiry : question ∈ inquiries)
    (record : List UInt8) :
    question ≠ .store record := by
  rintro rfl
  simp [inquiries] at hInquiry

end Updater

/- Telemetry is told nothing by inquiries. -/
theorem Telemetry.after_inquiries
    {talk : List Exchange}
    (hInquiries :
      ∀ exchange ∈ talk,
        exchange.question ∈ Updater.inquiries)
    (t : Telemetry) :
    t.after talk = t := by
  unfold Telemetry.after
  induction talk with
  | nil =>
      rfl
  | cons exchange talk ih =>
      rw [List.forall_mem_cons] at hInquiries
      have hSame : t.hear exchange = t := by
        rcases exchange with ⟨question, answer⟩
        have hInquiry := hInquiries.1
        cases question with
        | count counter => simp [Updater.inquiries] at hInquiry
        | showStatus status =>
            simp [Updater.inquiries] at hInquiry
        | _ => rfl
      rw [List.foldl_cons, hSame]
      exact ih hInquiries.2

------------------------------------------------------------
-- Turns that Are Requests
------------------------------------------------------------

namespace Turn

/- The call was accepted. -/
def Accepted
    (turn : Turn) : Prop :=
  (turn.call.talk turn.before).Unfolds turn.talk
    (some (.ok turn.after))

/- The call was refused. -/
def Refused
    (turn : Turn) : Prop :=
  ∃ fault : Fault,
    (turn.call.talk turn.before).Unfolds turn.talk
      (some (.error fault))

/-
  The request was accepted with its whole effect, or refused
  with none: not on the updater, nor on the stored record, nor
  on what telemetry counts.
-/
structure Atomic
    (turn : Turn)
    (l l' : Life) : Prop where
  settled : turn.Accepted ∨ turn.Refused
  accepted :
    turn.Accepted →
      turn.call.Open turn.before ∧
        turn.after = turn.call.accepted turn.before
  refused :
    turn.Refused →
      turn.after = turn.before ∧
        l'.course.stored = l.course.stored ∧
          ∀ t : Telemetry, t.after turn.talk = t

variable
  {s : Setting}
  {turn : Turn}
  {l l' : Life}

/- A call that comes back is accepted, or changes nothing. -/
theorem accepted_or_refused
    (hUnfolds :
      (turn.call.carryOut turn.before).Unfolds turn.talk
        (some turn.after)) :
    turn.Accepted ∨ turn.Refused ∧ turn.after = turn.before := by
  unfold Updater.Call.carryOut at hUnfolds
  rw [Dialogue.unfolds_bind] at hUnfolds
  rcases hUnfolds with
    ⟨answer, first, second, hTalk, hFirst, hEnd⟩
  cases answer with
  | ok next =>
      rcases (Dialogue.unfolds_done _ _ _).mp hEnd with
        ⟨rfl, hAfter⟩
      left
      unfold Accepted
      rw [hTalk, List.append_nil, hAfter]
      exact hFirst
  | error fault =>
      rcases (Dialogue.unfolds_done _ _ _).mp hEnd with
        ⟨rfl, hAfter⟩
      right
      refine ⟨⟨fault, ?_⟩, hAfter⟩
      rw [hTalk, List.append_nil]
      exact hFirst

/- A call is not both accepted and refused. -/
theorem Refused.not_accepted
    (hRefused : turn.Refused) :
    ¬ turn.Accepted := by
  rcases hRefused with ⟨fault, hRefused⟩
  intro hAccepted
  unfold Accepted at hAccepted
  rw [← Dialogue.follow?_eq_some_iff] at hRefused hAccepted
  rw [hAccepted] at hRefused
  cases hRefused

/- A request with which a run begins was not refused. -/
theorem Atomic.accepted_of_begins
    (hAtomic : turn.Atomic l l')
    (hBegins : turn.Begins) :
    turn.Accepted := by
  apply hAtomic.settled.resolve_right
  intro hRefused
  have hSame := (hAtomic.refused hRefused).1
  have hStage := hBegins.2
  rw [hSame, hBegins.1] at hStage
  cases hStage

/- A turn that only makes inquiries leaves the stored record. -/
theorem Takes.stored_of_inquiries
    (hTakes : turn.Takes s l l')
    (hInquiries :
      ∀ exchange ∈ turn.talk,
        exchange.question ∈ Updater.inquiries) :
    l'.course.stored = l.course.stored := by
  have hKept :
      ∀ c question answer c', True →
        (∃ talk, c.exchanges = l.course.exchanges ++ talk ∧
          ((∀ exchange ∈ talk,
              exchange.question ∈ Updater.inquiries) →
            c.stored = l.course.stored)) →
        Course.goes s c question answer c' →
        ∃ talk, c'.exchanges = l.course.exchanges ++ talk ∧
          ((∀ exchange ∈ talk,
              exchange.question ∈ Updater.inquiries) →
            c'.stored = l.course.stored) := by
    rintro c question answer c' - ⟨talk, hTalk, hStored⟩ hGoes
    refine ⟨talk ++ [⟨question, answer⟩], ?_, ?_⟩
    · rw [Course.exchanges_of_goes hGoes, hTalk,
        List.append_assoc]
    · intro hAll
      rw [List.forall_mem_append, List.forall_mem_singleton]
        at hAll
      rw [Course.stored_of_goes hGoes
        (Updater.not_store_of_inquiry hAll.2)]
      exact hStored hAll.1
  rcases hTakes.leads.keeps (Dialogue.asks_true _) hKept
    ⟨[], (List.append_nil _).symm, fun _ => rfl⟩ with
    ⟨talk, hTalk, hStored⟩
  rw [hTakes.talk] at hTalk
  exact hStored (List.append_cancel_left hTalk ▸ hInquiries)

/- A request that comes back was atomic. -/
theorem Takes.atomic
    (hTakes : turn.Takes s l l')
    (hRequest : turn.call ≠ .tick) :
    turn.Atomic l l' := by
  have hEither := accepted_or_refused hTakes.unfolds
  refine ⟨hEither.imp_right And.left, ?_, ?_⟩
  · intro hAccepted
    rcases Updater.request_ended hRequest hAccepted with
      ⟨hOpen, hEffect⟩ | ⟨⟨fault, hFault⟩, -⟩
    · exact ⟨hOpen, Except.ok.inj hEffect⟩
    · cases hFault
  · intro hRefused
    have hInquiries :
        ∀ exchange ∈ turn.talk,
          exchange.question ∈ Updater.inquiries := by
      rcases hRefused with ⟨fault, hUnfolds⟩
      rcases Updater.request_ended hRequest hUnfolds with
        ⟨-, hEffect⟩ | ⟨-, hInquiries⟩
      · cases hEffect
      · exact hInquiries
    exact
      ⟨(hEither.resolve_left hRefused.not_accepted).2,
        hTakes.stored_of_inquiries hInquiries,
        Telemetry.after_inquiries hInquiries⟩

end Turn

------------------------------------------------------------
-- One Run in Flight
------------------------------------------------------------

namespace Life

variable
  {s : Setting}
  {start u : Updater}
  {earlier later turns : List Turn}
  {first : Turn}
  {l : Life}

/- Until it ends, a run that was asked for is in flight. -/
theorem Session.busy_or_ended
    (hSession : l.Session s start (earlier ++ first :: later))
    (hRun : first.call.asksRun = true)
    (hAccepted : first.Accepted)
    (hUp : l.updater = some u) :
    u.stage ≠ .idle ∨ ∃ turn ∈ later, turn.EndsRun := by
  induction later using List.reverseRecOn generalizing l u with
  | nil =>
      rcases hSession.exists_takes with ⟨l₀, -, hTakes⟩
      rw [hTakes.after, Option.some_inj] at hUp
      have hRequest : first.call ≠ .tick := fun hTick => by
        rw [hTick] at hRun
        cases hRun
      have hEffect :=
        ((hTakes.atomic hRequest).accepted hAccepted).2
      left
      rw [← hUp, hEffect, (Updater.begun_of_asksRun hRun).1]
      exact nofun
  | append_singleton later turn ih =>
      rw [← List.cons_append, ← List.append_assoc] at hSession
      rcases hSession.exists_takes with ⟨l₀, hBefore, hTakes⟩
      rw [hTakes.after, Option.some_inj] at hUp
      rcases ih hBefore hTakes.before with
        hBusy | ⟨other, hMem, hEnds⟩
      · by_cases hIdle : u.stage = .idle
        · right
          exact ⟨turn, by simp, hBusy, hUp ▸ hIdle⟩
        · exact .inl hIdle
      · right
        exact ⟨other, List.mem_append_left _ hMem, hEnds⟩

/-
  The requests of a boot. On each platform and in each state of
  the updater, a request is accepted just when it is admitted.
  The wait for the power of the modem ends if the delays in it
  advance the clock. A request for a run, if accepted, begins it
  afresh. Each request is atomic. Once a run is asked for, the
  next request is only accepted if a turn has ended the run and
  the updater is at rest.
-/
theorem requests_atomic
    (hSession : l.Session s start turns) :
    (∀ (W : Type) (p : Platform W) (w : W) (u : Updater)
        (call : Updater.Call),
      call ≠ .tick → call.Settled p w u) ∧
      (∀ (W : Type) (p : Platform W) (w : W)
          (timeout : UInt32),
        p.Advances (p.began w) timeout (p.awaiting w) →
          p.Ends (p.began w) timeout (p.awaiting w)) ∧
        (∀ (u : Updater) (call : Updater.Call),
          call.asksRun = true →
            (call.accepted u).stage = .qualifyFlags ∧
              (call.accepted u).retries = .none ∧
                (call.accepted u).cooldown = none) ∧
          (∀ (turn : Turn) (l' : Life),
            turn.Takes s l l' →
              turn.call ≠ .tick → turn.Atomic l l') ∧
            ∀ (earlier later : List Turn) (first turn : Turn)
                (l' : Life),
              turns = earlier ++ first :: later →
                first.call.asksRun = true →
                  first.Accepted →
                    turn.Takes s l l' →
                      turn.call ≠ .tick →
                        turn.Accepted →
                          (∃ other ∈ later, other.EndsRun) ∧
                            turn.before.stage = .idle ∧
                              (turn.call.asksRun = true →
                                turn.before.status = .idle) := by
  refine
    ⟨fun W p w u call => Updater.request_settled,
      fun W p w timeout => Platform.Advances.ends,
      fun u call => Updater.begun_of_asksRun,
      fun turn l' hTakes => hTakes.atomic, ?_⟩
  rintro earlier later first turn l' rfl hRun hAccepted hTakes
    hRequest hLater
  have hOpen := ((hTakes.atomic hRequest).accepted hLater).1
  have hIdle := hOpen.rests.1
  have hEnded :=
    (hSession.busy_or_ended hRun hAccepted hTakes.before
      ).resolve_left (not_not_intro hIdle)
  exact
    ⟨hEnded, hIdle, fun hAsks => (hOpen.rests.2 hAsks).2.2⟩

end Life

namespace Replay

variable
  {script : Update.Script}
  {call : Updater.Call}
  {turn : Turn}
  {r : Replay}

/- A call that comes back is the next turn of the session. -/
theorem along_of_turn
    (hTurn : r.turn? script call = some turn) :
    r.along script call =
      ⟨r.turns ++ [turn], r.next script call⟩ := by
  unfold along
  rw [hTurn]

/- A run along a path of the caller that is not wanted. -/
def unwanted : Replay :=
  (rested.along .smooth (.checkUpdate .aside)).along .unwanted
    .tick

end Replay

/-
  A platform whose modem is found on 250 milliseconds after the
  start of the clock, which only a delay moves on.
-/
def Update.Platform.sluggish : Platform Nat
| .networkPower => fun t => (if 250 ≤ t then .on else .off, t)
| .now => fun t => (.ofNat t, t)
| .delay ms => fun t => ((), t + ms.toNat)
| question =>
    pure (Script.smooth.answer (.fresh none false) question)

/- Each delay of the sluggish platform moves the clock on. -/
theorem Update.Platform.sluggish_advances
    (timeout : UInt32) :
    sluggish.Advances (sluggish.began (sluggish.asked 0))
      timeout (sluggish.awaiting (sluggish.asked 0)) := by
  have hLooked : ∀ n, sluggish.looked 0 n = 100 * n := by
    intro n
    induction n with
    | zero =>
        rfl
    | succ n ih =>
        have hNext :
            sluggish.looked 0 (n + 1) =
              sluggish.looked 0 n + 100 :=
          rfl
        omega
  have hClock :
      ∀ n ≤ timeout.toNat,
        (sluggish.clock 0 n).toNat = 100 * n := by
    intro n hWithin
    have hReading :
        sluggish.clock 0 n = .ofNat (sluggish.looked 0 n) :=
      rfl
    have hTimeout := timeout.toNat_lt
    rw [hReading, hLooked, Instant.toNat_ofNat]
    unfold Instant.last UInt64.size
    omega
  constructor
  · exact Nat.zero_le _
  · intro n hWithin _
    change
      (sluggish.clock 0 n).toNat <
        (sluggish.clock 0 (n + 1)).toNat
    rw [hClock n (by omega), hClock (n + 1) (by omega)]
    omega

/- Within the standard timeout the modem of it is on. -/
theorem Update.Platform.sluggish_powers :
    sluggish.Powers Policy.standard.powerOnTimeout
      (sluggish.asked 0) := by
  refine .inr ⟨rfl, 3, rfl, ?_⟩
  decide +kernel

/-
  A second run is accepted, as a turn has ended the first. Also,
  the updater at the start of the boot can be enabled while the
  modem is slow to come on.
-/
theorem Life.second_run_accepted :
    ∃ (start : Updater) (first last second : Turn)
      (l l' : Life),
      l.Session .board start [first, last] ∧
        first.call = .checkUpdate .aside ∧
          first.Accepted ∧
            last.EndsRun ∧
              second.Takes .board l l' ∧
                second.call = .enableUpdates ∧
                  second.Accepted ∧
                    Platform.sluggish.result
                        start.enableUpdates 0 =
                      .ok start.begun := by
  have hStart :
      Replay.rested.life.updater.any
        (fun u => u.Ready ∧ u.policy = .standard) = true := by
    decide +kernel
  have hFirst :
      (Replay.rested.turn? .smooth (.checkUpdate .aside)).any
        (fun turn => turn.Begins) = true := by
    decide +kernel
  have hLast :
      ((Replay.rested.along .smooth
        (.checkUpdate .aside)).turn? .unwanted .tick).isSome =
        true := by
    decide +kernel
  have hSecond :
      (Replay.unwanted.turn? .smooth .enableUpdates).any
        (fun turn => turn.Begins) = true := by
    decide +kernel
  rcases (Option.any_eq_true _ _).mp hStart with
    ⟨start, hUp, hReady⟩
  rcases of_decide_eq_true hReady with ⟨hReady, hPolicy⟩
  rcases (Option.any_eq_true _ _).mp hFirst with
    ⟨first, hFirst, hBegins⟩
  rcases Option.isSome_iff_exists.mp hLast with ⟨last, hLast⟩
  rcases (Option.any_eq_true _ _).mp hSecond with
    ⟨second, hSecond, hAgain⟩
  have hWhole : Replay.rested.Whole start :=
    .boots (Replay.boots_start .standard false _) hUp
  have hTurns : Replay.unwanted.turns = [first, last] := by
    unfold Replay.unwanted
    rw [Replay.along_of_turn hLast, Replay.along_of_turn hFirst]
    rfl
  have hSession :
      Replay.unwanted.life.Session .board start
        [first, last] := by
    rw [← hTurns]
    exact (hWhole.along _).along _
  have hCall := Replay.call_of_turn hFirst
  have hCallAgain := Replay.call_of_turn hSecond
  have hTakes := Replay.takes_next hSecond
  -- At the start of the boot and at the end of the first run,
  -- the next request is atomic.
  rcases requests_atomic hWhole with
    ⟨hSettled, hWait, -, hRequest, -⟩
  rcases requests_atomic hSession with
    ⟨-, -, -, hRequestAgain, hFlight⟩
  have hAccepted :=
    (hRequest first _ (Replay.takes_next hFirst)
      (by rw [hCall]; nofun)).accepted_of_begins
      (of_decide_eq_true hBegins)
  have hAcceptedAgain :=
    (hRequestAgain second _ hTakes
      (by rw [hCallAgain]; nofun)).accepted_of_begins
      (of_decide_eq_true hAgain)
  have hEnded :=
    (hFlight [] [last] first second _ rfl
      (by rw [hCall]; rfl) hAccepted hTakes
      (by rw [hCallAgain]; nofun) hAcceptedAgain).1
  rcases hEnded with ⟨other, hMem, hEnds⟩
  rw [List.mem_singleton] at hMem
  have hEnabled :=
    (hSettled Nat .sluggish 0 start .enableUpdates nofun
      ).accepts
      (fun _ _ _ =>
        hWait _ _ _ _ (Platform.sluggish_advances _))
      ⟨hReady, ⟨rfl, rfl, rfl⟩,
        hPolicy ▸ Platform.sluggish_powers⟩
  exact
    ⟨start, first, last, second, _, _, hSession, hCall,
      hAccepted, hMem ▸ hEnds, hTakes, hCallAgain,
      hAcceptedAgain, hEnabled⟩

end Fota
