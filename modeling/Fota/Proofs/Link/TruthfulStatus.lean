import Fota.Proofs.Link.Supervision

/-
  This file shows when a supervised link is what it seems to be.
  It is, unless an attempt to attach is announced while the link
  is announced as up: the radio has lost the link, but no round
  of supervision has noticed it. Until the link is announced as
  down, it then counts as connected, but its status does not.

  Key definitions include:
    * `Link.Truthful`
    * `Link.Account`

  The main statements are `Link.truthful_iff_not_overlaid` and
  `Link.connecting_while_connected`.
-/

namespace Fota

namespace Link

------------------------------------------------------------
-- Truthful Links
------------------------------------------------------------

/-
  At most one of the flags is set, and the status agrees with
  them. In particular a link whose attempt is under way does not
  carry data.
-/
structure Truthful
    (l : Link) : Prop where
  exclusive : ¬ (l.connecting ∧ l.connected)
  connecting : l.status = .connecting ↔ l.connecting
  connected : l.status = .connected ↔ l.connected
  disconnected :
    l.status = .disconnected ↔ ¬ l.connecting ∧ ¬ l.connected
  ready :
    ∀ technology, l.isReadyFor technology → ¬ l.connecting

/- The status that the flags of a link call for. -/
def dueStatus
    (l : Link) : LinkStatus :=
  if l.connecting then
    .connecting
  else if l.connected then
    .connected
  else
    .disconnected

theorem truthful_iff
    {l : Link} :
    l.Truthful ↔
      ¬ (l.connecting ∧ l.connected) ∧ l.status = l.dueStatus := by
  constructor
  · intro hTruthful
    refine ⟨hTruthful.exclusive, ?_⟩
    unfold dueStatus
    split
    · next hUnderWay =>
        exact hTruthful.connecting.mpr hUnderWay
    · next hIdle =>
        split
        · next hUp =>
            exact hTruthful.connected.mpr hUp
        · next hDown =>
            exact hTruthful.disconnected.mpr ⟨hIdle, hDown⟩
  · rintro ⟨hExclusive, hStatus⟩
    unfold dueStatus at hStatus
    constructor <;>
      cases hUnderWay : l.connecting <;>
      cases hUp : l.connected <;>
      simp_all [isReadyFor]

------------------------------------------------------------
-- Accounts
------------------------------------------------------------

/-
  What the announcements say of a link: whether it is up, and
  whether an attempt was announced while it was.
-/
structure Account where
  up : Bool
  overlaid : Bool
deriving DecidableEq, Repr

namespace Account

/- Nothing was announced. -/
def empty : Account where
  up := false
  overlaid := false

/- Each announcement brings the account up to date. -/
def note :
    Account → Exchange → Account
| _, ⟨.announce _ .connected, _⟩ => ⟨true, false⟩
| _, ⟨.announce _ .disconnected, _⟩ => ⟨false, false⟩
| a, ⟨.announce _ .connecting, _⟩ => { a with overlaid := a.up }
| a, _ => a

/- The account of a log. -/
def ofLog
    (log : List Exchange) : Account :=
  log.foldl note empty

end Account

/- A link agrees with the account of its announcements. -/
structure Agrees
    (l : Link)
    (a : Account) : Prop where
  up : l.connected = a.up
  truthful : a.overlaid = false → l.Truthful
  overlaid :
    a.overlaid = true → l.connected ∧ l.status ≠ .connected

variable
  {l l' : Link}
  {a : Account}
  {talk : List Exchange}

/- Only the flags and the status matter. -/
theorem Agrees.congr
    (hAgrees : l.Agrees a)
    (hStatus : l'.status = l.status)
    (hConnecting : l'.connecting = l.connecting)
    (hConnected : l'.connected = l.connected) :
    l'.Agrees a := by
  rcases hAgrees with ⟨hUp, hTruthful, hOverlaid⟩
  rw [truthful_iff] at hTruthful
  constructor
  · rw [hConnected, hUp]
  · rw [truthful_iff, dueStatus, hStatus, hConnecting, hConnected]
    exact hTruthful
  · rw [hStatus, hConnected]
    exact hOverlaid

/- A link that is announced as down is down. -/
theorem agrees_down
    (hStatus : l.status = .disconnected)
    (hIdle : ¬ l.connecting)
    (hDown : ¬ l.connected) :
    l.Agrees ⟨false, false⟩ where
  up := by simpa using hDown
  truthful _ := truthful_iff.mpr (by simp [dueStatus, *])
  overlaid hOverlaid := by cases hOverlaid

/- An attempt that is announced overlays a link that is up. -/
theorem agrees_attempted
    (hUp : l.connected = a.up)
    (hStatus : l.status ≠ .connected)
    (hDue : ¬ l.connected → l.status = l.dueStatus) :
    l.Agrees { a with overlaid := a.up } where
  up := hUp
  truthful := by
    intro (hDown : a.up = false)
    have hNotUp : ¬ l.connected := by
      rw [hUp, hDown]
      exact Bool.false_ne_true
    rw [truthful_iff]
    exact ⟨fun hBoth => hNotUp hBoth.2, hDue hNotUp⟩
  overlaid hOverlaid := ⟨hUp.trans hOverlaid, hStatus⟩

/- A link that is announced as up is up. -/
theorem agrees_up
    (hStatus : l.status = .connected)
    (hIdle : ¬ l.connecting)
    (hUp : l.connected) :
    l.Agrees ⟨true, false⟩ where
  up := hUp
  truthful _ := truthful_iff.mpr (by simp [dueStatus, *])
  overlaid hOverlaid := by cases hOverlaid

/- What arrives again was there, whether overlaid or not. -/
theorem Agrees.arriveAgain
    (hAgrees : l.Agrees a)
    (hOld : l.connected) :
    Agrees { l.disarm with connecting := false } a where
  up := hAgrees.up
  truthful := by
    intro hNone
    have hTruthful := hAgrees.truthful hNone
    have hIdle : ¬ l.connecting := fun hUnderWay =>
      hTruthful.exclusive ⟨hUnderWay, hOld⟩
    rw [truthful_iff] at hTruthful ⊢
    simpa [dueStatus, disarm, hIdle] using hTruthful.2
  overlaid := hAgrees.overlaid

theorem PowersUp.account
    {result : Except Fault Unit}
    (hPower : PowersUp l talk result l') :
    talk.foldl Account.note a = a := by
  cases hPower <;> rfl

theorem PowersUp.agrees
    {result : Except Fault Unit}
    (hPower : PowersUp l talk result l')
    (hAgrees : l.Agrees a) :
    l'.Agrees a := by
  cases hPower with
  | already hOn =>
      exact hAgrees
  | refused hOff fault =>
      exact hAgrees
  | done hOff =>
      exact hAgrees.congr rfl rfl rfl

theorem Drops.agrees
    {reason : DropReason}
    (hDrop : Drops reason l talk l')
    (hAgrees : l.Agrees a) :
    l'.Agrees (talk.foldl Account.note a) := by
  cases hDrop with
  | nothing hNone =>
      exact hAgrees
  | drop hSome answer =>
      rw [List.foldl_append]
      exact agrees_down rfl Bool.false_ne_true Bool.false_ne_true

/- An attempt that is announced while the link is up overlays it. -/
theorem Attempts.agrees
    {now : Instant}
    (hAttempt : Attempts l now talk l')
    (hAgrees : l.Agrees a) :
    l'.Agrees (talk.foldl Account.note a) := by
  have hArmed : (l.armed now).Agrees a :=
    hAgrees.congr rfl rfl rfl
  cases hAttempt with
  | unknown hPower =>
      have hLink := hPower.agrees hArmed
      rw [List.foldl_append, hPower.account]
      unfold listenForCredentials
      split <;> exact hLink.congr rfl rfl rfl
  | unpowered hPower =>
      rw [List.foldl_append, hPower.account]
      exact (hPower.agrees hArmed).congr rfl rfl rfl
  | held hPower hHeld =>
      rw [List.foldl_append, hPower.account]
      exact (hPower.agrees hArmed).congr rfl rfl rfl
  | refused hPower hFree fault =>
      rw [List.foldl_append, hPower.account]
      refine
        agrees_attempted (hPower.agrees hArmed).up nofun ?_
      intro hDown
      simp_all [dueStatus]
  | begun hPower hFree =>
      rw [List.foldl_append, hPower.account]
      exact
        agrees_attempted (hPower.agrees hArmed).up nofun
          fun _ => rfl

/- Every move keeps the agreement. -/
theorem Move.agrees
    (hMove : Move l talk l')
    (hAgrees : l.Agrees a) :
    l'.Agrees (talk.foldl Account.note a) := by
  cases hMove with
  | request hRequest =>
      exact hAgrees.congr rfl rfl rfl
  | suppress hNew =>
      exact hAgrees.congr rfl rfl rfl
  | powerUp hPower =>
      rw [hPower.account]
      exact hPower.agrees hAgrees
  | powerDown hOn hDown =>
      exact hAgrees.congr rfl rfl rfl
  | powerStays hOn hDown fault =>
      exact hAgrees
  | drop hDrop =>
      exact hDrop.agrees hAgrees
  | tick hQuiet =>
      exact hAgrees.congr rfl rfl rfl
  | tickStopped hStopped =>
      exact hAgrees.congr rfl rfl rfl
  | tickStarted hStarted hDrop =>
      rw [List.foldl_cons, List.foldl_append]
      exact hDrop.agrees (hAgrees.congr rfl rfl rfl)
  | look ready =>
      exact hAgrees
  | arrive hNew =>
      exact agrees_up rfl Bool.false_ne_true rfl
  | arriveAgain hOld =>
      exact hAgrees.arriveAgain hOld
  | lose hIdle hOld =>
      exact agrees_down rfl hIdle Bool.false_ne_true
  | reset hUnderWay hDrop =>
      exact hDrop.agrees hAgrees
  | attempt hFree hAlone hAttempt =>
      exact hAttempt.agrees hAgrees

variable
  {technology : Technology}
  {policy : Policy}
  {log : List Exchange}

theorem agrees_of_supervised
    (hSupervised : Supervised technology policy l log) :
    l.Agrees (Account.ofLog log) :=
  hSupervised.invariant
    (agrees_down rfl Bool.false_ne_true Bool.false_ne_true)
    (fun _ _ _ _ hMove hAgrees => hMove.agrees hAgrees)

/-
  A supervised link is what it seems to be exactly if no attempt
  was announced while it was up.
-/
theorem truthful_iff_not_overlaid
    (hSupervised : Supervised technology policy l log) :
    l.connected = (Account.ofLog log).up ∧
      (l.Truthful ↔ (Account.ofLog log).overlaid = false) := by
  have hAgrees := agrees_of_supervised hSupervised
  refine ⟨hAgrees.up, ?_, hAgrees.truthful⟩
  intro hTruthful
  cases hOverlaid : (Account.ofLog log).overlaid with
  | false =>
      rfl
  | true =>
      rcases hAgrees.overlaid hOverlaid with ⟨hUp, hStatus⟩
      exact absurd (hTruthful.connected.mpr hUp) hStatus

/- A link whose first attempt is under way is what it seems. -/
theorem truthful_of_first_attempt :
    Supervised .cellular .standard attempting firstAttempt ∧
      attempting.Truthful :=
  ⟨supervised_attempting,
    (truthful_iff_not_overlaid supervised_attempting).2.mpr rfl⟩

/- The link once a round of supervision has found it up. -/
def attached : Link :=
  { attempting with
    watchdog := ⟨none, 300000⟩
    status := .connected
    connecting := false
    connected := true }

/- What is asked in that round. -/
def arrival : List Exchange :=
  [⟨.now, .ofNat 8⟩, ⟨.isReady, true⟩,
    ⟨.showLink .cellular .connected, ()⟩,
    ⟨.announce .cellular .connected, ()⟩]

/- The link once it is attached anew without being dropped. -/
def reattaching : Link :=
  { attached with
    watchdog := ⟨some (.ofNat 9), 300000⟩
    status := .connecting
    connecting := true }

/- What is asked for that, as the radio has lost the link. -/
def secondAttempt : List Exchange :=
  [⟨.isReady, false⟩, ⟨.now, .ofNat 9⟩,
    ⟨.count .connectAttempt, ()⟩, ⟨.hasCredentials, true⟩,
    ⟨.showLink .cellular .connecting, ()⟩,
    ⟨.announce .cellular .connecting, ()⟩,
    ⟨.beginConnect, .ok ()⟩]

theorem supervised_reattaching :
    Supervised .cellular .standard reattaching
      (firstAttempt ++ arrival ++ secondAttempt) := by
  have hAttached :
      Supervised .cellular .standard attached
        (firstAttempt ++ arrival) :=
    supervised_attempting.operate .process
      ((Dialogue.follow?_eq_some_iff _ _ _).mp rfl)
  exact
    hAttached.operate (.obey .connect)
      ((Dialogue.follow?_eq_some_iff _ _ _).mp rfl)

/-
  The radio becomes ready, a round of supervision notices it,
  and the radio loses the link. A request to connect that comes
  before the next round starts to attach a link that counts as
  connected.
-/
theorem connecting_while_connected :
    ∃ l log,
      Supervised .cellular .standard l log ∧
        l.connecting ∧
          l.connected ∧
            l.status = .connecting ∧
              l.isReadyFor .cellular ∧
                ¬ l.Truthful :=
  ⟨reattaching, _, supervised_reattaching, rfl, rfl, rfl, rfl,
    fun hTruthful => hTruthful.exclusive ⟨rfl, rfl⟩⟩

end Link

end Fota
