import Fota.Bench.Board
import Fota.Board.Device
import Fota.Proofs.Storage.Slots
import Fota.Proofs.Update.Record
import Fota.Update.Updater

/-
  This file shows that a device recalls the checkpoint that its
  updater stored, or none. It recalls the checkpoint from the
  memory as it was left, and no change of a single byte of the
  memory makes it recall another one.

  Key definitions include:
    * `Hardware.KeepsFlash`
    * `Device.Opens`
    * `Device.Recalls`

  The main statement is `Device.checkpoint_recalled_or_lost`.
-/

namespace Fota

/- The memory of the hardware is what it was last set to. -/
def Hardware.KeepsFlash
    (σ : Type)
    [Hardware σ] : Prop :=
  ∀ (flash : Flash) (hardware : σ),
    Hardware.flash (Hardware.setFlash flash hardware) = flash

namespace Device

variable
  {σ : Type}
  [Hardware σ]
  {d : Device σ}
  {u : Updater}
  {c : Checkpoint}
  {found : Option Checkpoint}
  {flash : Flash}
  {target : Target}
  {offset : UInt32}

------------------------------------------------------------
-- Storing and Recalling
------------------------------------------------------------

/-
  A device has opened the cache at an offset of a memory, and
  the slots fit behind it.
-/
structure Opens
    (target : Target)
    (offset : UInt32)
    (flash : Flash)
    (d : Device σ) : Prop where
  flash_eq : d.flash = flash
  placed : Cache.place target offset flash = .ok d.cache
  fits : d.cache.Fits flash

/- Where a cache lies is told by the offset alone. -/
theorem Opens.cache_eq
    {later : Device σ}
    {flash' : Flash}
    (hLater : later.Opens target offset flash')
    (hOpens : d.Opens target offset flash) :
    later.cache = d.cache := by
  have hLaterAt := Cache.place_eq_ok_iff.mp hLater.placed
  have hAt := Cache.place_eq_ok_iff.mp hOpens.placed
  cases hLaterCache : later.cache
  cases hCache : d.cache
  simp only [hLaterCache, hCache] at hLaterAt hAt
  rw [hLaterAt.1, hAt.1]

/- What the updater of a device recalls. -/
def recalled
    (d : Device σ) : Option Checkpoint :=
  match d.cacheGet .updateRecord Record.size with
  | .ok record => Record.decode? record
  | .error _ => none

/- An updater recalls what the record in the cache holds. -/
theorem run_loadCheckpoint
    (d : Device σ) :
    (Updater.loadCheckpoint.run answer).run.run d =
      (.ok d.recalled, d) := by
  unfold Updater.loadCheckpoint recalled
  change
    ((Dialogue.run answer
      (match d.cacheGet .updateRecord Record.size with
      | .ok record => Dialogue.done (Record.decode? record)
      | .error _ => Dialogue.done none)).run.run d) =
      _
  cases d.cacheGet .updateRecord Record.size with
  | error fault =>
      rfl
  | ok record =>
      rfl

/- An updater stores the record of its checkpoint in the cache. -/
theorem run_persist
    (u : Updater)
    (d : Device σ) :
    (u.persist.run answer).run.run d =
      (.ok (),
        (d.cacheSet .updateRecord
          (Record.encode u.checkpoint)).2) := by
  unfold Updater.persist Update.Talk.store
  -- What the record says does not matter here.
  generalize Record.encode u.checkpoint = record
  rfl

------------------------------------------------------------
-- The Record in Memory
------------------------------------------------------------

/- The cache gives back the record of a checkpoint. -/
def HasRecord
    (c : Checkpoint)
    (cache : Cache)
    (flash : Flash) : Prop :=
  cache.get .updateRecord Record.size flash =
    .ok (Record.encode c)

/- A checkpoint is recalled from its record. -/
theorem recalled_of_hasRecord
    (hRecord : HasRecord c d.cache d.flash) :
    d.recalled = some c := by
  unfold HasRecord at hRecord
  unfold recalled cacheGet
  rw [hRecord]
  exact Record.decode?_encode c

/-
  No other checkpoint is recalled after a byte was changed: the
  changed slot may still give back a value, but not another one
  of the size of a record.
-/
theorem recalled_of_poke
    {position : Nat}
    {byte : UInt8}
    (hRecord : HasRecord c d.cache flash)
    (hFlash : d.flash = flash.poke position [byte]) :
    d.recalled = some c ∨ d.recalled = none := by
  unfold recalled cacheGet
  rw [hFlash]
  cases hGot :
      d.cache.get .updateRecord Record.size
        (flash.poke position [byte]) with
  | error fault =>
      exact .inr rfl
  | ok value =>
      by_cases hFramed : Record.Framed value
      · have hLength :
            value.length = (Record.encode c).length := by
          rw [hFramed.1, Record.length_encode]
        have hSame : value = Record.encode c :=
          Cache.get_poke hRecord hGot hLength
        rw [hSame]
        exact .inl (Record.decode?_encode c)
      · simp [Record.decode?, hFramed]

/- A record fits a slot of the cache. -/
theorem length_encode_le
    (c : Checkpoint) :
    (Record.encode c).length ≤ Cache.valueMax := by
  rw [Record.length_encode]
  decide

/- Storing a checkpoint leaves its record in the memory. -/
theorem exists_persisted
    (hKeeps : Hardware.KeepsFlash σ)
    (hOpens : d.Opens target offset d.flash)
    (hReads : d.flash.readFails = false)
    (hWrites : d.flash.writeFails = false)
    (u : Updater) :
    ∃ kept : Device σ,
      (u.persist.run answer).run.run d = (.ok (), kept) ∧
        kept.Opens target offset kept.flash ∧
          HasRecord u.checkpoint kept.cache kept.flash := by
  have hFits := hOpens.fits
  have hMax := length_encode_le u.checkpoint
  have hRoom :
      (Record.encode u.checkpoint).length ≤ Record.size :=
    Nat.le_of_eq (Record.length_encode u.checkpoint)
  have hKept :
      (d.cacheSet .updateRecord
          (Record.encode u.checkpoint)).2.flash =
        d.flash.poke (d.cache.slotStart .updateRecord)
          (Cache.image .updateRecord
            (Record.encode u.checkpoint)) := by
    unfold cacheSet keepFlash
    rw [Cache.set_eq_ok .updateRecord hFits hWrites hMax]
    exact hKeeps _ _
  have hCache :
      (d.cacheSet .updateRecord
          (Record.encode u.checkpoint)).2.cache =
        d.cache := by
    unfold cacheSet keepFlash
    split <;> rfl
  refine ⟨_, run_persist u d, ⟨rfl, ?_, ?_⟩, ?_⟩
  · rw [Cache.place_eq_ok_iff, hCache, hKept,
      Flash.capacity_poke]
    exact Cache.place_eq_ok_iff.mp hOpens.placed
  · rw [hCache, hKept]
    exact hFits.poke _ _
  · unfold HasRecord
    rw [hCache, hKept]
    exact Cache.get_set hFits hReads hMax hRoom

------------------------------------------------------------
-- Recalling
------------------------------------------------------------

/-
  What an updater stores is recalled, also by firmware that
  opens the cache anew. After any byte of the memory was
  changed, it is recalled or nothing is.
-/
theorem checkpoint_recalled_or_lost
    (hKeeps : Hardware.KeepsFlash σ)
    (hOpens : d.Opens target offset d.flash)
    (hReads : d.flash.readFails = false)
    (hWrites : d.flash.writeFails = false)
    (u : Updater) :
    ∃ kept : Device σ,
      (u.persist.run answer).run.run d = (.ok (), kept) ∧
        kept.Opens target offset kept.flash ∧
          (∀ later : Device σ,
            later.Opens target offset kept.flash →
              (Updater.loadCheckpoint.run answer).run.run later =
                (.ok (some u.checkpoint), later)) ∧
            ∀ (position : Nat) (byte : UInt8),
              let changed := kept.flash.poke position [byte]
              Cache.place target offset changed = .ok kept.cache ∧
                ∀ later : Device σ,
                  later.Opens target offset changed →
                    ∃ found ∈ [some u.checkpoint, none],
                      (Updater.loadCheckpoint.run
                          answer).run.run later =
                        (.ok found, later) := by
  rcases exists_persisted hKeeps hOpens hReads hWrites u with
    ⟨kept, hRun, hKept, hRecord⟩
  refine ⟨kept, hRun, hKept, ?_, ?_⟩
  · intro later hLater
    have hCache : later.cache = kept.cache :=
      hLater.cache_eq hKept
    have hFound : later.recalled = some u.checkpoint := by
      apply recalled_of_hasRecord
      rw [hCache, hLater.flash_eq]
      exact hRecord
    rw [run_loadCheckpoint, hFound]
  · intro position byte changed
    have hPlaced :
        Cache.place target offset changed = .ok kept.cache := by
      rw [Cache.place_eq_ok_iff, Flash.capacity_poke]
      exact Cache.place_eq_ok_iff.mp hKept.placed
    refine ⟨hPlaced, ?_⟩
    intro later hLater
    have hCache : later.cache = kept.cache :=
      hLater.cache_eq hKept
    rw [← hCache] at hRecord
    have hFound := recalled_of_poke hRecord hLater.flash_eq
    refine ⟨later.recalled, ?_, run_loadCheckpoint later⟩
    rcases hFound with hFound | hFound <;> simp [hFound]

/- A device in safe mode on a bench, with erased memory. -/
def erasedAt
    (cache : Cache) : Device Bench.Board where
  base :=
    { hardware :=
        .fresh (.fresh (.ofNat 0) 1 []) 16384 true none none
      mailbox := .empty
      cloud := .fresh true
      telemetry := .initial }
  buffer := .empty
  link := .fresh .cellular .standard
  sara := .fresh Link.Policy.standard.powerOnTimeout
  cache := cache
  safeMode := true
  updatesEnabled := true
  lastRegistrationPoll := none

theorem keepsFlash_board :
    Hardware.KeepsFlash Bench.Board := by
  intro flash board
  rfl

/- A run that is about to download is recalled or lost. -/
theorem checkpoint_recalled_on_bench :
    let u :=
      (Updater.fresh .standard .standard).moveTo .downloadReady
    Hardware.KeepsFlash Bench.Board ∧
      (erasedAt ⟨12288⟩).Opens .bits32 12288 (.erased 16384) ∧
        ∃ kept : Device Bench.Board,
          (u.persist.run answer).run.run (erasedAt ⟨12288⟩) =
              (.ok (), kept) ∧
            (Updater.loadCheckpoint.run answer).run.run kept =
              (.ok (some u.checkpoint), kept) := by
  intro u
  have hOpens :
      (erasedAt ⟨12288⟩).Opens .bits32 12288
        (.erased 16384) := by
    have hFits :
        (erasedAt ⟨12288⟩).cache.Fits (.erased 16384) := by
      unfold Cache.Fits Flash.capacity Flash.erased
      rw [List.length_replicate]
      decide
    exact ⟨rfl, hFits.place_eq .bits32, hFits⟩
  have hWorks :
      (erasedAt ⟨12288⟩).flash.readFails = false ∧
        (erasedAt ⟨12288⟩).flash.writeFails = false :=
    ⟨rfl, rfl⟩
  rcases checkpoint_recalled_or_lost keepsFlash_board hOpens
      hWorks.1 hWorks.2 u with
    ⟨kept, hRun, hKept, hRecalled, -⟩
  exact ⟨keepsFlash_board, hOpens, kept, hRun,
    hRecalled kept hKept⟩

end Device

end Fota
