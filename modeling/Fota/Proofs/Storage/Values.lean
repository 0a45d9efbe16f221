import Fota.Proofs.Storage.Slots

/-
  This file shows what the keys of a cache hold. A key holds the
  value that was put into its slot, whatever stood there before,
  and nothing once its slot was blanked. Slots of two keys are
  apart wherever the cache lies, also where its offsets wrap
  around; and they lie in the memory wherever the target counts
  past them without wrapping around.

  Key definitions include:
    * `Cache.held`
    * `Cache.InSlot`
    * `Cache.getInto`
    * `Cache.Unwrapped`

  The main statements are `Cache.held_poke_image`,
  `Cache.not_inSlot_of_ne` and `Cache.Unwrapped.fits`.
-/

namespace Fota

------------------------------------------------------------
-- Pieces of Memory
------------------------------------------------------------

namespace Flash

variable
  {offset size i : Nat}
  {piece : List UInt8}
  {flash other : Flash}

theorem write?_eq_none_iff :
    flash.write? offset piece = none ↔
      flash.writeFails = true ∨
        flash.capacity < offset + piece.length := by
  unfold write?
  split <;> simp_all

theorem write?_eq_of_ne_none
    (hServed : flash.write? offset piece ≠ none) :
    flash.write? offset piece = some (flash.poke offset piece) ∧
      offset + piece.length ≤ flash.capacity := by
  have hIn := mt write?_eq_none_iff.mpr hServed
  refine ⟨if_neg hIn, ?_⟩
  rw [not_or] at hIn
  exact Nat.not_lt.mp hIn.2

/- A piece changes no byte before it and none behind it. -/
theorem getElem?_poke
    (hOut : i < offset ∨ offset + piece.length ≤ i) :
    (flash.poke offset piece).bytes[i]? = flash.bytes[i]? := by
  unfold poke capacity
  split
  · next hFits =>
      have hFront :
          (flash.bytes.take offset).length = offset := by
        rw [List.length_take]
        omega
      rcases hOut with hBefore | hBehind
      · rw [List.append_assoc,
          List.getElem?_append_left (by omega),
          List.getElem?_take_of_lt hBefore]
      · have hLength :
            (flash.bytes.take offset ++ piece).length =
              offset + piece.length := by
          rw [List.length_append, hFront]
        rw [List.getElem?_append_right (by omega), hLength,
          List.getElem?_drop]
        congr 1
        omega
  · rfl

/- What is read depends on the bytes where it is read only. -/
theorem peek_congr
    (hSame :
      ∀ i, offset ≤ i → i < offset + size →
        other.bytes[i]? = flash.bytes[i]?) :
    other.peek offset size = flash.peek offset size := by
  unfold peek
  refine List.ext_getElem? fun i => ?_
  rw [List.getElem?_take, List.getElem?_take]
  split
  · next hIn =>
      rw [List.getElem?_drop, List.getElem?_drop]
      exact hSame _ (by omega) (by omega)
  · rfl

end Flash

------------------------------------------------------------
-- Slots
------------------------------------------------------------

namespace Cache

variable
  {key : CacheKey}
  {value : List UInt8}
  {cache : Cache}
  {flash other : Flash}

/- A slot whose marks are blank holds nothing. -/
theorem readSlot_blank
    (key : CacheKey)
    (rest : List UInt8) :
    readSlot key (List.replicate headerSize 0xFF ++ rest) =
      .error .notFound := by
  have hBlank :
      ¬ Marked key
        (List.replicate headerSize 0xFF ++ rest) := by
    rintro ⟨hMagic, -⟩
    simp [headerSize, Bytes.value, magic, List.replicate]
      at hMagic
  unfold readSlot
  rw [if_pos hBlank]

/- What the slot of a key holds. -/
def held
    (key : CacheKey)
    (flash : Flash)
    (cache : Cache) : Except Fault (List UInt8) :=
  readSlot key (flash.peek (cache.slotStart key) slotSize)

/- A position lies in the slot of a key. -/
def InSlot
    (key : CacheKey)
    (cache : Cache)
    (i : Nat) : Prop :=
  cache.slotStart key ≤ i ∧
    i < cache.slotStart key + slotSize

/- The slots of two keys share no position. -/
theorem not_inSlot_of_ne
    {key' : CacheKey}
    {i : Nat}
    (hOther : key' ≠ key)
    (hIn : cache.InSlot key i) :
    ¬ cache.InSlot key' i := by
  have hStart := slotStart_eq key cache
  have hStart' := slotStart_eq key' cache
  have hWord := cache.offset.toNat_lt
  unfold InSlot slotSize at *
  cases key <;> cases key' <;>
    simp only [CacheKey.slot, ne_eq, not_true_eq_false] at * <;>
    omega

/- What a key holds depends on the bytes of its slot only. -/
theorem held_congr
    (hSame :
      ∀ i, cache.InSlot key i →
        other.bytes[i]? = flash.bytes[i]?) :
    cache.held key other = cache.held key flash := by
  unfold held
  rw [Flash.peek_congr fun i hFrom hTo => hSame i ⟨hFrom, hTo⟩]

/- A piece within the slot of a key leaves the others alone. -/
theorem held_poke_of_ne
    {key' : CacheKey}
    {piece : List UInt8}
    (hSize : piece.length ≤ slotSize)
    (hOther : key' ≠ key) :
    cache.held key'
        (flash.poke (cache.slotStart key) piece) =
      cache.held key' flash := by
  refine held_congr fun i hIn => Flash.getElem?_poke ?_
  have hOut := not_inSlot_of_ne hOther.symm hIn
  unfold InSlot at hOut
  omega

/- A key holds the value that was put into its slot. -/
theorem held_poke_image
    (hIn :
      cache.slotStart key + (image key value).length ≤
        flash.capacity)
    (hMax : value.length ≤ valueMax) :
    cache.held key
        (flash.poke (cache.slotStart key)
          (image key value)) =
      .ok value := by
  have hImage := length_image_le key hMax
  rcases Flash.peek_poke hIn hImage with ⟨rest, hPeek⟩
  unfold held
  rw [hPeek, readSlot_image hMax]

/- A key whose slot was blanked holds nothing. -/
theorem held_poke_blank
    (hIn :
      cache.slotStart key + blank.length ≤ flash.capacity) :
    cache.held key (flash.poke (cache.slotStart key) blank) =
      .error .notFound := by
  have hBlank : blank.length ≤ slotSize := by
    decide
  rcases Flash.peek_poke hIn hBlank with ⟨rest, hPeek⟩
  unfold held
  rw [hPeek, blank, readSlot_blank]

------------------------------------------------------------
-- Operations on a Cache
------------------------------------------------------------

/-
  Get a value into a buffer. What goes wrong leaves the buffer
  alone.
-/
def getInto
    (key : CacheKey)
    (buffer : List UInt8)
    (flash : Flash)
    (cache : Cache) : Except Fault Nat × List UInt8 :=
  match cache.get key buffer.length flash with
  | .error fault => (.error fault, buffer)
  | .ok value =>
      (.ok value.length, value ++ buffer.drop value.length)

/- It sets what is not too long, if it can write it. -/
theorem set_eq :
    cache.set key value flash =
      if valueMax < value.length then
        .error .limitExceeded
      else if
          flash.write? (cache.slotStart key) (image key value) =
            none then
        .error .io
      else
        .ok
          (flash.poke (cache.slotStart key)
            (image key value)) := by
  unfold set
  split
  · rfl
  · by_cases hRefused :
        flash.write? (cache.slotStart key) (image key value) =
          none
    · rw [if_pos hRefused, hRefused]
    · rw [if_neg hRefused,
        (Flash.write?_eq_of_ne_none hRefused).1]

/- It deletes whatever a key holds, if it can write. -/
theorem delete_eq :
    cache.delete key flash =
      if flash.write? (cache.slotStart key) blank = none then
        .error .io
      else
        .ok (flash.poke (cache.slotStart key) blank) := by
  unfold delete
  by_cases hRefused :
      flash.write? (cache.slotStart key) blank = none
  · rw [if_pos hRefused, hRefused]
  · rw [if_neg hRefused,
      (Flash.write?_eq_of_ne_none hRefused).1]

------------------------------------------------------------
-- Placed Caches
------------------------------------------------------------

variable
  {target : Target}
  {offset : UInt32}

/- The target counts past the slots without wrapping around. -/
def Unwrapped
    (target : Target)
    (cache : Cache) : Prop :=
  cache.offset.toNat + span < target.words

/- Then a cache that was placed fits, -/
theorem Unwrapped.fits
    (hUnwrapped : cache.Unwrapped target)
    (hPlaced : place target offset flash = .ok cache) :
    cache.Fits flash := by
  have hCounted := (place_eq_ok_iff.mp hPlaced).2
  unfold Target.add at hCounted
  rwa [Nat.mod_eq_of_lt hUnwrapped] at hCounted

/- Only the size of a memory decides what is placed in it. -/
theorem place_congr
    (hSize : other.capacity = flash.capacity) :
    place target offset other = place target offset flash := by
  unfold place
  rw [hSize]

end Cache

end Fota
