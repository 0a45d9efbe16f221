import Fota.Proofs.Bytes.Detection
import Fota.Storage.Cache

/-
  This file shows what a slot of the cache gives back. A value
  that was set is got until its slot is written again, and no
  change of a single byte of the memory makes the cache give
  back another value of the same size.

  The main statements are `Cache.get_set` and `Cache.get_poke`.
-/

namespace Fota

------------------------------------------------------------
-- Pieces of Memory
------------------------------------------------------------

namespace Flash

@[simp]
theorem readFails_poke
    (offset : Nat)
    (piece : List UInt8)
    (flash : Flash) :
    (flash.poke offset piece).readFails = flash.readFails := by
  unfold poke
  split <;> rfl

/- A memory is read from where a piece was put. -/
theorem peek_poke
    {offset size : Nat}
    {piece : List UInt8}
    {flash : Flash}
    (hFits : offset + piece.length ≤ flash.capacity)
    (hSize : piece.length ≤ size) :
    ∃ rest,
      (flash.poke offset piece).peek offset size =
        piece ++ rest := by
  have hFront : (flash.bytes.take offset).length = offset := by
    unfold capacity at hFits
    rw [List.length_take]
    omega
  unfold poke peek
  rw [if_pos hFits, List.append_assoc, List.drop_left' hFront,
    List.take_append, List.take_of_length_le hSize]
  exact ⟨_, rfl⟩

/- Putting one byte changes at most one byte of the memory. -/
theorem bytes_poke_byte
    (position : Nat)
    (byte : UInt8)
    (flash : Flash) :
    (flash.poke position [byte]).bytes =
      flash.bytes.set position byte := by
  unfold poke capacity
  rw [List.length_singleton]
  split
  · next hFits =>
      have hIn : position < flash.bytes.length := by
        omega
      rw [List.set_eq_take_append_cons_drop, if_pos hIn]
      simp only [List.append_assoc, List.singleton_append]
  · next hBehind =>
      exact (List.set_eq_of_length_le (by omega)).symm

/- So it changes at most one byte of what is read. -/
theorem peek_poke_byte
    (position offset size : Nat)
    (byte : UInt8)
    (flash : Flash) :
    ∃ i,
      (flash.poke position [byte]).peek offset size =
        (flash.peek offset size).set i byte := by
  unfold peek
  rw [bytes_poke_byte, List.drop_set]
  split
  · refine ⟨size, (List.set_eq_of_length_le ?_).symm⟩
    exact List.length_take_le size _
  · exact ⟨position - offset, List.take_set⟩

end Flash

------------------------------------------------------------
-- Slots
------------------------------------------------------------

namespace Cache

variable
  {key : CacheKey}
  {slot value other : List UInt8}
  {cache : Cache}
  {flash : Flash}
  {room : Nat}

/- What a slot that is read without a fault consists of. -/
theorem readSlot_eq_ok_iff :
    readSlot key slot = .ok value ↔
      Marked key slot ∧
        announcedSize slot ≤ valueMax ∧
          slot[headerSize + announcedSize slot]? =
              some
                (Bytes.checksum
                  (slot.take
                    (headerSize + announcedSize slot))) ∧
            (slot.take
                (headerSize + announcedSize slot)).drop
              headerSize =
              value := by
  unfold readSlot
  by_cases hMarked : Marked key slot
  · by_cases hSize : valueMax < announcedSize slot
    · have hNot : ¬ announcedSize slot ≤ valueMax := by
        omega
      simp [hMarked, hSize, hNot]
    · have hLe : announcedSize slot ≤ valueMax := by
        omega
      simp only [hMarked, hSize, hLe, not_true_eq_false,
        if_false, true_and]
      split
      · next hSum =>
          simp only [hSum, true_and, Except.ok.injEq]
      · next hSum =>
          simp [hSum]
  · simp [hMarked]

/- A value is as long as its slot announces. -/
theorem length_of_readSlot
    (hRead : readSlot key slot = .ok value) :
    value.length = announcedSize slot := by
  rcases readSlot_eq_ok_iff.mp hRead with
    ⟨-, -, hSum, rfl⟩
  have hLong :
      headerSize + announcedSize slot < slot.length := by
    rcases List.getElem?_eq_some_iff.mp hSum with ⟨hLt, -⟩
    exact hLt
  rw [List.length_drop, List.length_take]
  omega

/-
  A slot with one byte changed gives back no other value of the
  same size. Sizes matter: a changed size moves the checksum to
  a byte that was not written as one.
-/
theorem readSlot_set
    {i : Nat}
    {b : UInt8}
    (hRead : readSlot key slot = .ok value)
    (hChanged : readSlot key (slot.set i b) = .ok other)
    (hLength : other.length = value.length) :
    other = value := by
  have hSize :
      announcedSize (slot.set i b) = announcedSize slot := by
    rw [← length_of_readSlot hRead,
      ← length_of_readSlot hChanged, hLength]
  rcases readSlot_eq_ok_iff.mp hRead with
    ⟨-, -, hSum, rfl⟩
  rcases readSlot_eq_ok_iff.mp hChanged with
    ⟨-, -, hSum', rfl⟩
  rw [hSize] at hSum' ⊢
  generalize headerSize + announcedSize slot = stop at *
  rw [List.take_set] at hSum' ⊢
  by_cases hIn : i < stop
  · have hKept : (slot.set i b)[stop]? = slot[stop]? :=
      List.getElem?_set_ne (by omega)
    rw [hKept, hSum, Option.some.injEq] at hSum'
    rw [Bytes.set_eq_of_checksum_eq hSum'.symm]
  · have hBehind : (slot.take stop).length ≤ i := by
      rw [List.length_take]
      omega
    rw [List.set_eq_of_length_le hBehind]

/- A written value is read, whatever stands behind it. -/
theorem readSlot_image
    (hMax : value.length ≤ valueMax)
    (rest : List UInt8) :
    readSlot key (image key value ++ rest) = .ok value := by
  have hHeader :
      (header key value.length).length = headerSize := by
    simp [header, headerSize]
  have hBody :
      (header key value.length ++ value).length =
        headerSize + value.length := by
    rw [List.length_append, hHeader]
  have hImage :
      image key value ++ rest =
        (header key value.length ++ value) ++
          Bytes.checksum (header key value.length ++ value) ::
            rest := by
    simp [image]
  have hSize :
      announcedSize (image key value ++ rest) =
        value.length := by
    have hTwo : value.length % 256 ^ 2 = value.length := by
      unfold valueMax slotSize headerSize at hMax
      exact Nat.mod_eq_of_lt (by omega)
    have hBytes :
        ((image key value ++ rest).drop 6).take 2 =
          Bytes.little 2 value.length := by
      simp [hImage, header, Bytes.little]
    unfold announcedSize
    rw [hBytes, Bytes.value_little, hTwo]
  rw [readSlot_eq_ok_iff, hSize, hImage,
    List.take_left' hBody, List.drop_left' hHeader]
  refine ⟨⟨?_, ?_⟩, hMax, ?_, rfl⟩
  · simp [header, Bytes.little, Bytes.value, magic]
  · simp [header, Bytes.little]
  · rw [← hBody, List.getElem?_append_right (Nat.le_refl _),
      Nat.sub_self]
    rfl

------------------------------------------------------------
-- Placing a Cache
------------------------------------------------------------

theorem place_eq_ok_iff
    {target : Target}
    {offset : UInt32} :
    place target offset flash = .ok cache ↔
      cache.offset = offset ∧
        target.add cache.offset.toNat span ≤
          flash.capacity := by
  rcases cache with ⟨start⟩
  unfold place
  split
  · next hShort =>
      simp only [reduceCtorEq, false_iff, not_and]
      rintro rfl
      omega
  · next hFits =>
      simp only [Except.ok.injEq, Cache.mk.injEq]
      constructor
      · rintro rfl
        exact ⟨rfl, by omega⟩
      · rintro ⟨rfl, -⟩
        rfl

/- The slots of a cache lie in the memory behind its offset. -/
def Fits
    (flash : Flash)
    (cache : Cache) : Prop :=
  cache.offset.toNat + span ≤ flash.capacity

/- A cache whose slots fit is placed on any target. -/
theorem Fits.place_eq
    (hFits : cache.Fits flash)
    (target : Target) :
    place target cache.offset flash = .ok cache :=
  place_eq_ok_iff.mpr
    ⟨rfl, Nat.le_trans (Nat.mod_le _ _) hFits⟩

/- Putting a piece resizes no memory. -/
theorem Fits.poke
    (hFits : cache.Fits flash)
    (position : Nat)
    (piece : List UInt8) :
    cache.Fits (flash.poke position piece) := by
  unfold Fits at hFits ⊢
  rw [Flash.capacity_poke]
  exact hFits

/- The slot of a key begins where the sum of its words says. -/
theorem slotStart_eq
    (key : CacheKey)
    (cache : Cache) :
    cache.slotStart key =
      (cache.offset.toNat + key.slot * slotSize) % 2 ^ 32 := by
  unfold slotStart slotOffset
  rw [UInt32.toNat_add]
  cases key <;> rfl

/- Every slot of a cache that fits lies in the memory. -/
theorem Fits.slot_le
    (hFits : cache.Fits flash)
    (key : CacheKey) :
    cache.slotStart key + slotSize ≤ flash.capacity := by
  have hStart := slotStart_eq key cache
  unfold Fits span slotCount slotSize at hFits
  cases key <;>
    simp only [slotSize, CacheKey.slot] at hStart ⊢ <;>
    omega

------------------------------------------------------------
-- Values
------------------------------------------------------------

/- A value is got from a slot that is read and gives it back. -/
theorem get_eq_ok_iff :
    cache.get key room flash = .ok value ↔
      (∃ slot,
        flash.read? (cache.slotStart key) slotSize =
            some slot ∧
          readSlot key slot = .ok value) ∧
        value.length ≤ room := by
  unfold get
  cases flash.read? (cache.slotStart key) slotSize with
  | none =>
      simp
  | some slot =>
      cases hSlot : readSlot key slot with
      | error fault =>
          simp [hSlot, bind, Except.bind]
      | ok found =>
          by_cases hRoom : room < found.length
          · simp [hSlot, bind, Except.bind, hRoom]
            rintro rfl
            omega
          · simp [hSlot, bind, Except.bind, hRoom, pure,
              Except.pure]
            rintro rfl
            omega

/- A value fits its slot together with its frame. -/
theorem length_image_le
    (key : CacheKey)
    (hMax : value.length ≤ valueMax) :
    (image key value).length ≤ slotSize := by
  have hLength :
      (image key value).length =
        headerSize + value.length + 1 := by
    simp only [image, header, headerSize, List.length_append,
      List.length_cons, List.length_nil, Bytes.length_little]
  unfold valueMax slotSize headerSize at *
  omega

/- Setting a value puts it into its slot. -/
theorem set_eq_ok
    (key : CacheKey)
    (hFits : cache.Fits flash)
    (hWrites : flash.writeFails = false)
    (hMax : value.length ≤ valueMax) :
    cache.set key value flash =
      .ok
        (flash.poke (cache.slotStart key) (image key value)) := by
  have hSlot := hFits.slot_le key
  have hImage := length_image_le key hMax
  have hIn :
      ¬ flash.capacity <
        cache.slotStart key + (image key value).length := by
    omega
  unfold set Flash.write?
  simp [Nat.not_lt.mpr hMax, hWrites, hIn]

/- A value is got from the memory into which it was set. -/
theorem get_set
    (hFits : cache.Fits flash)
    (hReads : flash.readFails = false)
    (hMax : value.length ≤ valueMax)
    (hRoom : value.length ≤ room) :
    cache.get key room
        (flash.poke (cache.slotStart key) (image key value)) =
      .ok value := by
  have hSlot := hFits.slot_le key
  have hImage := length_image_le key hMax
  have hIn :
      cache.slotStart key + (image key value).length ≤
        flash.capacity := by
    omega
  rcases Flash.peek_poke hIn hImage with ⟨rest, hPeek⟩
  refine get_eq_ok_iff.mpr
    ⟨⟨_, ?_, readSlot_image hMax rest⟩, hRoom⟩
  unfold Flash.read?
  rw [hPeek, Flash.readFails_poke, Flash.capacity_poke]
  simp [hReads, Nat.not_lt.mpr hSlot]

/- One changed byte makes the cache give no other value. -/
theorem get_poke
    {position : Nat}
    {byte : UInt8}
    (hGot : cache.get key room flash = .ok value)
    (hChanged :
      cache.get key room (flash.poke position [byte]) =
        .ok other)
    (hLength : other.length = value.length) :
    other = value := by
  rcases get_eq_ok_iff.mp hGot with ⟨⟨slot, hRead, hSlot⟩, -⟩
  rcases get_eq_ok_iff.mp hChanged with
    ⟨⟨slot', hRead', hSlot'⟩, -⟩
  rcases Flash.peek_poke_byte position (cache.slotStart key)
      slotSize byte flash with
    ⟨i, hPeek⟩
  unfold Flash.read? at hRead hRead'
  split at hRead
  · cases hRead
  · split at hRead'
    · cases hRead'
    · cases hRead
      cases hRead'
      rw [hPeek] at hSlot'
      exact readSlot_set hSlot hSlot' hLength

end Cache

end Fota
