import Fota.Proofs.Bytes.Detection
import Fota.Update.Record

/-
  This file shows that a checkpoint is read back from its
  record.

  The main statement is `Record.decode?_encode`.
-/

namespace Fota

namespace Record

variable {limit : Nat}

theorem length_textArea
    (t : BoundedText limit) :
    (textArea t).length = limit + 1 := by
  have hFits := t.fits
  have hLength := Text.length_utf8 t.text
  simp only [textArea, List.length_append, List.length_cons,
    List.length_replicate]
  omega

/- A text whose count fits a byte is read back from its area. -/
theorem textAt?_textArea
    (t : BoundedText limit)
    (hLimit : limit < 256)
    {offset : Nat}
    {record front back : List UInt8}
    (hRecord : record = front ++ (textArea t ++ back))
    (hOffset : front.length = offset) :
    textAt? limit offset record = some t := by
  have hFits := t.fits
  have hLength := Text.length_utf8 t.text
  have hDrop : record.drop offset = textArea t ++ back := by
    rw [hRecord, List.drop_left' hOffset]
  have hByte :
      byteAt offset record =
        UInt8.ofNat (Text.utf8 t.text).length := by
    unfold byteAt
    rw [List.getD_eq_getElem?_getD, ← Nat.add_zero offset,
      ← List.getElem?_drop, hDrop]
    rfl
  have hCount :
      (byteAt offset record).toNat =
        (Text.utf8 t.text).length := by
    rw [hByte, UInt8.toNat_ofNat']
    apply Nat.mod_eq_of_lt
    omega
  have hTaken :
      (record.drop (offset + 1)).take
          (Text.utf8 t.text).length =
        Text.utf8 t.text := by
    rw [← List.drop_drop, hDrop]
    simp [textArea]
  unfold textAt?
  simp only [hCount, hTaken, Text.ofUtf8?_utf8]
  rw [if_neg (by omega)]
  exact BoundedText.ofString?_eq_some_iff.mpr rfl

------------------------------------------------------------
-- Records
------------------------------------------------------------

theorem length_fixedPart
    (c : Checkpoint) :
    (fixedPart c).length = fileOffset := by
  simp [fixedPart, fileOffset]

theorem length_body
    (c : Checkpoint) :
    (body c).length = checksumOffset := by
  simp only [body, List.length_append, length_fixedPart,
    length_textArea, checksumOffset, digestOffset]
  omega

theorem length_encode
    (c : Checkpoint) :
    (encode c).length = size := by
  simp [encode, length_body, size]

/- A word is read back from its bytes. -/
theorem ofNat_value_little
    (w : UInt32) :
    UInt32.ofNat (Bytes.value (Bytes.little 4 w.toNat)) = w := by
  have hLt := w.toNat_lt
  rw [Bytes.value_little, Nat.mod_eq_of_lt (by omega)]
  exact UInt32.ofNat_toNat

theorem framed_encode
    (c : Checkpoint) :
    Framed (encode c) := by
  refine ⟨length_encode c, ?_, ?_, ?_, ?_⟩
  · simp [numberAt, encode, body, fixedPart, Bytes.little,
      Bytes.value, magic]
  · simp [numberAt, encode, body, fixedPart, Bytes.little,
      Bytes.value, size, checksumOffset, digestOffset,
      fileOffset, fileNameSize, digestSize]
  · simp [byteAt, encode, body, fixedPart, Bytes.little]
  · have hBody :
        (encode c).take checksumOffset = body c :=
      List.take_left' (length_body c)
    have hLast :
        byteAt checksumOffset (encode c) =
          Bytes.checksum (body c) := by
      unfold byteAt encode
      rw [List.getD_eq_getElem?_getD, ← length_body c,
        List.getElem?_concat_length]
      rfl
    rw [hBody, hLast]

theorem pathAt?_encode
    (c : Checkpoint) :
    pathAt? (encode c) = some c.path := by
  have hAtFile :
      encode c =
        fixedPart c ++
          (textArea c.path.file ++
            (textArea c.path.digest ++
              [Bytes.checksum (body c)])) := by
    simp [encode, body]
  have hAtDigest :
      encode c =
        (fixedPart c ++ textArea c.path.file) ++
          (textArea c.path.digest ++
            [Bytes.checksum (body c)]) := by
    simp [encode, body]
  have hFile :
      textAt? fileNameSize fileOffset (encode c) =
        some c.path.file :=
    textAt?_textArea c.path.file (by decide) hAtFile
      (length_fixedPart c)
  have hDigest :
      textAt? digestSize digestOffset (encode c) =
        some c.path.digest := by
    apply textAt?_textArea c.path.digest (by decide) hAtDigest
    rw [List.length_append, length_fixedPart, length_textArea]
    rfl
  have hStart : wordAt 26 (encode c) = c.path.start := by
    rw [← ofNat_value_little c.path.start]
    simp [wordAt, numberAt, encode, body, fixedPart,
      Bytes.little]
  have hGoal : wordAt 30 (encode c) = c.path.goal := by
    rw [← ofNat_value_little c.path.goal]
    simp [wordAt, numberAt, encode, body, fixedPart,
      Bytes.little]
  unfold pathAt?
  rw [hFile, hDigest, hStart, hGoal]
  rfl

theorem statusAt?_encode
    (c : Checkpoint) :
    statusAt? (encode c) = some c.status := by
  have hWord : wordAt 8 (encode c) = statusWord c.status := by
    rw [← ofNat_value_little (statusWord c.status)]
    simp [wordAt, numberAt, encode, body, fixedPart,
      Bytes.little]
  have hNumber :
      (statusWord c.status).toInt32.toInt = c.status.code := by
    cases c.status with
    | failed cause =>
        cases cause <;> rfl
    | _ =>
        rfl
  unfold statusAt?
  rw [hWord, hNumber]
  exact Status.ofCode?_eq_some_iff.mpr rfl

/- A checkpoint is read back from its record. -/
theorem decode?_encode
    (c : Checkpoint) :
    decode? (encode c) = some c := by
  have hStage :
      Stage.ofCode? (byteAt 7 (encode c)) = some c.stage := by
    rw [Stage.ofCode?_eq_some_iff]
    simp [byteAt, encode, body, fixedPart, Bytes.little]
  have hAvailability :
      Availability.ofCode? (byteAt 24 (encode c)) =
        some c.availability := by
    rw [Availability.ofCode?_eq_some_iff]
    simp [byteAt, encode, body, fixedPart, Bytes.little]
  have hInstalled : wordAt 12 (encode c) = c.installed := by
    rw [← ofNat_value_little c.installed]
    simp [wordAt, numberAt, encode, body, fixedPart,
      Bytes.little]
  have hReplaced : wordAt 16 (encode c) = c.replaced := by
    rw [← ofNat_value_little c.replaced]
    simp [wordAt, numberAt, encode, body, fixedPart,
      Bytes.little]
  have hWanted : wordAt 20 (encode c) = c.wanted := by
    rw [← ofNat_value_little c.wanted]
    simp [wordAt, numberAt, encode, body, fixedPart,
      Bytes.little]
  have hOwnPath :
      decide (byteAt 25 (encode c) ≠ 0) = c.ownPath := by
    have hFlag :
        byteAt 25 (encode c) = flagByte c.ownPath := by
      simp [byteAt, encode, body, fixedPart, Bytes.little]
    rw [hFlag]
    cases c.ownPath <;> rfl
  unfold decode?
  rw [if_pos (framed_encode c), pathAt?_encode, hStage,
    statusAt?_encode, hAvailability, hInstalled, hReplaced,
    hWanted, hOwnPath]
  rfl

end Record

end Fota
