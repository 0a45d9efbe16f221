import Fota.Proofs.Update.Record

/-
  This file shows which bytes are read as the record of a
  checkpoint: exactly those of the format, with each field at
  its place. Two records that are read differ in two bytes at
  least.

  Key definitions include:
    * `Record.HasAt`
    * `Record.layout`
    * `Record.Describes`
    * `Record.WellFormed`
    * `Record.Spare`

  The main statement is `Record.decode?_exact`. It rests on
  `Record.decode?_eq_some_iff`, which says what a record holds
  by its bytes alone.
-/

namespace Fota

namespace Record

------------------------------------------------------------
-- Bytes at an Offset
------------------------------------------------------------

/- A record has these bytes from an offset on. -/
def HasAt
    (offset : Nat)
    (bytes record : List UInt8) : Prop :=
  bytes <+: record.drop offset

variable
  {offset width limit n : Nat}
  {b : UInt8}
  {bytes record : List UInt8}

/- Each of the bytes is at its own place in the record. -/
theorem HasAt.getElem?_eq
    (hHas : HasAt offset bytes record)
    {i : Nat}
    (hIn : i < bytes.length) :
    record[offset + i]? = bytes[i]? := by
  rcases hHas with ⟨rest, hRest⟩
  rw [← List.getElem?_drop, ← hRest,
    List.getElem?_append_left hIn]

/- The first byte has its place, and the others the next one. -/
theorem hasAt_cons_iff :
    HasAt offset (b :: bytes) record ↔
      HasAt offset [b] record ∧
        HasAt (offset + 1) bytes record := by
  have hDrop :
      record.drop (offset + 1) = (record.drop offset).tail := by
    rw [List.tail_drop]
  unfold HasAt
  rw [hDrop]
  cases record.drop offset with
  | nil =>
      simp
  | cons first rest =>
      simp [List.cons_prefix_cons]

theorem hasAt_byte_iff
    (hIn : offset < record.length) :
    HasAt offset [b] record ↔ byteAt offset record = b := by
  have hByte : byteAt offset record = record[offset] := by
    unfold byteAt
    rw [List.getD_eq_getElem?_getD,
      List.getElem?_eq_getElem hIn]
    rfl
  unfold HasAt
  rw [List.drop_eq_getElem_cons hIn, List.cons_prefix_cons,
    hByte]
  simp [eq_comm]

/- A number is read from the bytes in which it is written. -/
theorem hasAt_number_iff
    (hIn : offset + width ≤ record.length)
    (hBelow : n < 256 ^ width) :
    HasAt offset (Bytes.little width n) record ↔
      numberAt offset width record = n := by
  have hTaken :
      ((record.drop offset).take width).length = width := by
    rw [List.length_take, List.length_drop]
    omega
  unfold HasAt numberAt
  rw [List.prefix_iff_eq_take, Bytes.length_little]
  constructor
  · intro hBytes
    rw [← hBytes, Bytes.value_little, Nat.mod_eq_of_lt hBelow]
  · rintro rfl
    have hWritten :=
      Bytes.little_value ((record.drop offset).take width)
    rwa [hTaken] at hWritten

theorem hasAt_word_iff
    {w : UInt32}
    (hIn : offset + 4 ≤ record.length) :
    HasAt offset (Bytes.little 4 w.toNat) record ↔
      wordAt offset record = w := by
  have hBelow : numberAt offset 4 record < UInt32.size := by
    have hValue :=
      Bytes.value_lt ((record.drop offset).take 4)
    rw [List.length_take, List.length_drop,
      Nat.min_eq_left (by omega)] at hValue
    exact hValue
  rw [hasAt_number_iff hIn w.toNat_lt, ← UInt32.toNat_inj]
  unfold wordAt
  rw [UInt32.toNat_ofNat_of_lt' hBelow]

/- A text as it stands in a record, behind its count. -/
def counted
    (text : String) : List UInt8 :=
  UInt8.ofNat (Text.utf8 text).length :: Text.utf8 text

theorem hasAt_counted_iff
    {text : String} :
    HasAt offset (counted text) record ↔
      HasAt offset [UInt8.ofNat (Text.utf8 text).length]
          record ∧
        Text.utf8 text =
          (record.drop (offset + 1)).take
            (Text.utf8 text).length := by
  unfold counted
  rw [hasAt_cons_iff]
  exact and_congr_right fun _ => List.prefix_iff_eq_take

/- The count of a text that fits is not cut down to a byte. -/
theorem toNat_count
    (hLimit : limit < 256)
    (t : BoundedText limit) :
    (UInt8.ofNat (Text.utf8 t.text).length).toNat =
      (Text.utf8 t.text).length := by
  have hFits := t.fits
  rw [← Text.length_utf8] at hFits
  exact
    UInt8.toNat_ofNat_of_lt' (Nat.lt_of_le_of_lt hFits hLimit)

/- As many bytes as are counted are there in the record. -/
theorem length_of_utf8_eq
    {text : String}
    {count : Nat}
    (hIn : offset + 1 + count ≤ record.length)
    (hText :
      Text.utf8 text =
        (record.drop (offset + 1)).take count) :
    (Text.utf8 text).length = count := by
  rw [hText, List.length_take, List.length_drop]
  omega

theorem hasAt_text_iff
    {t : BoundedText limit}
    (hLimit : limit < 256)
    (hIn : offset + 1 + limit ≤ record.length) :
    HasAt offset (counted t.text) record ↔
      textAt? limit offset record = some t := by
  have hFits := t.fits
  rw [← Text.length_utf8] at hFits
  have hCount := toNat_count hLimit t
  rw [hasAt_counted_iff, hasAt_byte_iff (by omega)]
  unfold textAt?
  dsimp only
  constructor
  · rintro ⟨hByte, hText⟩
    rw [hByte, hCount, if_neg (by omega), ← hText,
      Text.ofUtf8?_utf8]
    exact BoundedText.ofString?_eq_some_iff.mpr rfl
  · intro hRead
    split at hRead
    · cases hRead
    · next hBelow =>
        rcases Option.bind_eq_some_iff.mp hRead with
          ⟨text, hText, hSame⟩
        rw [BoundedText.ofString?_eq_some_iff] at hSame
        subst hSame
        have hBytes := Text.ofUtf8?_eq_some_iff.mp hText
        rw [length_of_utf8_eq (by omega) hBytes]
        exact ⟨UInt8.ofNat_toNat.symm, hBytes⟩

------------------------------------------------------------
-- What a Record Holds
------------------------------------------------------------

/- The fields of a record that are the same in all of them. -/
def frame : List (Nat × List UInt8) :=
  [(0, Bytes.little 4 0x4E435055), (4, Bytes.little 2 324),
    (6, [1])]

/- A status as two's complement in four bytes. -/
def statusBytes
    (status : Status) : List UInt8 :=
  Bytes.little 4 (status.code % UInt32.size).toNat

/- Where the fields of a checkpoint are, and as which bytes. -/
def layout
    (c : Checkpoint) : List (Nat × List UInt8) :=
  [(7, [c.stage.code]), (8, statusBytes c.status),
    (12, Bytes.little 4 c.installed.toNat),
    (16, Bytes.little 4 c.replaced.toNat),
    (20, Bytes.little 4 c.wanted.toNat),
    (24, [c.availability.code]),
    (26, Bytes.little 4 c.path.start.toNat),
    (30, Bytes.little 4 c.path.goal.toNat),
    (34, counted c.path.file.text),
    (290, counted c.path.digest.text)]

/- The bytes of a record are those of the checkpoint. -/
structure Describes
    (record : List UInt8)
    (c : Checkpoint) : Prop where
  length : record.length = 324
  frame : ∀ field ∈ frame, HasAt field.1 field.2 record
  fields : ∀ field ∈ layout c, HasAt field.1 field.2 record
  ownPath :
    ∃ flag, HasAt 25 [flag] record ∧
      (c.ownPath = true ↔ flag ≠ 0)
  checksum :
    HasAt 323 [Bytes.checksum (record.take 323)] record

variable {c : Checkpoint}

/- The word of a status is its number modulo 2 ^ 32. -/
theorem statusBytes_eq
    (status : Status) :
    statusBytes status =
      Bytes.little 4 (statusWord status).toNat := by
  cases status with
  | failed cause =>
      cases cause <;> rfl
  | _ =>
      rfl

/- A status is read exactly from its own word. -/
theorem statusAt?_eq_some_iff
    {status : Status} :
    statusAt? record = some status ↔
      wordAt 8 record = statusWord status := by
  unfold statusAt?
  rw [Status.ofCode?_eq_some_iff]
  constructor
  · intro hCode
    unfold statusWord
    rw [← hCode, Int32.ofInt_toInt, UInt32.toUInt32_toInt32]
  · intro hWord
    rw [hWord]
    cases status with
    | failed cause =>
        cases cause <;> rfl
    | _ =>
        rfl

/- The frame of a record is checked byte by byte. -/
theorem framed_iff :
    Framed record ↔
      record.length = 324 ∧
        (∀ field ∈ frame, HasAt field.1 field.2 record) ∧
          HasAt 323 [Bytes.checksum (record.take 323)]
            record := by
  apply and_congr_right
  intro hSize
  have hLength : record.length = 324 :=
    hSize
  have hMagic :
      HasAt 0 (Bytes.little 4 0x4E435055) record ↔
        numberAt 0 4 record = magic :=
    hasAt_number_iff (by omega) (by decide)
  have hSize :
      HasAt 4 (Bytes.little 2 324) record ↔
        numberAt 4 2 record = size :=
    hasAt_number_iff (by omega) (by decide)
  have hFormat :
      HasAt 6 [1] record ↔ byteAt 6 record = format :=
    hasAt_byte_iff (by omega)
  have hSum :
      HasAt 323 [Bytes.checksum (record.take 323)] record ↔
        byteAt checksumOffset record =
          Bytes.checksum (record.take checksumOffset) :=
    hasAt_byte_iff (by omega)
  simp only [frame, List.forall_mem_cons, List.not_mem_nil,
    false_implies, implies_true, and_true, and_assoc, hMagic,
    hSize, hFormat, hSum]

/- The parts of a checkpoint, each read on its own. -/
def Reads
    (record : List UInt8)
    (c : Checkpoint) : Prop :=
  Stage.ofCode? (byteAt 7 record) = some c.stage ∧
    statusAt? record = some c.status ∧
    wordAt 12 record = c.installed ∧
    wordAt 16 record = c.replaced ∧
    wordAt 20 record = c.wanted ∧
    Availability.ofCode? (byteAt 24 record) =
      some c.availability ∧
    wordAt 26 record = c.path.start ∧
    wordAt 30 record = c.path.goal ∧
    textAt? fileNameSize fileOffset record =
      some c.path.file ∧
    textAt? digestSize digestOffset record =
      some c.path.digest

theorem decode?_eq_some_iff_reads :
    decode? record = some c ↔
      Framed record ∧ Reads record c ∧
        decide (byteAt 25 record ≠ 0) = c.ownPath := by
  unfold decode? pathAt? Reads
  by_cases hFramed : Framed record
  · rw [if_pos hFramed]
    simp only [Option.bind_eq_bind, Option.bind_eq_some_iff,
      Option.pure_def, Option.some.injEq]
    constructor
    · rintro
        ⟨path, ⟨file, hFile, digest, hDigest, rfl⟩, stage,
          hStage, status, hStatus, availability, hAvailability,
          rfl⟩
      exact
        ⟨hFramed,
          ⟨hStage, hStatus, rfl, rfl, rfl, hAvailability, rfl,
            rfl, hFile, hDigest⟩,
          rfl⟩
    · rintro
        ⟨-,
          ⟨hStage, hStatus, hInstalled, hReplaced, hWanted,
            hAvailability, hStart, hGoal, hFile, hDigest⟩,
          hOwnPath⟩
      refine
        ⟨_, ⟨_, hFile, _, hDigest, rfl⟩, _, hStage, _, hStatus,
          _, hAvailability, ?_⟩
      rw [hInstalled, hReplaced, hWanted, hStart, hGoal,
        hOwnPath]
  · rw [if_neg hFramed]
    simp [hFramed]

theorem reads_iff
    (hLength : record.length = 324) :
    Reads record c ↔
      ∀ field ∈ layout c, HasAt field.1 field.2 record := by
  have hByte (offset : Nat) (b : UInt8) (hIn : offset < 324) :
      HasAt offset [b] record ↔ byteAt offset record = b :=
    hasAt_byte_iff (hLength ▸ hIn)
  have hWord (offset : Nat) (w : UInt32)
      (hIn : offset + 4 ≤ 324) :
      HasAt offset (Bytes.little 4 w.toNat) record ↔
        wordAt offset record = w :=
    hasAt_word_iff (hLength ▸ hIn)
  have hFile :
      HasAt 34 (counted c.path.file.text) record ↔
        textAt? fileNameSize fileOffset record =
          some c.path.file :=
    hasAt_text_iff (by decide) (by rw [hLength]; decide)
  have hDigest :
      HasAt 290 (counted c.path.digest.text) record ↔
        textAt? digestSize digestOffset record =
          some c.path.digest :=
    hasAt_text_iff (by decide) (by rw [hLength]; decide)
  simp only [Reads, layout, List.forall_mem_cons,
    List.not_mem_nil, false_implies, implies_true, and_true,
    Stage.ofCode?_eq_some_iff, statusAt?_eq_some_iff,
    Availability.ofCode?_eq_some_iff, statusBytes_eq, hFile,
    hDigest, hByte 7 _ (by decide), hByte 24 _ (by decide),
    hWord 8 _ (by decide), hWord 12 _ (by decide),
    hWord 16 _ (by decide), hWord 20 _ (by decide),
    hWord 26 _ (by decide), hWord 30 _ (by decide)]

/- Any byte but zero says that the path is the caller's own. -/
theorem ownPath_iff
    (hLength : record.length = 324) :
    decide (byteAt 25 record ≠ 0) = c.ownPath ↔
      ∃ flag, HasAt 25 [flag] record ∧
        (c.ownPath = true ↔ flag ≠ 0) := by
  have hByte (b : UInt8) :
      HasAt 25 [b] record ↔ byteAt 25 record = b :=
    hasAt_byte_iff (by omega)
  simp only [hByte, exists_eq_left']
  cases c.ownPath <;> simp

/- What is read from a record is what it describes. -/
theorem decode?_eq_some_iff :
    decode? record = some c ↔ Describes record c := by
  rw [decode?_eq_some_iff_reads, framed_iff]
  constructor
  · rintro ⟨⟨hLength, hFrame, hSum⟩, hReads, hOwnPath⟩
    exact
      ⟨hLength, hFrame, (reads_iff hLength).mp hReads,
        (ownPath_iff hLength).mp hOwnPath, hSum⟩
  · rintro ⟨hLength, hFrame, hFields, hOwnPath, hSum⟩
    exact
      ⟨⟨hLength, hFrame, hSum⟩, (reads_iff hLength).mpr hFields,
        (ownPath_iff hLength).mpr hOwnPath⟩

------------------------------------------------------------
-- Which Records Are Read
------------------------------------------------------------

/- A count within its limit, and as many bytes of UTF-8. -/
def HoldsText
    (limit offset : Nat)
    (record : List UInt8) : Prop :=
  ∃ count : UInt8, HasAt offset [count] record ∧
    count.toNat ≤ limit ∧
      ∃ text,
        Text.utf8 text =
          (record.drop (offset + 1)).take count.toNat

/- The bytes of a record are those of its format. -/
structure WellFormed
    (record : List UInt8) : Prop where
  length : record.length = 324
  frame : ∀ field ∈ frame, HasAt field.1 field.2 record
  stage : ∃ stage : Stage, HasAt 7 [stage.code] record
  status :
    ∃ status : Status, HasAt 8 (statusBytes status) record
  availability :
    ∃ availability : Availability,
      HasAt 24 [availability.code] record
  file : HoldsText fileNameSize 34 record
  digest : HoldsText digestSize 290 record
  checksum :
    HasAt 323 [Bytes.checksum (record.take 323)] record

theorem holdsText_iff
    (hLimit : limit < 256)
    (hIn : offset + 1 + limit ≤ record.length) :
    HoldsText limit offset record ↔
      ∃ t : BoundedText limit,
        HasAt offset (counted t.text) record := by
  simp only [hasAt_counted_iff]
  constructor
  · rintro ⟨count, hByte, hBelow, text, hText⟩
    have hLength := length_of_utf8_eq (by omega) hText
    have hFits : text.utf8ByteSize ≤ limit := by
      rw [← Text.length_utf8, hLength]
      exact hBelow
    refine ⟨⟨text, hFits⟩, ?_⟩
    rw [hLength, UInt8.ofNat_toNat]
    exact ⟨hByte, hText⟩
  · rintro ⟨t, hByte, hText⟩
    refine ⟨_, hByte, ?_, t.text, ?_⟩
    · rw [toNat_count hLimit, Text.length_utf8]
      exact t.fits
    · rw [toNat_count hLimit]
      exact hText

/- Exactly the records of the format are read. -/
theorem decode?_isSome_iff :
    (decode? record).isSome = true ↔ WellFormed record := by
  simp only [Option.isSome_iff_exists, decode?_eq_some_iff]
  constructor
  · rintro ⟨c, hLength, hFrame, hFields, -, hSum⟩
    simp only [layout, List.forall_mem_cons] at hFields
    rcases hFields with
      ⟨hStage, hStatus, -, -, -, hAvailability, -, -, hFile,
        hDigest, -⟩
    exact
      ⟨hLength, hFrame, ⟨_, hStage⟩, ⟨_, hStatus⟩,
        ⟨_, hAvailability⟩,
        (holdsText_iff (by decide) (by rw [hLength]; decide)).mpr
          ⟨_, hFile⟩,
        (holdsText_iff (by decide) (by rw [hLength]; decide)).mpr
          ⟨_, hDigest⟩,
        hSum⟩
  · rintro
      ⟨hLength, hFrame, ⟨stage, hStage⟩, ⟨status, hStatus⟩,
        ⟨availability, hAvailability⟩, hFile, hDigest, hSum⟩
    rcases
      (holdsText_iff (by decide) (by rw [hLength]; decide)).mp
        hFile with
      ⟨file, hFile⟩
    rcases
      (holdsText_iff (by decide) (by rw [hLength]; decide)).mp
        hDigest with
      ⟨digest, hDigest⟩
    -- The words and the flag may have any value.
    have hWord (offset : Nat) (hIn : offset + 4 ≤ 324) :
        HasAt offset
          (Bytes.little 4 (wordAt offset record).toNat)
          record :=
      (hasAt_word_iff (hLength ▸ hIn)).mpr rfl
    let c : Checkpoint :=
      { stage := stage
        status := status
        installed := wordAt 12 record
        replaced := wordAt 16 record
        wanted := wordAt 20 record
        availability := availability
        ownPath := decide (byteAt 25 record ≠ 0)
        path := ⟨wordAt 26 record, wordAt 30 record, file, digest⟩ }
    refine
      ⟨c, hLength, hFrame, ?_, (ownPath_iff hLength).mp rfl,
        hSum⟩
    simp only [layout, List.forall_mem_cons]
    exact
      ⟨hStage, hStatus, hWord 12 (by decide),
        hWord 16 (by decide), hWord 20 (by decide),
        hAvailability, hWord 26 (by decide),
        hWord 30 (by decide), hFile, hDigest, nofun⟩

------------------------------------------------------------
-- Records of One Checkpoint
------------------------------------------------------------

/- A place in a record that the checkpoint does not determine. -/
def Spare
    (c : Checkpoint)
    (i : Nat) : Prop :=
  i = 25 ∨ i = 323 ∨
    (35 + (Text.utf8 c.path.file.text).length ≤ i ∧ i < 290) ∨
    (291 + (Text.utf8 c.path.digest.text).length ≤ i ∧
      i < 323)

/- Any other place is that of a field. -/
theorem exists_field
    {i : Nat}
    (hIn : i < 324)
    (hUsed : ¬ Spare c i) :
    ∃ field ∈ frame ++ layout c,
      field.1 ≤ i ∧ i < field.1 + field.2.length := by
  unfold Spare at hUsed
  simp only [frame, layout, statusBytes, counted,
    List.cons_append, List.nil_append, List.mem_cons,
    exists_eq_or_imp, exists_eq_left, List.not_mem_nil,
    or_false, List.length_cons, List.length_nil,
    Bytes.length_little]
  omega

/- Two records of one checkpoint have the same fields. -/
theorem Describes.getElem?_eq
    {other : List UInt8}
    (hDescribes : Describes record c)
    (hOther : Describes other c)
    {i : Nat}
    (hUsed : ¬ Spare c i) :
    record[i]? = other[i]? := by
  by_cases hIn : i < 324
  · rcases exists_field hIn hUsed with
      ⟨field, hField, hFrom, hTo⟩
    have hHas :
        HasAt field.1 field.2 record ∧
          HasAt field.1 field.2 other := by
      rcases List.mem_append.mp hField with hFrame | hLayout
      · exact
          ⟨hDescribes.frame field hFrame,
            hOther.frame field hFrame⟩
      · exact
          ⟨hDescribes.fields field hLayout,
            hOther.fields field hLayout⟩
    rcases Nat.le.dest hFrom with ⟨k, rfl⟩
    have hBelow : k < field.2.length := by
      omega
    rw [hHas.1.getElem?_eq hBelow, hHas.2.getElem?_eq hBelow]
  · rw [List.getElem?_eq_none, List.getElem?_eq_none]
    · rw [hOther.length]
      omega
    · rw [hDescribes.length]
      omega

------------------------------------------------------------
-- Distance of Records
------------------------------------------------------------

variable {other : List UInt8}

/- Bytes that agree outside one place differ by a write there. -/
theorem eq_set_of_forall_ne
    {i : Nat}
    (hLength : record.length = other.length)
    (hSame : ∀ j, j ≠ i → record[j]? = other[j]?) :
    other = record.set i (byteAt i other) := by
  apply List.ext_getElem?
  intro j
  rw [List.getElem?_set]
  split
  · next hPlace =>
      subst hPlace
      split
      · next hIn =>
          rw [hLength] at hIn
          unfold byteAt
          rw [List.getD_eq_getElem?_getD,
            List.getElem?_eq_getElem hIn]
          rfl
      · next hOut =>
          rw [hLength] at hOut
          exact List.getElem?_eq_none (by omega)
  · next hOther =>
      exact (hSame j (Ne.symm hOther)).symm

/- A record is its body with the checksum behind it. -/
theorem WellFormed.eq_append
    (hRecord : WellFormed record) :
    record =
      record.take 323 ++
        [Bytes.checksum (record.take 323)] := by
  rcases hRecord.checksum with ⟨rest, hRest⟩
  have hLength := congrArg List.length hRest
  rw [List.length_append, List.length_drop, hRecord.length,
    List.length_singleton] at hLength
  have hNothing : rest = [] :=
    List.eq_nil_of_length_eq_zero (by omega)
  rw [hNothing, List.append_nil] at hRest
  rw [hRest, List.take_append_drop]

/-
  Two records cannot differ in one place only. A change of the
  body changes the checksum, and no other checksum fits the same
  body.
-/
theorem WellFormed.eq_of_forall_ne
    {i : Nat}
    (hRecord : WellFormed record)
    (hOther : WellFormed other)
    (hSame : ∀ j, j ≠ i → record[j]? = other[j]?) :
    record = other := by
  have hLength : record.length = other.length := by
    rw [hRecord.length, hOther.length]
  have hBody :
      other.take 323 =
        (record.take 323).set i (byteAt i other) :=
    (congrArg (List.take 323)
      (eq_set_of_forall_ne hLength hSame)).trans List.take_set
  have hBodies : other.take 323 = record.take 323 := by
    rw [hBody]
    by_cases hPlace : i = 323
    · apply List.set_eq_of_length_le
      rw [hPlace]
      exact List.length_take_le 323 record
    · have hSum := hSame 323 (Ne.symm hPlace)
      rw [hRecord.checksum.getElem?_eq (i := 0) (by simp),
        hOther.checksum.getElem?_eq (i := 0) (by simp), hBody]
        at hSum
      apply Bytes.set_eq_of_checksum_eq
      simpa using hSum.symm
  rw [hRecord.eq_append, hOther.eq_append, hBodies]

/- So they differ in two places at least. -/
theorem WellFormed.exists_two_places
    (hRecord : WellFormed record)
    (hOther : WellFormed other)
    (hNe : record ≠ other) :
    ∃ i j : Nat, i < j ∧ record[i]? ≠ other[i]? ∧
      record[j]? ≠ other[j]? := by
  have hSecond (i : Nat) :
      ∃ j, j ≠ i ∧ record[j]? ≠ other[j]? := by
    refine Classical.byContradiction fun hNone => hNe ?_
    apply hRecord.eq_of_forall_ne hOther
    intro j hApart
    refine Classical.byContradiction fun hDiffers => ?_
    exact hNone ⟨j, hApart, hDiffers⟩
  rcases hSecond record.length with ⟨i, -, hFirst⟩
  rcases hSecond i with ⟨j, hApart, hLater⟩
  rcases Nat.lt_or_gt_of_ne hApart with hLt | hGt
  · exact ⟨j, i, hLt, hLater, hFirst⟩
  · exact ⟨i, j, hGt, hFirst, hLater⟩

------------------------------------------------------------
-- Exact Decoding
------------------------------------------------------------

/-
  Exactly the records of the format are read, and what is read
  has each field as it is at its place. The record that is
  written for it may differ only in places that it leaves open:
  behind the texts, in the flag, and so in the checksum. Any two
  records that are read differ in two places or more.
-/
theorem decode?_exact :
    (∀ record,
      (decode? record).isSome = true ↔ WellFormed record) ∧
    (∀ record c,
      decode? record = some c ↔ Describes record c) ∧
    (∀ record c, decode? record = some c →
      decode? (encode c) = some c ∧
        ∀ i, (encode c)[i]? ≠ record[i]? → Spare c i) ∧
    (∀ record other,
      (decode? record).isSome = true →
      (decode? other).isSome = true →
      record ≠ other →
        ∃ i j : Nat, i < j ∧ record[i]? ≠ other[i]? ∧
          record[j]? ≠ other[j]?) := by
  refine
    ⟨fun _ => decode?_isSome_iff, fun _ _ => decode?_eq_some_iff,
      ?_, ?_⟩
  · intro record c hRead
    refine ⟨decode?_encode c, ?_⟩
    intro i hDiffers
    refine Classical.byContradiction fun hUsed => hDiffers ?_
    have hWritten := decode?_eq_some_iff.mp (decode?_encode c)
    have hDescribes := decode?_eq_some_iff.mp hRead
    exact hWritten.getElem?_eq hDescribes hUsed
  · intro record other hRecord hOther hNe
    exact
      (decode?_isSome_iff.mp hRecord).exists_two_places
        (decode?_isSome_iff.mp hOther) hNe

/- The record of the first checkpoint, with another flag. -/
def flagged : List UInt8 :=
  let front := (body .initial).set 25 2
  front ++ [Bytes.checksum front]

/-
  A flag that is never written is read all the same, and the
  record is not taken for that of the first checkpoint.
-/
theorem flagged_record_read :
    let c := { Checkpoint.initial with ownPath := true }
    decode? flagged = some c ∧
      (∀ i, (encode c)[i]? ≠ flagged[i]? → Spare c i) ∧
        ∃ i j : Nat, i < j ∧
          flagged[i]? ≠ (encode .initial)[i]? ∧
            flagged[j]? ≠ (encode .initial)[j]? := by
  rcases decode?_exact with ⟨-, -, hWritten, hApart⟩
  have hRead :
      decode? flagged =
        some { Checkpoint.initial with ownPath := true } := by
    decide +kernel
  have hInitial := decode?_encode .initial
  refine ⟨hRead, (hWritten flagged _ hRead).2, ?_⟩
  apply hApart
  · rw [hRead]
    rfl
  · rw [hInitial]
    rfl
  · intro hSame
    rw [hSame, hInitial] at hRead
    cases hRead

end Record

end Fota
