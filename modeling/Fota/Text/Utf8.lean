/-
  This file defines the passage between text and its bytes in
  UTF-8: the bytes of a text, the text of well-formed bytes,
  and a reading of arbitrary bytes that puts a replacement
  character for each part that is not well formed.

  Key definitions include:
    * `Text.utf8`
    * `Text.ofUtf8?`
    * `Text.ofUtf8Lossy`

  The main statements say that bytes are read as a text exactly
  when they are its encoding, and which texts have a given byte
  below 128.
-/

namespace Fota

namespace Text

------------------------------------------------------------
-- Well-Formed Bytes
------------------------------------------------------------

/- The bytes of a text. -/
def utf8
    (text : String) : List UInt8 :=
  text.toUTF8.data.toList

/- The text with the given bytes, when they are well formed. -/
def ofUtf8?
    (bytes : List UInt8) : Option String :=
  String.fromUTF8? ⟨bytes.toArray⟩

/- The encoding has as many bytes as the text counts. -/
theorem length_utf8
    (text : String) :
    (utf8 text).length = text.utf8ByteSize := by
  simp [utf8]

/- There are no bytes just if there is no text. -/
theorem utf8_eq_nil_iff
    {text : String} :
    utf8 text = [] ↔ text = "" := by
  rw [← List.length_eq_zero_iff, length_utf8,
    String.utf8ByteSize_eq_zero_iff]

/- Bytes are read as a text exactly when they are its encoding. -/
theorem ofUtf8?_eq_some_iff
    {bytes : List UInt8}
    {text : String} :
    ofUtf8? bytes = some text ↔ utf8 text = bytes := by
  unfold ofUtf8? String.fromUTF8? utf8
  split
  · next hValid =>
      rw [Option.some.injEq]
      constructor
      · rintro rfl
        rfl
      · rintro rfl
        rfl
  · next hInvalid =>
      refine iff_of_false (by simp) ?_
      rintro rfl
      exact hInvalid text.isValidUTF8

theorem ofUtf8?_utf8
    (text : String) :
    ofUtf8? (utf8 text) = some text :=
  ofUtf8?_eq_some_iff.mpr rfl

/- The bytes of a text are those of its characters, in order. -/
theorem utf8_eq_flatMap
    (text : String) :
    utf8 text = text.toList.flatMap String.utf8EncodeChar := by
  unfold utf8
  rw [String.toUTF8_eq_toByteArray, ← String.utf8Encode_toList]
  simp [List.utf8Encode]

theorem utf8_append
    (first second : String) :
    utf8 (first ++ second) = utf8 first ++ utf8 second := by
  simp [utf8_eq_flatMap]

/- A byte below 128 only stands for the character of that code. -/
theorem mem_utf8EncodeChar
    {c : Char}
    {byte : UInt8}
    (hBelow : byte.toNat < 128) :
    byte ∈ String.utf8EncodeChar c ↔ c.toNat = byte.toNat := by
  have hCode : c.toNat = c.val.toNat :=
    rfl
  unfold String.utf8EncodeChar
  rw [hCode]
  dsimp only
  (repeat' split) <;>
    simp only [List.mem_cons, List.not_mem_nil, or_false,
      ← UInt8.toNat_inj, UInt8.toNat_ofNat'] <;>
    omega

theorem mem_utf8
    {text : String}
    {byte : UInt8}
    (hBelow : byte.toNat < 128) :
    byte ∈ utf8 text ↔
      ∃ c ∈ text.toList, c.toNat = byte.toNat := by
  rw [utf8_eq_flatMap, List.mem_flatMap]
  exact
    exists_congr fun c =>
      and_congr_right fun _ => mem_utf8EncodeChar hBelow

------------------------------------------------------------
-- Arbitrary Bytes
------------------------------------------------------------

/- The character that stands for bytes that are not text. -/
def replacement : Char :=
  '\uFFFD'

/-
  The ranges of the bytes that may follow a leading byte of two
  or more, none when the byte leads nothing.
-/
def followers
    (lead : UInt8) : List (UInt8 × UInt8) :=
  let any := (0x80, 0xBF)
  if lead < 0xC2 then []
  else if lead < 0xE0 then [any]
  else if lead = 0xE0 then [(0xA0, 0xBF), any]
  else if lead = 0xED then [(0x80, 0x9F), any]
  else if lead < 0xF0 then [any, any]
  else if lead = 0xF0 then [(0x90, 0xBF), any, any]
  else if lead < 0xF4 then [any, any, any]
  else if lead = 0xF4 then [(0x80, 0x8F), any, any]
  else []

/- The bits that a leading byte gives to its character. -/
def leadBits
    (lead : UInt8) : Nat :=
  if lead < 0xE0 then lead.toNat % 0x20
  else if lead < 0xF0 then lead.toNat % 0x10
  else lead.toNat % 0x08

/- Begin a character at a byte: what it shows, what it awaits. -/
def beginChar
    (byte : UInt8) :
    List Char × Nat × List (UInt8 × UInt8) :=
  if byte < 0x80 then
    ([Char.ofNat byte.toNat], 0, [])
  else if followers byte = [] then
    ([replacement], 0, [])
  else
    ([], leadBits byte, followers byte)

/-
  Read bytes while the followers in `awaited` are due for the
  character whose leading bits are `bits`. The longest part that
  could have begun a character is replaced as a whole.
-/
def readChars
    (bits : Nat)
    (awaited : List (UInt8 × UInt8)) :
    List UInt8 → List Char
| [] => if awaited = [] then [] else [replacement]
| byte :: bytes =>
    match awaited with
    | [] =>
        let begun := beginChar byte
        begun.1 ++ readChars begun.2.1 begun.2.2 bytes
    | range :: rest =>
        if range.1 ≤ byte ∧ byte ≤ range.2 then
          let grown := 0x40 * bits + byte.toNat % 0x40
          if rest = [] then
            Char.ofNat grown :: readChars 0 [] bytes
          else
            readChars grown rest bytes
        else
          let begun := beginChar byte
          replacement ::
            (begun.1 ++ readChars begun.2.1 begun.2.2 bytes)

/- The text of any bytes, with replacements where needed. -/
def ofUtf8Lossy
    (bytes : List UInt8) : String :=
  String.ofList (readChars 0 [] bytes)

end Text

end Fota
