import LogRendering.Charset
import Mathlib.Tactic.Use

/-!
# Decoded text

The text that bytes denote in a charset, as the standards of the five charsets say: in UTF-8; in
units of 16 bits, of which the surrogates come in pairs; or with one character for each byte.
Decoding what was encoded gives the text back, with a question mark in place of each character
that the charset does not represent.
-/

namespace LogRendering.Charset

/-! ### Decoders -/

/-- The units of 16 bits that bytes denote, where `unit` makes one of two bytes.  There are none
if a byte is left over. -/
def units? (unit : UInt8 → UInt8 → Nat) : List UInt8 → Option (List Nat)
  | [] => some []
  | [_] => none
  | first :: second :: rest => (units? unit rest).map (unit first second :: ·)

/-- The unit of two bytes, the first of which is the high one. -/
def bigEndian (first second : UInt8) : Nat :=
  first.toNat * 256 + second.toNat

/-- The unit of two bytes, the first of which is the low one. -/
def littleEndian (first second : UInt8) : Nat :=
  bigEndian second first

/-- The characters that units of 16 bits denote: one for each unit that is no surrogate, and one
for each high surrogate with the low one after it.  There are none if a surrogate is alone. -/
def ofUnits? : List Nat → Option (List Char)
  | [] => some []
  | unit :: rest =>
    if unit < 0xD800 ∨ 0xDFFF < unit then (ofUnits? rest).map (Char.ofNat unit :: ·)
    else
      match rest with
      | [] => none
      | low :: rest =>
        if unit < 0xDC00 ∧ 0xDC00 ≤ low ∧ low ≤ 0xDFFF then
          (ofUnits? rest).map
            (Char.ofNat (0x10000 + (unit - 0xD800) * 0x400 + (low - 0xDC00)) :: ·)
        else none

/-- The text of the units of 16 bits that `bytes` denote. -/
def unitText? (unit : UInt8 → UInt8 → Nat) (bytes : List UInt8) : Option String :=
  ((units? unit bytes).bind ofUnits?).map String.ofList

/-- The text with a character for each byte. -/
def byteText (bytes : List UInt8) : String :=
  String.ofList (bytes.map fun byte => Char.ofNat byte.toNat)

/-- The text that `bytes` denote in `charset`, if they denote one. -/
def decode? (charset : Charset) (bytes : List UInt8) : Option String :=
  match charset with
  | utf8 => String.fromUTF8? ⟨bytes.toArray⟩
  | utf16be => unitText? bigEndian bytes
  | utf16le => unitText? littleEndian bytes
  | ascii => if bytes.all (· < 0x80) then some (byteText bytes) else none
  | latin1 => some (byteText bytes)

/-! ### Characters that are replaced -/

/-- The charset has bytes for the character `c`. -/
def represents (charset : Charset) (c : Char) : Bool :=
  match charset with
  | utf8 | utf16be | utf16le => true
  | ascii => c.toNat < 0x80
  | latin1 => c.toNat < 0x100

/-- The character `c` itself if the charset represents it, and else a question mark. -/
def replaceChar (charset : Charset) (c : Char) : Char :=
  if charset.represents c then c else '?'

/-- The text with `replaceChar` of each character. -/
def replaceAll (charset : Charset) (s : String) : String :=
  String.ofList (s.toList.map charset.replaceChar)

/-! ### Replacement -/

/-- The characters of ASCII are kept by `replaceChar`. -/
theorem replaceChar_eq_or (charset : Charset) (c : Char) :
  charset.replaceChar c = c ∨ 0x80 ≤ c.toNat ∧ charset.replaceChar c = '?'
  := by
  by_cases h : charset.represents c = true
  · left
    apply if_pos h
  · right
    constructor
    · cases charset with
      | utf8 | utf16be | utf16le => exact absurd rfl h
      | ascii | latin1 =>
          rw [represents, decide_eq_true_iff] at h
          omega
    · apply if_neg h

theorem replaceChar_of_lt {c : Char} (h : c.toNat < 0x80) (charset : Charset) :
  charset.replaceChar c = c
  := by
  obtain hc | ⟨hge, -⟩ := charset.replaceChar_eq_or c
  · apply hc
  · omega

@[simp]
theorem toList_replaceAll (charset : Charset) (s : String) :
  (charset.replaceAll s).toList = s.toList.map charset.replaceChar
  := String.toList_ofList

@[simp]
theorem replaceAll_append (charset : Charset) (s t : String) :
  charset.replaceAll (s ++ t) = charset.replaceAll s ++ charset.replaceAll t
  := by
  simp [replaceAll, String.toList_append, String.ofList_append]

theorem replaceAll_join (charset : Charset) (texts : List String) :
  charset.replaceAll (String.join texts) = String.join (texts.map charset.replaceAll)
  := by
  induction texts with
  | nil => rfl
  | cons text texts ih =>
      rw [String.join_cons, replaceAll_append, ih, List.map_cons, String.join_cons]

/-- A character `d` that is not a question mark takes the place of no other. -/
theorem eq_of_replaceChar_eq
    {charset : Charset} {c d : Char} (hd : d ≠ '?') (h : charset.replaceChar c = d) :
  c = d
  := by
  obtain heq | ⟨-, heq⟩ := charset.replaceChar_eq_or c
  · exact heq.symm.trans h
  · exact absurd (h.symm.trans heq) hd

theorem mem_of_mem_replaceAll
    {charset : Charset} {s : String} {c : Char} (hc : c ≠ '?')
    (h : c ∈ (charset.replaceAll s).toList) :
  c ∈ s.toList
  := by
  rw [toList_replaceAll] at h
  obtain ⟨d, hd, heq⟩ := List.mem_map.mp h
  rwa [← eq_of_replaceChar_eq hc heq]

/-- A text is kept by `replaceAll` if all of its characters are. -/
theorem replaceAll_eq_self
    {charset : Charset} {s : String} (h : ∀ c ∈ s.toList, charset.replaceChar c = c) :
  charset.replaceAll s = s
  := by
  rw [replaceAll, List.map_congr_left h, List.map_id', String.ofList_toList]

/-- All characters of the text are characters of ASCII. -/
def IsAscii (s : String) : Prop :=
  ∀ c ∈ s.toList, c.toNat < 0x80

instance (s : String) : Decidable (IsAscii s) :=
  List.decidableBAll (fun c : Char => c.toNat < 0x80) s.toList

theorem replaceAll_of_isAscii {s : String} (h : IsAscii s) (charset : Charset) :
  charset.replaceAll s = s
  := replaceAll_eq_self fun c hc => replaceChar_of_lt (h c hc) charset

/-! ### Units of 16 bits -/

theorem units?_flatMap
    {unit : UInt8 → UInt8 → Nat} {bytesOf : Nat → List UInt8} {units : List Nat}
    (h : ∀ u ∈ units, ∃ first second, bytesOf u = [first, second] ∧ unit first second = u) :
  units? unit (units.flatMap bytesOf) = some units
  := by
  induction units with
  | nil => rfl
  | cons u units ih =>
      obtain ⟨hu, hunits⟩ := List.forall_mem_cons.mp h
      obtain ⟨first, second, hbytes, hunit⟩ := hu
      rw [List.flatMap_cons, hbytes, List.cons_append, List.cons_append, List.nil_append, units?,
        ih hunits, hunit]
      rfl

theorem bigEndian_div_mod {u : Nat} (h : u < 0x10000) :
  bigEndian (u / 256).toUInt8 (u % 256).toUInt8 = u
  := by
  simp only [bigEndian, Nat.toUInt8_eq, UInt8.toNat_ofNat']
  omega

/-- The bytes of a unit, the high one first, are read as this unit by `bigEndian`. -/
theorem exists_bigEndian_eq {u : Nat} (h : u < 0x10000) :
  ∃ first second, [(u / 256).toUInt8, (u % 256).toUInt8] = [first, second]
    ∧ bigEndian first second = u
  := by
  use (u / 256).toUInt8, (u % 256).toUInt8, rfl
  apply bigEndian_div_mod h

/-- The bytes of a unit, the low one first, are read as this unit by `littleEndian`. -/
theorem exists_littleEndian_eq {u : Nat} (h : u < 0x10000) :
  ∃ first second, [(u % 256).toUInt8, (u / 256).toUInt8] = [first, second]
    ∧ littleEndian first second = u
  := by
  use (u % 256).toUInt8, (u / 256).toUInt8, rfl
  apply bigEndian_div_mod h

/-- A character is a code point that is no surrogate. -/
theorem toNat_ranges (c : Char) :
  c.toNat < 0xD800 ∨ 0xDFFF < c.toNat ∧ c.toNat < 0x110000
  := c.valid

theorem utf16Units_of_lt {c : Char} (h : c.toNat < 0x10000) :
  utf16Units c = [c.toNat]
  := if_pos h

theorem utf16Units_of_le {c : Char} (h : ¬ c.toNat < 0x10000) :
  utf16Units c
    = [0xD800 + (c.toNat - 0x10000) / 0x400, 0xDC00 + (c.toNat - 0x10000) % 0x400]
  := if_neg h

theorem lt_of_mem_utf16Units {c : Char} {u : Nat} (h : u ∈ utf16Units c) :
  u < 0x10000
  := by
  have hc := toNat_ranges c
  by_cases hsmall : c.toNat < 0x10000
  · rw [utf16Units_of_lt hsmall, List.mem_singleton] at h
    rwa [h]
  · rw [utf16Units_of_le hsmall] at h
    simp only [List.mem_cons, List.not_mem_nil, or_false] at h
    omega

theorem ofUnits?_cons_of_single
    {unit : Nat} (h : unit < 0xD800 ∨ 0xDFFF < unit) (rest : List Nat) :
  ofUnits? (unit :: rest) = (ofUnits? rest).map (Char.ofNat unit :: ·)
  := by
  cases rest with
  | nil => exact if_pos h
  | cons low rest => exact if_pos h

/-- The surrogates that hold `offset` are read as the character with this offset. -/
theorem ofUnits?_surrogates_cons {offset : Nat} (h : offset < 0x100000) (rest : List Nat) :
  ofUnits? ((0xD800 + offset / 0x400) :: (0xDC00 + offset % 0x400) :: rest)
    = (ofUnits? rest).map (Char.ofNat (0x10000 + offset) :: ·)
  := by
  have hhigh : ¬ (0xD800 + offset / 0x400 < 0xD800 ∨ 0xDFFF < 0xD800 + offset / 0x400) := by
    omega
  have hpair : 0xD800 + offset / 0x400 < 0xDC00 ∧ 0xDC00 ≤ 0xDC00 + offset % 0x400
      ∧ 0xDC00 + offset % 0x400 ≤ 0xDFFF := by omega
  have hvalue : 0x10000 + (0xD800 + offset / 0x400 - 0xD800) * 0x400
      + (0xDC00 + offset % 0x400 - 0xDC00) = 0x10000 + offset := by omega
  rw [ofUnits?, if_neg hhigh, if_pos hpair, hvalue]

/-- The `utf16Units` of a character are read as this character, whatever follows them. -/
theorem ofUnits?_utf16Units_append (c : Char) (rest : List Nat) :
  ofUnits? (utf16Units c ++ rest) = (ofUnits? rest).map (c :: ·)
  := by
  have hc := toNat_ranges c
  by_cases hsmall : c.toNat < 0x10000
  · have hunit : c.toNat < 0xD800 ∨ 0xDFFF < c.toNat := by omega
    rw [utf16Units_of_lt hsmall, List.singleton_append, ofUnits?_cons_of_single hunit,
      Char.ofNat_toNat]
  · have hoffset : c.toNat - 0x10000 < 0x100000 := by omega
    have hvalue : 0x10000 + (c.toNat - 0x10000) = c.toNat := by omega
    rw [utf16Units_of_le hsmall, List.cons_append, List.singleton_append,
      ofUnits?_surrogates_cons hoffset, hvalue, Char.ofNat_toNat]

theorem ofUnits?_flatMap_utf16Units (cs : List Char) :
  ofUnits? (cs.flatMap utf16Units) = some cs
  := by
  induction cs with
  | nil => rfl
  | cons c cs ih =>
      rw [List.flatMap_cons, ofUnits?_utf16Units_append, ih]
      rfl

/-- The units of a text are read from its bytes, in any order `bytesOf` of the two bytes of a
unit. -/
theorem units?_flatMap_utf16Units
    {unit : UInt8 → UInt8 → Nat} {bytesOf : Nat → List UInt8}
    (h : ∀ u < 0x10000, ∃ first second, bytesOf u = [first, second] ∧ unit first second = u)
    (cs : List Char) :
  units? unit (cs.flatMap fun c => (utf16Units c).flatMap bytesOf) = some (cs.flatMap utf16Units)
  := by
  rw [← List.flatMap_assoc]
  apply units?_flatMap
  intro u hu
  obtain ⟨c, -, hc⟩ := List.mem_flatMap.mp hu
  apply h u (lt_of_mem_utf16Units hc)

/-- What is written in units of 16 bits is read back by `unitText?`, in any order of the two
bytes. -/
theorem unitText?_flatMap
    {unit : UInt8 → UInt8 → Nat} {bytesOf : Nat → List UInt8}
    (h : ∀ u < 0x10000, ∃ first second, bytesOf u = [first, second] ∧ unit first second = u)
    (s : String) :
  unitText? unit (s.toList.flatMap fun c => (utf16Units c).flatMap bytesOf) = some s
  := by
  rw [unitText?, units?_flatMap_utf16Units h, Option.bind_some, ofUnits?_flatMap_utf16Units,
    Option.map_some, String.ofList_toList]

/-! ### Single bytes -/

theorem toNat_toUInt8 {c : Char} (h : c.toNat < 0x100) :
  c.toUInt8.toNat = c.toNat
  := by
  show c.val.toUInt8.toNat = c.toNat
  rw [UInt32.toNat_toUInt8]
  apply Nat.mod_eq_of_lt h

/-- If the characters below `bound` are those that are represented, then their bytes, with the
`replacement` for the others, are read as the text with the others replaced. -/
theorem byteText_flatMap
    {charset : Charset} {bound : Nat} (hbound : bound ≤ 0x100)
    (h : ∀ c, charset.represents c = decide (c.toNat < bound)) (s : String) :
  byteText (s.toList.flatMap fun c => [if c.toNat < bound then c.toUInt8 else replacement])
    = charset.replaceAll s
  := by
  rw [← List.map_eq_flatMap, byteText, List.map_map, replaceAll]
  congr 1
  apply List.map_congr_left
  intro c _
  rw [Function.comp_apply, replaceChar, h]
  by_cases hc : c.toNat < bound
  · rw [if_pos hc, if_pos (decide_eq_true hc), toNat_toUInt8 (by omega), Char.ofNat_toNat]
  · rw [if_neg hc, if_neg (by simpa using hc)]
    rfl

/-- A text has no byte above the first half in the charset `ascii`. -/
theorem lt_of_mem_encode_ascii {s : String} {byte : UInt8} (h : byte ∈ ascii.encode s) :
  byte < 0x80
  := by
  obtain ⟨c, -, hbyte⟩ := List.mem_flatMap.mp h
  rw [encodeChar, List.mem_singleton] at hbyte
  by_cases hc : c.toNat < 0x80
  · rw [if_pos hc] at hbyte
    rw [hbyte, UInt8.lt_iff_toNat_lt, toNat_toUInt8 (by omega)]
    apply hc
  · rw [if_neg hc] at hbyte
    rw [hbyte]
    decide

/-! ### Decoding what was encoded -/

/-- The bytes of a text in the charset `utf8` are those that hold the text itself. -/
theorem fromUTF8?_encode (s : String) :
  String.fromUTF8? ⟨(utf8.encode s).toArray⟩ = some s
  := by
  have hbytes : (⟨(utf8.encode s).toArray⟩ : ByteArray) = s.toByteArray := by
    rw [← String.utf8Encode_toList]
    apply ByteArray.ext
    simp only [List.utf8Encode, encode, List.data_toByteArray]
    rfl
  rw [hbytes, String.fromUTF8?, dif_pos s.isValidUTF8]
  rfl

/-- What was encoded denotes the text after `replaceAll`: all but the characters that the charset
does not represent. -/
theorem decode?_encode (charset : Charset) (s : String) :
  charset.decode? (charset.encode s) = some (charset.replaceAll s)
  := by
  cases charset with
  | utf8 =>
      rw [replaceAll_eq_self fun _ _ => rfl]
      apply fromUTF8?_encode
  | utf16be =>
      rw [replaceAll_eq_self fun _ _ => rfl]
      apply unitText?_flatMap fun _ => exists_bigEndian_eq
  | utf16le =>
      rw [replaceAll_eq_self fun _ _ => rfl]
      apply unitText?_flatMap fun _ => exists_littleEndian_eq
  | ascii =>
      have hbytes : (ascii.encode s).all (· < 0x80) = true :=
        List.all_eq_true.mpr fun _ h => decide_eq_true (lt_of_mem_encode_ascii h)
      have hbound : 0x80 ≤ 0x100 := by decide
      rw [decode?, if_pos hbytes]
      exact congrArg some (byteText_flatMap hbound (fun _ => rfl) s)
  | latin1 => exact congrArg some (byteText_flatMap (Nat.le_refl 0x100) (fun _ => rfl) s)

/-- The `texts` may be encoded one by one. -/
theorem encode_join (charset : Charset) (texts : List String) :
  charset.encode (String.join texts) = (texts.map charset.encode).flatten
  := by
  induction texts with
  | nil => rfl
  | cons text texts ih =>
      rw [String.join_cons, encode_append, ih, List.map_cons, List.flatten_cons]

theorem replaceAll_singleton (charset : Charset) (c : Char) :
  charset.replaceAll (String.singleton c) = String.singleton (charset.replaceChar c)
  := by
  rw [replaceAll, String.toList_singleton]
  rfl

theorem toNat_lt_of_byteText {bytes : List UInt8} {c : Char} {bound : Nat}
    (h : byteText bytes = String.singleton c) (hbound : ∀ byte ∈ bytes, byte.toNat < bound) :
  c.toNat < bound
  := by
  have hchars := congrArg String.toList h
  rw [byteText, String.toList_ofList, String.toList_singleton] at hchars
  obtain ⟨byte, hbyte, rfl⟩ := List.mem_map.mp (hchars ▸ List.mem_singleton_self c)
  have hvalid : byte.toNat.isValidChar := Or.inl (by have := byte.toNat_lt; omega)
  rw [Char.ofNat, dif_pos hvalid]
  exact hbound byte hbyte

/-- A charset `represents` a character exactly if there are bytes that denote it. -/
theorem represents_iff_exists_decode? {charset : Charset} {c : Char} :
  charset.represents c = true ↔ ∃ bytes, charset.decode? bytes = some (String.singleton c)
  := by
  constructor
  · intro h
    use charset.encode (String.singleton c)
    rw [decode?_encode, replaceAll_singleton, replaceChar, if_pos h]
  · rintro ⟨bytes, h⟩
    cases charset with
    | utf8 | utf16be | utf16le => rfl
    | ascii =>
        apply decide_eq_true
        rw [decode?] at h
        split at h
        case isTrue hascii =>
          apply toNat_lt_of_byteText (Option.some.inj h)
          intro byte hbyte
          have hlt : byte < 0x80 := of_decide_eq_true (List.all_eq_true.mp hascii byte hbyte)
          apply UInt8.lt_iff_toNat_lt.mp hlt
        case isFalse => cases h
    | latin1 =>
        apply decide_eq_true
        apply toNat_lt_of_byteText (Option.some.inj h)
        intro byte _
        apply byte.toNat_lt

end LogRendering.Charset
