import LogRendering.Proofs.Charset.Decoding

/-!
# Texts back from their bytes

Encoding works text by text.  The charsets of Unicode give every text back from its bytes, which
begin with a byte order mark only if the text itself does, and in which a character beyond the
first 65536 is a pair of surrogates.  The charsets with a byte for each character give the text
back with a question mark in place of the characters above their limit, and of no others.
-/

namespace LogRendering.Charset

/-- The charsets that have bytes for every character. -/
def unicode : List Charset :=
  [utf8, utf16be, utf16le]

theorem mem_unicode_iff (charset : Charset) :
  charset ∈ unicode ↔ charset = utf8 ∨ charset = utf16be ∨ charset = utf16le
  := by
  simp [unicode]

/-- In one of the charsets `unicode` no character is replaced. -/
theorem decode?_encode_of_mem_unicode {charset : Charset} (h : charset ∈ unicode) (s : String) :
  charset.decode? (charset.encode s) = some s
  := by
  rw [decode?_encode]
  obtain rfl | rfl | rfl := (mem_unicode_iff charset).mp h
  all_goals rw [replaceAll_eq_self fun _ _ => rfl]

/-! ### Bytes at the beginning -/

/-- The bytes of a character in UTF-8 are not the beginning of those of another. -/
theorem eq_of_utf8EncodeChar_append {c d : Char} {xs ys : List UInt8}
    (h : String.utf8EncodeChar c ++ xs = String.utf8EncodeChar d ++ ys) :
  c = d
  := by
  have hc := ByteArray.utf8DecodeChar?_utf8EncodeChar_append (c := c) (b := xs.toByteArray)
  have hd := ByteArray.utf8DecodeChar?_utf8EncodeChar_append (c := d) (b := ys.toByteArray)
  rw [← List.toByteArray_append] at hc hd
  rw [h, hd] at hc
  exact (Option.some.inj hc).symm

/-- Of two lists `us` and `vs` of units of which the bytes begin alike, one begins with the
other. -/
theorem prefix_or_prefix_of_flatMap
    {unit : UInt8 → UInt8 → Nat} {bytesOf : Nat → List UInt8} {us vs : List Nat}
    {xs ys : List UInt8}
    (hus : ∀ u ∈ us, ∃ first second, bytesOf u = [first, second] ∧ unit first second = u)
    (hvs : ∀ v ∈ vs, ∃ first second, bytesOf v = [first, second] ∧ unit first second = v)
    (h : us.flatMap bytesOf ++ xs = vs.flatMap bytesOf ++ ys) :
  us <+: vs ∨ vs <+: us
  := by
  induction us generalizing vs with
  | nil => exact .inl List.nil_prefix
  | cons u us ih =>
      cases vs with
      | nil => exact .inr List.nil_prefix
      | cons v vs =>
          obtain ⟨⟨first, second, hu, rfl⟩, husTail⟩ := List.forall_mem_cons.mp hus
          obtain ⟨⟨first', second', hv, rfl⟩, hvsTail⟩ := List.forall_mem_cons.mp hvs
          rw [List.flatMap_cons, List.flatMap_cons, hu, hv] at h
          simp only [List.cons_append, List.nil_append, List.cons.injEq] at h
          obtain ⟨rfl, rfl, h⟩ := h
          simpa only [List.prefix_cons_inj] using ih husTail hvsTail h

/-- The `utf16Units` of a character are not the beginning of those of another. -/
theorem eq_of_utf16Units_isPrefix {c d : Char} (h : utf16Units c <+: utf16Units d) :
  c = d
  := by
  obtain ⟨rest, hrest⟩ := h
  have hd := ofUnits?_utf16Units_append d []
  rw [List.append_nil, ← hrest, ofUnits?_utf16Units_append] at hd
  obtain ⟨cs, -, hcs⟩ := Option.map_eq_some_iff.mp hd
  exact (List.cons.inj hcs).1

/-- The bytes of a character in units of 16 bits are not the beginning of those of another. -/
theorem eq_of_flatMap_utf16Units_append
    {unit : UInt8 → UInt8 → Nat} {bytesOf : Nat → List UInt8} {c d : Char} {xs ys : List UInt8}
    (hbytes : ∀ u < 0x10000, ∃ first second, bytesOf u = [first, second] ∧ unit first second = u)
    (h : (utf16Units c).flatMap bytesOf ++ xs = (utf16Units d).flatMap bytesOf ++ ys) :
  c = d
  := by
  have hprefix := prefix_or_prefix_of_flatMap
    (fun u hu => hbytes u (lt_of_mem_utf16Units hu))
    (fun u hu => hbytes u (lt_of_mem_utf16Units hu)) h
  obtain hprefix | hprefix := hprefix
  · apply eq_of_utf16Units_isPrefix hprefix
  · apply (eq_of_utf16Units_isPrefix hprefix).symm

/-- In one of the charsets `unicode` the bytes of a character are not the beginning of those of
another. -/
theorem eq_of_encodeChar_append {charset : Charset} (hcharset : charset ∈ unicode) {c d : Char}
    {xs ys : List UInt8} (h : charset.encodeChar c ++ xs = charset.encodeChar d ++ ys) :
  c = d
  := by
  obtain rfl | rfl | rfl := (mem_unicode_iff charset).mp hcharset
  · exact eq_of_utf8EncodeChar_append h
  · exact eq_of_flatMap_utf16Units_append (fun _ => exists_bigEndian_eq) h
  · exact eq_of_flatMap_utf16Units_append (fun _ => exists_littleEndian_eq) h

theorem encodeChar_ne_nil {charset : Charset} (h : charset ∈ unicode) (c : Char) :
  charset.encodeChar c ≠ []
  := by
  intro hnil
  have hsingleton := decode?_encode_of_mem_unicode h (String.singleton c)
  have hempty := decode?_encode_of_mem_unicode h ""
  rw [encode, String.toList_singleton, List.flatMap_singleton, hnil] at hsingleton
  have heq := Option.some.inj (hsingleton.symm.trans hempty)
  simp [← String.toList_inj] at heq

/-- The bytes of `s` begin with those of `c` exactly if `s` begins with `c`. -/
theorem encodeChar_prefix_iff {charset : Charset} (h : charset ∈ unicode) (c : Char) (s : String) :
  charset.encodeChar c <+: charset.encode s ↔ s.toList.head? = some c
  := by
  rw [encode]
  cases s.toList with
  | nil => simp [encodeChar_ne_nil h c]
  | cons d cs =>
      rw [List.flatMap_cons, List.head?_cons, Option.some_inj]
      constructor
      · rintro ⟨rest, hrest⟩
        apply (eq_of_encodeChar_append h hrest).symm
      · rintro rfl
        apply List.prefix_append

/-- The bytes by which a text may announce its charset and the order of its bytes. -/
def byteOrderMark : Charset → List UInt8
  | utf8 => [0xEF, 0xBB, 0xBF]
  | utf16be => [0xFE, 0xFF]
  | utf16le => [0xFF, 0xFE]
  | ascii | latin1 => []

theorem encodeChar_byteOrderMark {charset : Charset} (h : charset ∈ unicode) :
  charset.encodeChar '\uFEFF' = charset.byteOrderMark
  := by
  obtain rfl | rfl | rfl := (mem_unicode_iff charset).mp h
  · decide
  · decide
  · decide

/-! ### Surrogates -/

/-- The units `high` and `low` are the pair of surrogates that stands for the character `c`. -/
structure IsSurrogatePair (c : Char) (high low : Nat) : Prop where
  high_mem : 0xD800 ≤ high ∧ high ≤ 0xDBFF
  low_mem : 0xDC00 ≤ low ∧ low ≤ 0xDFFF
  toNat_eq : c.toNat = 0x10000 + (high - 0xD800) * 0x400 + (low - 0xDC00)

/-- A character beyond the first 65536 has a pair of surrogates as its `utf16Units`. -/
theorem exists_isSurrogatePair {c : Char} (h : 0xFFFF < c.toNat) :
  ∃ high low, IsSurrogatePair c high low ∧ utf16Units c = [high, low]
  := by
  have hc := toNat_ranges c
  refine ⟨_, _, ⟨?_, ?_, ?_⟩, utf16Units_of_le (Nat.not_lt.mpr h)⟩
  all_goals omega

/-! ### Single bytes -/

/-- The text with a question mark in place of the characters above `limit`. -/
def replacedAbove (limit : Nat) (s : String) : String :=
  String.ofList (s.toList.map fun c => if limit < c.toNat then '?' else c)

theorem replaceAll_eq_replacedAbove {charset : Charset} {limit : Nat}
    (h : ∀ c, charset.represents c = decide (c.toNat < limit + 1)) (s : String) :
  charset.replaceAll s = replacedAbove limit s
  := by
  rw [replaceAll, replacedAbove]
  congr 2
  funext c
  have hrepresents : charset.represents c = true ↔ ¬ limit < c.toNat := by
    rw [h, decide_eq_true_iff, Nat.lt_succ_iff, Nat.not_lt]
  rw [replaceChar]
  by_cases hc : limit < c.toNat
  · rw [if_pos hc, if_neg fun hr => hrepresents.mp hr hc]
  · rw [if_neg hc, if_pos (hrepresents.mpr hc)]

/-- A text has as many bytes as characters if each character has one, `byteOf` it. -/
theorem length_encode {charset : Charset} {byteOf : Char → UInt8}
    (h : ∀ c, charset.encodeChar c = [byteOf c]) (s : String) :
  (charset.encode s).length = s.length
  := by
  have hbytes : charset.encode s = s.toList.map byteOf := by
    rw [encode, List.map_eq_flatMap]
    congr 1
    funext c
    apply h
  rw [hbytes, List.length_map, String.length_toList]

/-! ### Whole texts -/

/-- Texts may be encoded one by one.  A text encoded in one of the charsets `unicode` is decoded
as itself, has no `byteOrderMark` of its own, and has a pair of surrogates for each character
beyond the first 65536.  In the other two charsets it has one byte for each character, and is
decoded as `replacedAbove` the limit of the charset. -/
theorem encode_and_back (s t : String) :
  (∀ charset : Charset, charset.encode (s ++ t) = charset.encode s ++ charset.encode t
      ∧ ∀ texts : List String,
        charset.encode (String.join texts) = (texts.map charset.encode).flatten)
    ∧ (∀ charset ∈ unicode, charset.decode? (charset.encode s) = some s
      ∧ (charset.byteOrderMark <+: charset.encode s ↔ s.toList.head? = some '\uFEFF'))
    ∧ (∀ c : Char, 0xFFFF < c.toNat → ∃ high low, IsSurrogatePair c high low
      ∧ units? bigEndian (utf16be.encode (String.singleton c)) = some [high, low]
      ∧ units? littleEndian (utf16le.encode (String.singleton c)) = some [high, low])
    ∧ (ascii.encode s).length = s.length
    ∧ ascii.decode? (ascii.encode s) = some (replacedAbove 0x7F s)
    ∧ (latin1.encode s).length = s.length
    ∧ latin1.decode? (latin1.encode s) = some (replacedAbove 0xFF s)
  := by
  refine ⟨?_, ?_, ?_, ?_, ?_, ?_, ?_⟩
  · intro charset
    exact ⟨charset.encode_append s t, charset.encode_join⟩
  · intro charset h
    constructor
    · apply decode?_encode_of_mem_unicode h
    · rw [← encodeChar_byteOrderMark h]
      apply encodeChar_prefix_iff h
  · intro c h
    obtain ⟨high, low, hpair, hunits⟩ := exists_isSurrogatePair h
    use high, low, hpair
    rw [← hunits, ← List.flatMap_singleton utf16Units c, ← String.toList_singleton]
    constructor
    · apply units?_flatMap_utf16Units fun _ => exists_bigEndian_eq
    · apply units?_flatMap_utf16Units fun _ => exists_littleEndian_eq
  · apply length_encode fun _ => rfl
  · rw [decode?_encode, replaceAll_eq_replacedAbove fun _ => rfl]
  · apply length_encode fun _ => rfl
  · rw [decode?_encode, replaceAll_eq_replacedAbove fun _ => rfl]

/-- A text in which each charset meets a character that it writes in its own way. -/
def mixedText : String :=
  "\uFEFFé€😀"

/-- A byte order mark, supplementary characters and characters above the limits in the one text
`mixedText`. -/
theorem encode_and_back_mixedText :
  utf16le ∈ unicode
    ∧ utf16le.decode? (utf16le.encode mixedText) = some mixedText
    ∧ utf16le.byteOrderMark <+: utf16le.encode mixedText
    ∧ 0xFFFF < '😀'.toNat
    ∧ (∃ high low, IsSurrogatePair '😀' high low
      ∧ units? bigEndian (utf16be.encode (String.singleton '😀')) = some [high, low])
    ∧ ascii.decode? (ascii.encode mixedText) = some "????"
    ∧ latin1.decode? (latin1.encode mixedText) = some "?é??"
  := by
  obtain ⟨-, hunicode, hpairs, -, hascii, -, hlatin1⟩ := encode_and_back mixedText ""
  have hmem : utf16le ∈ unicode := by decide
  obtain ⟨hback, hmark⟩ := hunicode utf16le hmem
  obtain ⟨high, low, hpair, hhigh, -⟩ := hpairs '😀' (by decide)
  exact ⟨hmem, hback, hmark.mpr (by decide), by decide, ⟨high, low, hpair, hhigh⟩,
    hascii.trans (by decide), hlatin1.trans (by decide)⟩

end LogRendering.Charset
