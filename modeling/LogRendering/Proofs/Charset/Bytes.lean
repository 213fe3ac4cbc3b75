import LogRendering.Proofs.Charset.Decoding
import LogRendering.Trace.Source
import LogRendering.Proofs.Text.Division
import Mathlib.Data.List.Basic

/-!
# Bytes of texts

Which bytes are those of a text in UTF-8.  A byte that is a character of its own is not a part
of another character, and so it may be cut off at the end of a text like that character.
-/

namespace LogRendering

namespace Charset

/-! ### Bytes and texts -/

theorem toList_toByteArray (s : String) :
  s.toByteArray.data.toList = utf8.encode s
  := by
  rw [← String.utf8Encode_toList]
  simp only [List.utf8Encode, encode, List.data_toByteArray]
  rfl

theorem toListLoop_eq (bytes : ByteArray) (i : Nat) (before : List UInt8) :
  ByteArray.toList.loop bytes i before = before.reverse ++ bytes.data.toList.drop i
  := by
  induction i, before using ByteArray.toList.loop.induct bytes with
  | case1 i before hlt ih =>
      have hi : i < bytes.data.toList.length := hlt
      have hget : bytes.get! i = bytes.data.toList[i] := getElem!_pos bytes.data i hlt
      rw [ByteArray.toList.loop, if_pos hlt, ih, List.drop_eq_getElem_cons hi, hget,
        List.reverse_cons, List.append_assoc]
      rfl
  | case2 i before hge =>
      have hlength : bytes.data.toList.length ≤ i := Nat.le_of_not_lt hge
      rw [ByteArray.toList.loop, if_neg hge, List.drop_eq_nil_of_le hlength, List.append_nil]

/-- The bytes of `s.toUTF8` are those of the charset `utf8`. -/
theorem toList_toUTF8 (s : String) :
  s.toUTF8.toList = utf8.encode s
  := by
  rw [ByteArray.toList, toListLoop_eq, String.toUTF8_eq_toByteArray, toList_toByteArray]
  rfl

/-! ### Bytes that are characters of their own -/

variable {c : Char} {b : UInt8}

/-- A byte `b` that is a character of its own is not a part of another character. -/
theorem eq_of_mem_utf8EncodeChar
    (hc : String.utf8EncodeChar c = [b]) {d : Char} (hd : b ∈ String.utf8EncodeChar d) :
  d = c
  := by
  have hfirst : b.IsUTF8FirstByte := by
    have hzero := UInt8.isUTF8FirstByte_getElem_zero_utf8EncodeChar (c := c)
    simpa only [hc, List.getElem_cons_zero] using hzero
  -- a byte that may come first in a character comes first in each that it is a part of
  obtain ⟨i, hi, rfl⟩ := List.mem_iff_getElem.mp hd
  obtain rfl := UInt8.isUTF8FirstByte_getElem_utf8EncodeChar.mp hfirst
  have hcons := List.drop_eq_getElem_cons hi
  rw [List.drop_zero] at hcons
  have hreadsC := ByteArray.utf8DecodeChar?_utf8EncodeChar_append (c := c)
    (b := ((String.utf8EncodeChar d).drop 1).toByteArray)
  have hreadsD := ByteArray.utf8DecodeChar?_utf8EncodeChar_append (c := d)
    (b := ByteArray.empty)
  rw [hc, ← List.toByteArray_append, List.singleton_append, ← hcons] at hreadsC
  rw [ByteArray.append_empty, hreadsC] at hreadsD
  exact (Option.some.inj hreadsD).symm

theorem mem_of_mem_utf8_encode
    (hc : String.utf8EncodeChar c = [b]) {s : String} (h : b ∈ utf8.encode s) :
  c ∈ s.toList
  := by
  obtain ⟨d, hd, hmem⟩ := List.mem_flatMap.mp h
  obtain rfl := eq_of_mem_utf8EncodeChar hc hmem
  exact hd

theorem mem_utf8_encode_of_mem
    (hc : String.utf8EncodeChar c = [b]) {s : String} (h : c ∈ s.toList) :
  b ∈ utf8.encode s
  := by
  apply List.mem_flatMap.mpr
  use c, h
  show b ∈ String.utf8EncodeChar c
  rw [hc]
  apply List.mem_singleton_self

theorem utf8_encode_singleton (c : Char) :
  utf8.encode (String.singleton c) = String.utf8EncodeChar c
  := by
  rw [encode, String.toList_singleton, List.flatMap_singleton]
  rfl

/-- A text ends in the character `c` if its bytes end in the byte of this character. -/
theorem exists_append_singleton_of_encode
    (hc : String.utf8EncodeChar c = [b]) {s : String} {bytes : List UInt8}
    (h : utf8.encode s = bytes ++ [b]) :
  ∃ t, s = t ++ String.singleton c ∧ utf8.encode t = bytes
  := by
  obtain hnil | ⟨front, d, hlast⟩ := List.eq_nil_or_concat s.toList
  · rw [encode, hnil] at h
    cases bytes with
    | nil => contradiction
    | cons byte bytes => contradiction
  · have hs : s = String.ofList front ++ String.singleton d := by
      rw [← String.toList_inj, String.toList_append, String.toList_ofList,
        String.toList_singleton, hlast, List.concat_eq_append]
    subst hs
    rw [encode_append, utf8_encode_singleton] at h
    have hmem : b ∈ String.utf8EncodeChar d := by
      have hends := congrArg List.getLast? h
      rw [List.getLast?_append_of_ne_nil _ String.utf8EncodeChar_ne_nil,
        List.getLast?_concat] at hends
      exact List.mem_of_getLast? hends
    obtain rfl := eq_of_mem_utf8EncodeChar hc hmem
    rw [← hc] at h
    exact ⟨_, rfl, List.append_cancel_right h⟩

/-- To cut off a character by `withoutFinal` at the end of a text is to cut off its byte. -/
theorem utf8_encode_withoutFinal (hc : String.utf8EncodeChar c = [b]) (s : String) :
  utf8.encode (String.ofList (withoutFinal c s.toList)) = withoutFinal b (utf8.encode s)
  := by
  obtain hsame | hends := eq_withoutFinal_or b (utf8.encode s)
  · obtain hother | hlast := eq_withoutFinal_or c s.toList
    · rw [hother, hsame, String.ofList_toList]
    · have hs : s = String.ofList (withoutFinal c s.toList) ++ String.singleton c := by
        rw [← String.toList_inj, String.toList_append, String.toList_ofList,
          String.toList_singleton]
        exact hlast
      have hbytes := congrArg utf8.encode hs
      rw [encode_append, utf8_encode_singleton, hc] at hbytes
      rw [hbytes, withoutFinal_append_singleton]
  · obtain ⟨t, rfl, ht⟩ := exists_append_singleton_of_encode hc hends
    rw [String.toList_append, String.toList_singleton, withoutFinal_append_singleton,
      String.ofList_toList, ht]

end Charset

namespace Trace

open Charset

/-- The bytes of a line are decoded by `decodeLine` as the text whose bytes they are. -/
theorem decodeLine_eq_ok_iff (bytes : List UInt8) (s : String) :
  decodeLine bytes = .ok s ↔ utf8.encode s = bytes
  := by
  constructor
  · intro h
    unfold decodeLine at h
    split at h
    next t ht =>
      obtain rfl := Except.ok.inj h
      unfold String.fromUTF8? at ht
      split at ht
      next hvalid =>
        obtain rfl := Option.some.inj ht
        rw [← toList_toByteArray]
        rfl
      next => contradiction
    next => contradiction
  · rintro rfl
    rw [decodeLine, fromUTF8?_encode]

/-- The bytes of a line are `notText` exactly if they are not those of a text. -/
theorem decodeLine_eq_error_iff (bytes : List UInt8) (e : DeviceFailure) :
  decodeLine bytes = .error e ↔ e = notText ∧ ∀ s, utf8.encode s ≠ bytes
  := by
  constructor
  · intro h
    constructor
    · unfold decodeLine at h
      split at h
      next => contradiction
      next => exact (Except.error.inj h).symm
    · intro s hs
      rw [(decodeLine_eq_ok_iff bytes s).mpr hs] at h
      contradiction
  · rintro ⟨rfl, hnone⟩
    cases hline : decodeLine bytes with
    | ok s => exact absurd ((decodeLine_eq_ok_iff bytes s).mp hline) (hnone s)
    | error e =>
        unfold decodeLine at hline
        split at hline
        next => contradiction
        next => exact hline.symm

end Trace

end LogRendering
