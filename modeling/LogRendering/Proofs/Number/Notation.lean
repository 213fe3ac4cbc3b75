import LogRendering.Number.Notation
import Mathlib.Data.List.Basic

/-!
# Written integers

The text of a natural number consists of digits, and the texts of different integers
differ.
-/

namespace LogRendering

/-- All characters of `decimalDigits n` are digits. -/
theorem isDigit_of_mem_decimalDigits {n : Nat} {c : Char} (h : c ∈ decimalDigits n) :
  c.isDigit = true
  := Nat.isDigit_of_mem_toDigits (by decide) (by decide) h

theorem decimalDigits_injective {m n : Nat} (h : decimalDigits m = decimalDigits n) :
  m = n
  := by
  unfold decimalDigits at h
  rw [← Nat.ofDigitChars_ten_toDigits (n := m), h, Nat.ofDigitChars_ten_toDigits]

theorem decimalDigits_ne_nil (n : Nat) :
  decimalDigits n ≠ []
  := Nat.toDigits_ne_nil

/-- The text `decimalDigits n` begins with zero only if `n` is zero. -/
theorem eq_zero_of_head?_decimalDigits {n : Nat} (h : (decimalDigits n).head? = some '0') :
  n = 0
  := by
  induction n using Nat.strongRecOn with
  | ind n ih =>
      rw [decimalDigits, Nat.toDigits_eq_if (by decide)] at h
      split at h
      next =>
        apply Nat.digitChar_eq_zero.mp
        exact Option.some.inj h
      next =>
        rw [List.head?_append_of_ne_nil _ Nat.toDigits_ne_nil] at h
        have hquotient := ih (n / 10) (by omega) h
        omega

/-- A minus sign does not begin `decimalDigits n`. -/
theorem decimalDigits_ne_minus (n : Nat) (cs : List Char) :
  decimalDigits n ≠ '-' :: cs
  := by
  intro h
  have hdigit : '-'.isDigit = true := by
    apply isDigit_of_mem_decimalDigits (n := n)
    rw [h]
    apply List.mem_cons_self
  contradiction

/-- Different integers have a different `integerText`. -/
theorem integerText_injective {m n : Int} (h : integerText m = integerText n) :
  m = n
  := by
  have hdigits : integerDigits m = integerDigits n := String.ofList_injective h
  unfold integerDigits at hdigits
  split at hdigits
  case isTrue hm =>
    split at hdigits
    case isTrue hn =>
      have habs := decimalDigits_injective (List.cons.inj hdigits).2
      omega
    case isFalse =>
      exfalso
      apply decimalDigits_ne_minus _ _ hdigits.symm
  case isFalse hm =>
    split at hdigits
    case isTrue =>
      exfalso
      apply decimalDigits_ne_minus _ _ hdigits
    case isFalse hn =>
      have habs := decimalDigits_injective hdigits
      omega

end LogRendering
