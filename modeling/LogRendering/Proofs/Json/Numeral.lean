import LogRendering.Proofs.Json.Grammar
import LogRendering.Proofs.Lists
import LogRendering.Proofs.Number.Notation
import LogRendering.Proofs.Number.Shortest
import Mathlib.Tactic.Use

/-!
# Numbers as they are written

The text of a number is a numeral: a sign, digits, and perhaps a fraction and an exponent.  A
numeral without fraction and exponent denotes an integer if that has 64 bits; every other
numeral denotes the finite number in double precision that is nearest to it, if there is one.
A text is at most one numeral, and a numeral denotes at most one number.  The text that is
written of a number denotes it.
-/

namespace LogRendering

/-- A number in double precision is its sign `isNegative` and its `magnitude`. -/
theorem Binary64.ext_magnitude {x y : Binary64} (hsign : x.isNegative = y.isNegative)
    (hmagnitude : x.magnitude = y.magnitude) :
  x = y
  := by
  have hx := UInt64.toNat_lt x.bits
  have hy := UInt64.toNat_lt y.bits
  simp only [isNegative, magnitude, decide_eq_decide, Nat.pow_eq] at hsign hmagnitude
  have hbits : x.bits.toNat = y.bits.toNat := by omega
  obtain ⟨bits⟩ := x
  obtain ⟨bits'⟩ := y
  obtain rfl : bits = bits' := UInt64.toNat_inj.mp hbits
  rfl

namespace Json

/-! ### Numerals -/

/-- The parts of the text of a number, of which each has the form of the grammar. -/
structure Numeral where
  sign : List Char
  whole : List Char
  fraction : List Char
  exponent : List Char
  isSign : sign ∈ [[], ['-']]
  isWhole : IsWhole whole
  isFraction : IsFraction fraction
  isExponent : IsExponent exponent

/-- The natural number that `digits` denote. -/
def digitsValue (digits : List Char) : Nat :=
  Nat.ofDigitChars 10 digits 0

/-- The integer that the exponent of a `Numeral` denotes, read from its letter on. -/
def exponentValue : List Char → Int
  | _ :: '-' :: digits => -(digitsValue digits : Int)
  | _ :: '+' :: digits => digitsValue digits
  | _ :: digits => digitsValue digits
  | [] => 0

/-- The character `c` is one of those of which numerals consist. -/
def IsNumeralChar (c : Char) : Prop :=
  c.isDigit ∨ c ∈ ['-', '+', '.', 'e', 'E']

namespace Numeral

/-- The text of the numeral `n`. -/
def toList (n : Numeral) : List Char :=
  n.sign ++ (n.whole ++ (n.fraction ++ n.exponent))

theorem isNumber_toList (n : Numeral) :
  IsNumber n.toList
  := ⟨_, _, _, _, n.isSign, n.isWhole, n.isFraction, n.isExponent, rfl⟩

/-- The decimal that the digits of `n` denote, without the sign. -/
def decimal (n : Numeral) : Decimal where
  significand := digitsValue (n.whole ++ n.fraction.tail)
  exponent := exponentValue n.exponent - n.fraction.tail.length

/-- The numeral `n` has a minus sign. -/
def isNegative (n : Numeral) : Bool :=
  n.sign = ['-']

/-- The numeral `n` is an integer of 64 bits.  Zero with a minus sign is none. -/
def IsInteger (n : Numeral) : Prop :=
  n.fraction = [] ∧ n.exponent = []
    ∧ if n.isNegative then 0 < digitsValue n.whole ∧ digitsValue n.whole ≤ Nat.pow 2 63
      else digitsValue n.whole < Nat.pow 2 64

/-- The numeral `n` denotes the number: by its digits if it `IsInteger`, and else by rounding its
`decimal`. -/
def Denotes (n : Numeral) : Number → Prop
  | .natural k => n.IsInteger ∧ n.isNegative = false ∧ digitsValue n.whole = k.toNat
  | .negative k _ => n.IsInteger ∧ n.isNegative = true ∧ -(digitsValue n.whole : Int) = k.toInt
  | .double x _ =>
    ¬ n.IsInteger ∧ x.isNegative = n.isNegative ∧ n.decimal.ReadsBack x.magnitude

/-- A numeral denotes at most one number. -/
theorem Denotes.unique {n : Numeral} {number number' : Number} (h : n.Denotes number)
    (h' : n.Denotes number') :
  number = number'
  := by
  cases number with
  | natural k =>
      obtain ⟨hinteger, hsign, hvalue⟩ := h
      cases number' with
      | natural k' => rw [UInt64.toNat_inj.mp (hvalue.symm.trans h'.2.2)]
      | negative k' isNegative' => exact absurd (hsign.symm.trans h'.2.1) Bool.false_ne_true
      | double x' isFinite' => exact absurd hinteger h'.1
  | negative k isNegative =>
      obtain ⟨hinteger, hsign, hvalue⟩ := h
      cases number' with
      | natural k' => exact absurd (h'.2.1.symm.trans hsign) Bool.false_ne_true
      | negative k' isNegative' =>
          obtain rfl := Int64.toInt_inj.mp (hvalue.symm.trans h'.2.2)
          rfl
      | double x' isFinite' => exact absurd hinteger h'.1
  | double x isFinite =>
      obtain ⟨hinteger, hsign, hvalue⟩ := h
      cases number' with
      | natural k' => exact absurd h'.1 hinteger
      | negative k' isNegative' => exact absurd h'.1 hinteger
      | double x' isFinite' =>
          obtain ⟨-, hsign', hvalue'⟩ := h'
          obtain rfl := Binary64.ext_magnitude (hsign.trans hsign'.symm)
            (hvalue.symm.trans hvalue')
          rfl

/-! ### Texts of numerals -/

/-- The part `n.sign` consists of minus signs. -/
theorem eq_minus_of_mem_sign {n : Numeral} {c : Char} (h : c ∈ n.sign) :
  c = '-'
  := by
  have hsign := n.isSign
  simp only [List.mem_cons, List.not_mem_nil, or_false] at hsign
  obtain hsign | hsign := hsign
  · rw [hsign] at h
    cases h
  · rw [hsign] at h
    exact List.mem_singleton.mp h

/-- The part `n.fraction` consists of a point and digits. -/
theorem isPointOrDigit_of_mem_fraction {n : Numeral} {c : Char} (h : c ∈ n.fraction) :
  c = '.' ∨ c.isDigit
  := by
  obtain hfraction | ⟨digits, hdigits, hfraction⟩ := n.isFraction
  · rw [hfraction] at h
    cases h
  · rw [hfraction] at h
    obtain rfl | h := List.mem_cons.mp h
    · exact Or.inl rfl
    · exact Or.inr (hdigits.2 c h)

theorem isNumeralChar_of_mem {n : Numeral} {c : Char} (h : c ∈ n.toList) :
  IsNumeralChar c
  := by
  unfold IsNumeralChar
  simp only [toList, List.mem_append] at h
  obtain h | h | h | h := h
  · simp [eq_minus_of_mem_sign h]
  · exact Or.inl (n.isWhole.1.2 c h)
  · obtain rfl | hdigit := isPointOrDigit_of_mem_fraction h
    · simp
    · exact Or.inl hdigit
  · obtain hexponent | ⟨letter, sign, digits, hletter, hsign, hdigits, hexponent⟩ := n.isExponent
    · rw [hexponent] at h
      cases h
    · simp only [hexponent, List.mem_cons, List.mem_append] at h
      simp only [List.mem_cons, List.not_mem_nil, or_false] at hletter hsign
      obtain rfl | h | h := h
      · obtain rfl | rfl := hletter
        · simp
        · simp
      · obtain rfl | rfl | rfl := hsign
        · cases h
        · simp [List.mem_singleton.mp h]
        · simp [List.mem_singleton.mp h]
      · exact Or.inl (hdigits.2 c h)

/-- The part `n.whole` begins with a digit. -/
theorem isDigit_head?_whole {n : Numeral} {rest : List Char} :
  ∀ c ∈ (n.whole ++ rest).head?, c.isDigit
  := by
  intro c h
  have hdigits := n.isWhole.1
  cases hwhole : n.whole with
  | nil => exact absurd hwhole hdigits.1
  | cons d ds =>
      rw [hwhole, List.cons_append, List.head?_cons, Option.mem_some] at h
      apply hdigits.2 c
      rw [hwhole, h]
      exact List.mem_cons_self

/-- The part `n.exponent` begins with a letter. -/
theorem mem_head?_exponent {n : Numeral} {c : Char} (h : c ∈ n.exponent.head?) :
  c = 'e' ∨ c = 'E'
  := by
  obtain hexponent | ⟨letter, sign, digits, hletter, -, -, hexponent⟩ := n.isExponent
  · rw [hexponent] at h
    cases h
  · rw [hexponent, List.head?_cons, Option.mem_some] at h
    simpa [h] using hletter

/-- The part `n.whole` ends where something begins that is no digit. -/
theorem not_isDigit_head?_end {n : Numeral} :
  ∀ c ∈ (n.fraction ++ n.exponent).head?, ¬ c.isDigit
  := by
  intro c h
  obtain hfraction | ⟨digits, -, hfraction⟩ := n.isFraction
  · rw [hfraction, List.nil_append] at h
    obtain rfl | rfl := mem_head?_exponent h
    · decide
    · decide
  · rw [hfraction, List.cons_append, List.head?_cons, Option.mem_some] at h
    rw [← h]
    decide

/-- A text is `toList` of at most one numeral. -/
theorem toList_injective {n m : Numeral} (h : n.toList = m.toList) :
  n = m
  := by
  have hminus : ∀ (k : Numeral) (rest : List Char), ∀ c ∈ (k.whole ++ rest).head?, ¬ c = '-' := by
    rintro k rest c hc rfl
    exact absurd (isDigit_head?_whole _ hc) (by decide)
  have hletter : ∀ k : Numeral, ∀ c ∈ k.exponent.head?, ¬ (c = '.' ∨ c.isDigit) := by
    intro k c hc
    obtain rfl | rfl := mem_head?_exponent hc
    · decide
    · decide
  obtain ⟨hsign, h⟩ := append_inj_of_longest (fun _ => eq_minus_of_mem_sign)
    (fun _ => eq_minus_of_mem_sign) (hminus n _) (hminus m _) h
  obtain ⟨hwhole, h⟩ := append_inj_of_longest n.isWhole.1.2 m.isWhole.1.2
    not_isDigit_head?_end not_isDigit_head?_end h
  obtain ⟨hfraction, hexponent⟩ := append_inj_of_longest
    (fun _ => isPointOrDigit_of_mem_fraction) (fun _ => isPointOrDigit_of_mem_fraction)
    (hletter n) (hletter m) h
  cases n
  cases m
  simp only [mk.injEq]
  exact ⟨hsign, hwhole, hfraction, hexponent⟩

end Numeral

/-! ### Texts of numbers -/

/-- The characters `cs` are a `Numeral` that denotes `number`. -/
def Number.SpelledBy (number : Number) (cs : List Char) : Prop :=
  ∃ n : Numeral, n.toList = cs ∧ n.Denotes number

theorem Number.SpelledBy.isNumber {number : Number} {cs : List Char} (h : number.SpelledBy cs) :
  IsNumber cs
  := by
  obtain ⟨n, rfl, -⟩ := h
  exact n.isNumber_toList

/-- The text of a number, up to something that does not go on with it, is the text of no other
number and of no other length. -/
theorem Number.SpelledBy.unique {number number' : Number} {cs cs' rest rest' : List Char}
    (h : number.SpelledBy cs) (h' : number'.SpelledBy cs')
    (hrest : ∀ c ∈ rest.head?, ¬ IsNumeralChar c)
    (hrest' : ∀ c ∈ rest'.head?, ¬ IsNumeralChar c)
    (heq : cs ++ rest = cs' ++ rest') :
  number = number' ∧ rest = rest'
  := by
  obtain ⟨n, rfl, hdenotes⟩ := h
  obtain ⟨n', rfl, hdenotes'⟩ := h'
  obtain ⟨htext, hends⟩ := append_inj_of_longest (fun _ => Numeral.isNumeralChar_of_mem)
    (fun _ => Numeral.isNumeralChar_of_mem) hrest hrest' heq
  obtain rfl := Numeral.toList_injective htext
  exact ⟨hdenotes.unique hdenotes', hends⟩

end Json

end LogRendering
