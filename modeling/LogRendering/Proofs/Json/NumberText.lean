import LogRendering.Json.Writer
import LogRendering.Proofs.Json.Numeral

/-!
# The text of a number

What is written of a number denotes the number.  An integer is written by its digits.  A
number in double precision is written with a fraction or an exponent, so that it is not
taken for an integer, by digits of the same value as its shortest decimal, which reads back.
-/

namespace LogRendering.Json

/-! ### Values of digits -/

theorem digitsValue_decimalDigits (n : Nat) :
  digitsValue (decimalDigits n) = n
  := Nat.ofDigitChars_ten_toDigits

theorem digitsValue_append_zeros (digits : List Char) (k : Nat) :
  digitsValue (digits ++ List.replicate k '0') = digitsValue digits * Nat.pow 10 k
  := by
  rw [digitsValue, Nat.ofDigitChars_append, Nat.ofDigitChars_replicate_zero, Nat.mul_comm]
  rfl

theorem digitsValue_zeros_append (k : Nat) (digits : List Char) :
  digitsValue (List.replicate k '0' ++ digits) = digitsValue digits
  := by
  rw [digitsValue, Nat.ofDigitChars_append, Nat.ofDigitChars_replicate_zero, Nat.mul_zero]
  rfl

theorem areDigits_decimalDigits (n : Nat) :
  AreDigits (decimalDigits n)
  := ⟨decimalDigits_ne_nil n, fun _ => isDigit_of_mem_decimalDigits⟩

theorem AreDigits.append {digits digits' : List Char} (h : AreDigits digits)
    (h' : ∀ c ∈ digits', c.isDigit) :
  AreDigits (digits ++ digits')
  := by
  constructor
  · intro hnil
    exact h.1 (List.append_eq_nil_iff.mp hnil).1
  · intro c hc
    exact (List.mem_append.mp hc).elim (h.2 c) (h' c)

theorem isWhole_decimalDigits (n : Nat) :
  IsWhole (decimalDigits n)
  := by
  refine ⟨areDigits_decimalDigits n, fun hhead => ?_⟩
  rw [eq_zero_of_head?_decimalDigits hhead]
  rfl

/-- One digit may stand before a point, whatever it is. -/
theorem isWhole_singleton {c : Char} (h : c.isDigit) :
  IsWhole [c]
  := by
  refine ⟨⟨List.cons_ne_nil c [], ?_⟩, ?_⟩
  · intro d hd
    rwa [List.mem_singleton.mp hd]
  · intro hhead
    rw [Option.some.inj hhead]

/-! ### Decimals -/

/-- The characters `cs` are digits with a fraction or an exponent that have the value of `d`. -/
def SpellsDecimal (cs : List Char) (d : Decimal) : Prop :=
  ∃ whole fraction exponent, IsWhole whole ∧ IsFraction fraction ∧ IsExponent exponent
    ∧ (fraction ≠ [] ∨ exponent ≠ []) ∧ cs = whole ++ (fraction ++ exponent)
    ∧ Decimal.SameValue
      ⟨digitsValue (whole ++ fraction.tail), exponentValue exponent - fraction.tail.length⟩ d

/-- The sign of a number. -/
def signOf (negative : Bool) : List Char :=
  if negative then ['-'] else []

/-- Characters that satisfy `SpellsDecimal` are, after a sign, a numeral that is no integer. -/
theorem SpellsDecimal.exists_numeral {cs : List Char} {d : Decimal} (h : SpellsDecimal cs d)
    (negative : Bool) :
  ∃ n : Numeral, n.toList = signOf negative ++ cs ∧ n.isNegative = negative ∧ ¬ n.IsInteger
    ∧ n.decimal.SameValue d
  := by
  obtain ⟨whole, fraction, exponent, hwhole, hfraction, hexponent, hend, rfl, hvalue⟩ := h
  have hsign : signOf negative ∈ [[], ['-']] := by
    cases negative with
    | false => exact List.mem_cons_self
    | true => exact List.mem_cons_of_mem _ List.mem_cons_self
  refine ⟨⟨signOf negative, whole, fraction, exponent, hsign, hwhole, hfraction, hexponent⟩,
    rfl, ?_, ?_, hvalue⟩
  · cases negative with
    | false => rfl
    | true => rfl
  · rintro ⟨hnofraction, hnoexponent, -⟩
    obtain hend | hend := hend
    · exact hend hnofraction
    · exact hend hnoexponent

/-- Digits with a point between them have a fraction. -/
theorem spellsDecimal_point {whole fraction : List Char} {d : Decimal} (hwhole : IsWhole whole)
    (hfraction : AreDigits fraction)
    (hvalue : Decimal.SameValue ⟨digitsValue (whole ++ fraction), -(fraction.length : Int)⟩ d) :
  SpellsDecimal (whole ++ '.' :: fraction) d
  := by
  refine ⟨whole, '.' :: fraction, [], hwhole, Or.inr ⟨fraction, hfraction, rfl⟩, Or.inl rfl,
    Or.inl (List.cons_ne_nil _ _), by rw [List.append_nil], ?_⟩
  show Decimal.SameValue ⟨digitsValue (whole ++ fraction), 0 - (fraction.length : Int)⟩ d
  rwa [Int.zero_sub]

/-- The digits of `d` with zeros after them begin with zero only if they are zero. -/
theorem isWhole_append_zeros {d : Decimal} (hzero : d.significand = 0 → d.exponent = 0) :
  IsWhole (d.digits ++ List.replicate d.exponent.toNat '0')
  := by
  have hdigits : AreDigits d.digits := areDigits_decimalDigits d.significand
  by_cases hsignificand : d.significand = 0
  · rw [hzero hsignificand, Int.toNat_zero, List.replicate_zero, List.append_nil]
    exact isWhole_decimalDigits d.significand
  · refine ⟨hdigits.append ?_, ?_⟩
    · intro c hc
      rw [(List.mem_replicate.mp hc).2]
      rfl
    · intro hhead
      rw [List.head?_append_of_ne_nil _ hdigits.1] at hhead
      exact absurd (eq_zero_of_head?_decimalDigits hhead) hsignificand

/-- The decimal `d` without places is written with zeros after its digits. -/
theorem spellsDecimal_zeros {d : Decimal} (h : 0 ≤ d.exponent)
    (hzero : d.significand = 0 → d.exponent = 0) :
  SpellsDecimal (d.digits ++ List.replicate d.exponent.toNat '0' ++ ['.', '0']) d
  := by
  apply spellsDecimal_point (isWhole_append_zeros hzero) ⟨List.cons_ne_nil _ _, by simp⟩
  have hdigits : d.digits ++ List.replicate d.exponent.toNat '0' ++ ['0']
      = d.digits ++ List.replicate (d.exponent.toNat + 1) '0' := by
    rw [List.append_assoc, List.replicate_succ']
  have hvalue : digitsValue d.digits = d.significand := digitsValue_decimalDigits d.significand
  have hsame := Decimal.sameValue_of_mul_tenPower d.significand (-1) (d.exponent.toNat + 1)
  have hexponent : -1 + ((d.exponent.toNat + 1 : Nat) : Int) = d.exponent := by omega
  rw [hexponent] at hsame
  rw [hdigits, digitsValue_append_zeros, hvalue]
  exact hsame

/-- Digits with the value of the significand and as many places as `d.exponent` says have the
value of the decimal. -/
theorem sameValue_of_places {d : Decimal} {places : Nat} {digits fraction : List Char}
    (h : d.exponent = -(places : Int)) (hvalue : digitsValue digits = digitsValue d.digits)
    (hlength : fraction.length = places) :
  Decimal.SameValue ⟨digitsValue digits, -(fraction.length : Int)⟩ d
  := by
  have hdigits : digitsValue d.digits = d.significand := digitsValue_decimalDigits d.significand
  rw [hvalue, hdigits, hlength, ← h]
  rfl

/-- The decimal `d` with fewer places than digits is written with a point between its digits. -/
theorem spellsDecimal_split {d : Decimal} {places : Nat} (h : d.exponent = -(places : Int))
    (hpositive : 0 < places) (hplaces : places < d.digits.length) :
  SpellsDecimal (d.digits.take (d.digits.length - places)
    ++ '.' :: d.digits.drop (d.digits.length - places)) d
  := by
  have hdigits : AreDigits d.digits := areDigits_decimalDigits d.significand
  have hlength : (d.digits.drop (d.digits.length - places)).length = places := by
    rw [List.length_drop]
    omega
  apply spellsDecimal_point
  · refine ⟨⟨?_, fun c hc => hdigits.2 c (List.mem_of_mem_take hc)⟩, ?_⟩
    · apply List.ne_nil_of_length_pos
      rw [List.length_take]
      omega
    · intro hhead
      rw [List.head?_take, if_neg (by omega)] at hhead
      have hone : d.digits = ['0'] := (isWhole_decimalDigits d.significand).2 hhead
      rw [hone, List.length_singleton] at hplaces
      omega
  · refine ⟨List.ne_nil_of_length_pos ?_, fun c hc => hdigits.2 c (List.mem_of_mem_drop hc)⟩
    rwa [hlength]
  · apply sameValue_of_places h _ hlength
    rw [List.take_append_drop]

/-- The decimal `d` with at least as many places as digits is written with zeros after the
point. -/
theorem spellsDecimal_places {d : Decimal} {places : Nat} (h : d.exponent = -(places : Int))
    (hplaces : d.digits.length ≤ places) :
  SpellsDecimal ('0' :: '.' :: (List.replicate (places - d.digits.length) '0' ++ d.digits)) d
  := by
  have hdigits : AreDigits d.digits := areDigits_decimalDigits d.significand
  apply spellsDecimal_point (isWhole_singleton rfl)
  · constructor
    · intro hnil
      exact hdigits.1 (List.append_eq_nil_iff.mp hnil).2
    · intro c hc
      obtain hc | hc := List.mem_append.mp hc
      · rw [(List.mem_replicate.mp hc).2]
        rfl
      · exact hdigits.2 c hc
  · apply sameValue_of_places h
    · rw [← List.append_assoc, List.singleton_append, ← List.replicate_succ,
        digitsValue_zeros_append]
    · rw [List.length_append, List.length_replicate]
      omega

theorem spellsDecimal_positional {d : Decimal} (hzero : d.significand = 0 → d.exponent = 0) :
  SpellsDecimal (numberStyle.positionalDigits d) d
  := by
  unfold NumberStyle.positionalDigits
  dsimp only
  split
  next h => exact spellsDecimal_zeros h hzero
  next h =>
    have hplaces : d.exponent = -((-d.exponent).toNat : Int) := by omega
    split
    next hlt => exact spellsDecimal_split hplaces (by omega) hlt
    next hle => exact spellsDecimal_places hplaces (Nat.le_of_not_lt hle)

/-! ### Exponents -/

/-- The exponent `leading` as it is written. -/
def exponentText (leading : Int) : List Char :=
  'e' :: ((if 0 ≤ leading then ['+'] else []) ++ integerDigits leading)

theorem isExponent_exponentText (leading : Int) :
  IsExponent (exponentText leading)
  := by
  right
  have hdigits := areDigits_decimalDigits leading.natAbs
  unfold exponentText integerDigits
  by_cases h : 0 ≤ leading
  · rw [if_pos h, if_neg (Int.not_lt.mpr h)]
    exact ⟨'e', ['+'], _, by decide, by decide, hdigits, rfl⟩
  · rw [if_neg h, if_pos (Int.not_le.mp h)]
    exact ⟨'e', ['-'], _, by decide, by decide, hdigits, rfl⟩

theorem exponentValue_exponentText (leading : Int) :
  exponentValue (exponentText leading) = leading
  := by
  unfold exponentText integerDigits
  by_cases h : 0 ≤ leading
  · rw [if_pos h, if_neg (Int.not_lt.mpr h)]
    show (digitsValue (decimalDigits leading.natAbs) : Int) = leading
    rw [digitsValue_decimalDigits]
    omega
  · rw [if_neg h, if_pos (Int.not_le.mp h)]
    show -(digitsValue (decimalDigits leading.natAbs) : Int) = leading
    rw [digitsValue_decimalDigits]
    omega

/-- The digits after the first one with the point before them. -/
def fractionOf : List Char → List Char
  | [] => []
  | c :: cs => '.' :: c :: cs

theorem isFraction_fractionOf {digits : List Char} (h : ∀ c ∈ digits, c.isDigit) :
  IsFraction (fractionOf digits)
  := by
  cases digits with
  | nil => exact Or.inl rfl
  | cons c cs => exact Or.inr ⟨_, ⟨List.cons_ne_nil c cs, h⟩, rfl⟩

theorem tail_fractionOf (digits : List Char) :
  (fractionOf digits).tail = digits
  := by
  cases digits with
  | nil => rfl
  | cons c cs => rfl

theorem exponentDigits_eq {d : Decimal} {digit : Char} {rest : List Char}
    (h : d.digits = digit :: rest) (leading : Int) :
  numberStyle.exponentDigits d leading
    = [digit] ++ (fractionOf rest ++ exponentText leading)
  := by
  cases rest with
  | nil => simp [NumberStyle.exponentDigits, numberStyle, exponentText, fractionOf, h]
  | cons c cs => simp [NumberStyle.exponentDigits, numberStyle, exponentText, fractionOf, h]

/-- The text `exponentDigits` has the value of the decimal `d`. -/
theorem spellsDecimal_exponent (d : Decimal) :
  SpellsDecimal (numberStyle.exponentDigits d ((d.digits.length : Int) - 1 + d.exponent)) d
  := by
  have hdigits : AreDigits d.digits := areDigits_decimalDigits d.significand
  have hvalue : digitsValue d.digits = d.significand := digitsValue_decimalDigits d.significand
  cases hcs : d.digits with
  | nil => exact absurd hcs hdigits.1
  | cons digit rest =>
      rw [exponentDigits_eq hcs]
      rw [hcs] at hdigits hvalue
      obtain ⟨hdigit, hrest⟩ := List.forall_mem_cons.mp hdigits.2
      refine ⟨[digit], fractionOf rest, _, isWhole_singleton hdigit, isFraction_fractionOf hrest,
        isExponent_exponentText _, Or.inr (List.cons_ne_nil _ _), rfl, ?_⟩
      have hexponent : ((digit :: rest).length : Int) - 1 + d.exponent - rest.length
          = d.exponent := by
        rw [List.length_cons]
        omega
      rw [exponentValue_exponentText, tail_fractionOf, hexponent, List.singleton_append, hvalue]
      rfl

/-! ### Numbers -/

theorem spellsDecimal_decimalText {d : Decimal} (hzero : d.significand = 0 → d.exponent = 0) :
  SpellsDecimal (numberStyle.decimalText d) d
  := by
  unfold NumberStyle.decimalText
  dsimp only
  split
  next => exact spellsDecimal_positional hzero
  next => exact spellsDecimal_exponent d

theorem toList_text_double {x : Binary64} (h : x.IsFinite) :
  (numberStyle.text x).toList
    = signOf x.isNegative
      ++ numberStyle.decimalText (Shortest.ofMagnitude .even x.magnitude)
  := by
  have hnumber : x.isNaN = false := by
    simp only [Binary64.isNaN, decide_eq_false_iff_not, Nat.not_lt]
    exact Nat.le_of_lt h
  simp only [NumberStyle.text, hnumber, h, signOf, Bool.false_eq_true, if_false, if_true,
    String.toList_ofList]
  rfl

/-- The text of `number` denotes it. -/
theorem Number.spelledBy_text (number : Number) :
  number.SpelledBy number.text.toList
  := by
  cases number with
  | natural k =>
      have hvalue := digitsValue_decimalDigits k.toNat
      refine ⟨⟨[], decimalDigits k.toNat, [], [], List.mem_cons_self, isWhole_decimalDigits _,
        Or.inl rfl, Or.inl rfl⟩, ?_, ⟨rfl, rfl, ?_⟩, rfl, hvalue⟩
      · simp [Numeral.toList, text, naturalText]
      · simp only [Numeral.isNegative, hvalue]
        exact k.toNat_lt
  | negative k isNegative =>
      have hvalue := digitsValue_decimalDigits k.toInt.natAbs
      have hnegative : k.toInt < 0 := Int64.lt_iff_toInt_lt.mp isNegative
      have hleast := k.le_toInt
      refine ⟨⟨['-'], decimalDigits k.toInt.natAbs, [], [],
        List.mem_cons_of_mem _ List.mem_cons_self, isWhole_decimalDigits _, Or.inl rfl,
        Or.inl rfl⟩, ?_, ⟨rfl, rfl, ?_⟩, rfl, ?_⟩
      · simp [Numeral.toList, text, integerText, integerDigits, hnegative]
      · show 0 < digitsValue _ ∧ digitsValue _ ≤ Nat.pow 2 63
        rw [hvalue, Nat.pow_eq]
        omega
      · rw [hvalue]
        omega
  | double x isFinite =>
      obtain ⟨n, htext, hsign, hinteger, hvalue⟩ := (spellsDecimal_decimalText
        (Shortest.exponent_ofMagnitude_eq_zero .even isFinite)).exists_numeral x.isNegative
      refine ⟨n, ?_, hinteger, hsign.symm, ?_⟩
      · rw [htext, text, toList_text_double isFinite]
      · exact (Shortest.readsBack_ofMagnitude .even isFinite).of_sameValue hvalue

end LogRendering.Json
