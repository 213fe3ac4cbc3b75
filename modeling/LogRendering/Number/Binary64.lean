/-!
# Double precision numbers

The 64-bit words of the binary floating-point format of double precision, read as a
sign, a significand and a power of two, and the rounding of a positive rational number
to the nearest of them, a tie going to the even significand.  All arithmetic is exact
arithmetic on natural numbers, followed by one rounding.
-/

namespace LogRendering

/-- A number in double precision, given by its 64 `bits`. -/
structure Binary64 where
  bits : UInt64
deriving DecidableEq

namespace Binary64

/-- The bits of `x` but the sign.  Magnitudes compare like the numbers that they stand for. -/
def magnitude (x : Binary64) : Nat :=
  x.bits.toNat % Nat.pow 2 63

/-- The sign bit of `x` is set. -/
def isNegative (x : Binary64) : Bool :=
  Nat.pow 2 63 ≤ x.bits.toNat

/-- The magnitude of the infinite numbers; larger magnitudes are not numbers. -/
def infinite : Nat :=
  0x7FF * Nat.pow 2 52

/-- The number is neither `infinite` nor undefined. -/
def IsFinite (x : Binary64) : Prop :=
  x.magnitude < infinite

instance (x : Binary64) : Decidable x.IsFinite :=
  inferInstanceAs (Decidable (x.magnitude < infinite))

/-- The bits stand for no number: their magnitude is above `infinite`. -/
def isNaN (x : Binary64) : Bool :=
  infinite < x.magnitude

/-- The number with the sign bit `negative` and the given `magnitude`. -/
def ofMagnitude (negative : Bool) (magnitude : Nat) : Binary64 :=
  ⟨UInt64.ofNat (if negative then Nat.pow 2 63 + magnitude else magnitude)⟩

/-- The integral significand of a finite magnitude. -/
def significand (magnitude : Nat) : Nat :=
  if magnitude / Nat.pow 2 52 = 0 then magnitude
  else Nat.pow 2 52 + magnitude % Nat.pow 2 52

/-- The exponent of the power of two by which the `significand` is multiplied, increased by
1074. -/
def scale (magnitude : Nat) : Nat :=
  magnitude / Nat.pow 2 52 - 1

/-- The numerator of a finite magnitude, over the denominator `2 ^ 1074`. -/
def numerator (magnitude : Nat) : Nat :=
  significand magnitude * Nat.pow 2 (scale magnitude)

/-- The quotient `n / d` rounded to the nearest natural number, a tie to the even. -/
def roundQuotient (n d : Nat) : Nat :=
  let q := n / d
  let r := n % d
  if d < 2 * r || (2 * r = d && q % 2 = 1) then q + 1 else q

/-- The scale at which `n / d`, given over `2 ^ 1074`, has a significand of 53 bits, or
zero if there is none. -/
def scaleOf (n d : Nat) : Nat :=
  let e := n.log2 - d.log2
  (if d * Nat.pow 2 e ≤ n then e else e - 1) - 52

/-- The magnitude nearest to `n / (d * 2 ^ 1074)`; a quotient too large for a finite magnitude is
`infinite`. -/
def roundScaled (n d : Nat) : Nat :=
  let s := scaleOf n d
  min infinite (s * Nat.pow 2 52 + roundQuotient n (d * Nat.pow 2 s))

/-- The magnitude nearest to the rational number `n / d`. -/
def roundRatio (n d : Nat) : Nat :=
  roundScaled (n * Nat.pow 2 1074) d

/-- The magnitude nearest to the product of the finite magnitudes `a` and `b`. -/
def mulMagnitude (a b : Nat) : Nat :=
  roundScaled (numerator a * numerator b) (Nat.pow 2 1074)

/-- The magnitude nearest to the quotient of the finite magnitudes `a` and `b`. -/
def divMagnitude (a b : Nat) : Nat :=
  roundScaled (numerator a * Nat.pow 2 1074) (numerator b)

/-- The magnitude nearest to `10 ^ k`. -/
def tenPower (k : Nat) : Nat :=
  roundRatio (Nat.pow 10 k) 1

/-- The number nearest to an unsigned number of 64 bits. -/
def ofUInt64 (n : UInt64) : Binary64 :=
  ofMagnitude false (roundRatio n.toNat 1)

end Binary64

end LogRendering
