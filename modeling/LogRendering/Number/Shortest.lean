import LogRendering.Number.Binary64

/-!
# Shortest decimals

The decimal with the fewest digits among those that read back as a given double
precision number; of two such decimals with equally many digits, the nearer one.  The
search visits the grids of the multiples of a power of ten, from the coarsest to the
finest, and looks on each at the two neighbours of the number.  It ends at the latest on
the grid to which the number itself belongs.
-/

namespace LogRendering

/-- The decimal number `significand * 10 ^ exponent`. -/
structure Decimal where
  significand : Nat
  exponent : Int
deriving DecidableEq

/-- Which of two equally near neighbours on a grid is chosen: the `upper` one, or the `even`
one. -/
inductive Tie where
  | upper
  | even
deriving DecidableEq

namespace Decimal

/-- The numerator of the decimal as a fraction. -/
def numerator (d : Decimal) : Nat :=
  d.significand * Nat.pow 10 d.exponent.toNat

/-- The denominator of the decimal as a fraction. -/
def denominator (d : Decimal) : Nat :=
  Nat.pow 10 (-d.exponent).toNat

/-- The magnitude nearest to the decimal is `magnitude`. -/
def ReadsBack (magnitude : Nat) (d : Decimal) : Prop :=
  Binary64.roundRatio d.numerator d.denominator = magnitude

instance (magnitude : Nat) (d : Decimal) : Decidable (d.ReadsBack magnitude) :=
  inferInstanceAs (Decidable (_ = _))

/-- The digits of `d.significand`. -/
def digits (d : Decimal) : List Char :=
  Nat.toDigits 10 d.significand

/-- Removes up to `fuel` zeros from the end of the significand. -/
def stripZeros : Nat → Decimal → Decimal
  | 0, d => d
  | fuel + 1, d =>
    if d.significand ≠ 0 ∧ d.significand % 10 = 0 then
      stripZeros fuel ⟨d.significand / 10, d.exponent + 1⟩
    else d

end Decimal

namespace Shortest

/-- The exponent of the power of ten that begins the decimal form of the positive
fraction `n / d`. -/
def leadingExponent (n d : Nat) : Int :=
  if d ≤ n then ((Nat.toDigits 10 (n / d)).length : Int) - 1
  else -((Nat.toDigits 10 ((d - 1) / n)).length : Int)

/-- The greatest multiple of `10 ^ k` that is at most `n / d`, and the remainder as a
fraction of `10 ^ k`. -/
def floorOn (k : Int) (n d : Nat) : Nat × Nat × Nat :=
  let n' := n * Nat.pow 10 (-k).toNat
  let d' := d * Nat.pow 10 k.toNat
  (n' / d', n' % d', d')

/-- Whether the upper of two neighbours is chosen, where the number lies `r / d` above
the lower neighbour `low`. -/
def choosesUpper (tie : Tie) (low r d : Nat) : Bool :=
  if 2 * r = d then
    match tie with
    | .upper => true
    | .even => low % 2 = 1
  else d < 2 * r

/-- The neighbour of `n / d` on the grid of the multiples of `10 ^ k` that reads back as
`magnitude`, if there is one. -/
def onGrid? (tie : Tie) (magnitude n d : Nat) (k : Int) : Option Decimal :=
  let (low, r, d') := floorOn k n d
  let below : Decimal := ⟨low, k⟩
  let above : Decimal := ⟨low + 1, k⟩
  if choosesUpper tie low r d' then
    if above.ReadsBack magnitude then some above
    else if below.ReadsBack magnitude then some below
    else none
  else if below.ReadsBack magnitude then some below
  else if above.ReadsBack magnitude then some above
  else none

/-- The first neighbour that reads back on the grids of `10 ^ k`, `10 ^ (k - 1)` and so
on; after `fuel` grids the lower neighbour on the next. -/
def search (tie : Tie) (magnitude n d : Nat) : Nat → Int → Decimal
  | 0, k => ⟨(floorOn k n d).1, k⟩
  | fuel + 1, k =>
    match onGrid? tie magnitude n d k with
    | some decimal => decimal
    | none => search tie magnitude n d fuel (k - 1)

/-- The shortest decimal that `ReadsBack` as the finite `magnitude`, without zeros at its end. -/
def ofMagnitude (tie : Tie) (magnitude : Nat) : Decimal :=
  if magnitude = 0 then ⟨0, 0⟩
  else
    let n := Binary64.numerator magnitude
    let d := Nat.pow 2 1074
    let k := leadingExponent n d
    let found := search tie magnitude n d (k + 1074).toNat k
    found.stripZeros found.significand

end Shortest

end LogRendering
