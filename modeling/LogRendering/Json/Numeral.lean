import LogRendering.Json.Cursor
import LogRendering.Json.Value

/-!
# Reading numbers

A number without fraction and exponent is an integer if it fits into 64 bits, with or
without sign.  Every other number is one in double precision: of its digits the first
ones are taken, as many as fit into 64 bits, and their value is multiplied or divided by
a power of ten.  Each of these steps is rounded, so that the result may differ from the
number nearest to the text in its last place.
-/

namespace LogRendering.Json.Reader

/-- The value of a decimal digit `c`. -/
def digitValue (c : Char) : Nat :=
  c.toNat - '0'.toNat

/-- The number `start` with further digits appended, as long as it does not exceed
`bound`, and the digits that are left over. -/
def accumulate (bound : Nat) (start : Nat) : List Char → Nat × List Char
  | [] => (start, [])
  | d :: rest =>
    let next := start * 10 + digitValue d
    if bound < next then (start, d :: rest) else accumulate bound next rest

/-- The greatest significand that `accumulate` keeps. -/
def significandBound : Nat :=
  Nat.pow 2 64 - 1

/-- The greatest exponent that `accumulate` keeps. -/
def exponentBound : Nat :=
  Nat.pow 2 31 - 1

/-- The magnitude `m` times `10 ^ e`, multiplied or divided by powers of ten up to
`10 ^ 308`, or nothing if the product is infinite. -/
def scaleByTen (m : Nat) (e : Int) : Option Nat :=
  if 0 ≤ e then
    if e ≤ 308 then
      let product := Binary64.mulMagnitude m (Binary64.tenPower e.toNat)
      if product = Binary64.infinite then none else some product
    else if m = 0 then some 0
    else none
  else if -308 ≤ e then some (Binary64.divMagnitude m (Binary64.tenPower (-e).toNat))
  else if m = 0 then some 0
  else scaleByTen (Binary64.divMagnitude m (Binary64.tenPower 308)) (e + 308)
termination_by (-e).toNat

/-- The number in double precision with the given `magnitude`, or the flaw `numberOutOfRange`. -/
def doubleOf (negative : Bool) (magnitude : Nat) : Reader Number :=
  match Number.ofBinary64? (Binary64.ofMagnitude negative magnitude) with
  | some n => pure n
  | none => fail .numberOutOfRange

/-- The number in double precision with the given significand and exponent, by `scaleByTen`. -/
def doubleOfParts (negative : Bool) (significand : Nat) (exponent : Int) : Reader Number :=
  match scaleByTen (Binary64.roundRatio significand 1) exponent with
  | some magnitude => doubleOf negative magnitude
  | none => fail .numberOutOfRange

/-- The number with the exponent at the cursor, read from after its letter `e` or `E`. -/
def exponentPart (negative : Bool) (significand : Nat) (exponent : Int) :
    Reader Number := do
  let isPositive ←
    match ← peek with
    | some '+' => do skip; pure true
    | some '-' => do skip; pure false
    | _ => pure true
  let before ← get
  let digits ← takeWhile Char.isDigit
  if digits.isEmpty then
    match ← peek with
    | none => fail .endInValue
    | some _ => failAhead .invalidNumber
  else
    let (value, left) := accumulate exponentBound 0 digits
    if left.isEmpty then
      doubleOfParts negative significand (if isPositive then exponent + value else exponent - value)
    else if significand ≠ 0 && isPositive then do
      set before
      let _ ← (digits.take (digits.length - left.length + 1)).mapM fun _ => skip
      fail .numberOutOfRange
    else doubleOf negative 0

/-- The number with the exponent at the cursor, if there is one, by `exponentPart`. -/
def exponentOrEnd (negative : Bool) (significand : Nat) (exponent : Int) :
    Reader Number := do
  match ← peek with
  | some 'e' | some 'E' => do
    skip
    exponentPart negative significand exponent
  | _ => doubleOfParts negative significand exponent

/-- The number with the fraction at the cursor, read from after the point.  Digits that
`accumulate` leaves over do not count. -/
def fractionPart (negative : Bool) (significand : Nat) (exponent : Int) :
    Reader Number := do
  let digits ← takeWhile Char.isDigit
  if digits.isEmpty then
    match ← peek with
    | none => failAhead .endInValue
    | some _ => failAhead .invalidNumber
  else
    let (significand, left) := accumulate significandBound significand digits
    exponentOrEnd negative significand (exponent - (digits.length - left.length : Nat))

/-- The integer with the given sign and magnitude; in double precision if it does not
fit, and also if it is a negative zero. -/
def integerOf (negative : Bool) (magnitude : Nat) : Reader Number :=
  if negative then
    if 0 < magnitude && magnitude ≤ Nat.pow 2 63 then
      pure (Number.ofInt64 (Int64.ofInt (-(magnitude : Int))))
    else doubleOf true (Binary64.roundRatio magnitude 1)
  else pure (.natural magnitude.toUInt64)

/-- The digits before the point: a single zero, or digits that do not begin with one. -/
def integerPart : Reader (List Char) := do
  match ← peek with
  | none => fail .endInValue
  | some '0' => do
    skip
    match ← peek with
    | some c => if c.isDigit then failAhead .invalidNumber else return ['0']
    | none => return ['0']
  | some c => if c.isDigit then takeWhile Char.isDigit else failAhead .invalidNumber

/-- The number at the cursor, read from after its sign. -/
def number (negative : Bool) : Reader Number := do
  let digits ← integerPart
  let (significand, left) := accumulate significandBound 0 digits
  match ← peek with
  | some '.' => do
    skip
    fractionPart negative significand left.length
  | some 'e' | some 'E' => do
    skip
    exponentPart negative significand left.length
  | _ =>
    if left.isEmpty then integerOf negative significand
    else doubleOfParts negative significand left.length

/-- Moves over the exponent at the cursor, from after its letter; `exponentPart` reads it. -/
def skipExponent : Reader Unit := do
  match ← peek with
  | some '+' | some '-' => skip
  | _ => pure ()
  let digits ← takeWhile Char.isDigit
  if digits.isEmpty then failAhead .invalidNumber else pure ()

/-- Moves over the number at the cursor, from after its sign; `number` reads it. -/
def skipNumber : Reader Unit := do
  match ← peek with
  | some '0' => do
    skip
    match ← peek with
    | some c => if c.isDigit then failAhead .invalidNumber else pure ()
    | none => pure ()
  | some c =>
    if c.isDigit then do
      let _ ← takeWhile Char.isDigit
    else failAhead .invalidNumber
  | none => fail .invalidNumber
  match ← peek with
  | some '.' => do
    skip
    let digits ← takeWhile Char.isDigit
    if digits.isEmpty then failAhead .invalidNumber
    match ← peek with
    | some 'e' | some 'E' => do
      skip
      skipExponent
    | _ => pure ()
  | some 'e' | some 'E' => do
    skip
    skipExponent
  | _ => pure ()

end LogRendering.Json.Reader
