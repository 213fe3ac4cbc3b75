import LogRendering.Number.Shortest

/-!
# Written numbers

The texts of integers and of double precision numbers.  A double precision number is
written with its shortest digits, in positional form or with an exponent; a `NumberStyle`
says which, and settles the details.
-/

namespace LogRendering

/-- The decimal digits of `n`, without leading zeros. -/
def decimalDigits (n : Nat) : List Char :=
  Nat.toDigits 10 n

/-- The text of a natural number. -/
def naturalText (n : Nat) : String :=
  String.ofList (decimalDigits n)

/-- The characters of an integer: its `decimalDigits`, after a minus sign if it is negative. -/
def integerDigits (n : Int) : List Char :=
  if n < 0 then '-' :: decimalDigits n.natAbs else decimalDigits n.natAbs

/-- The text of an integer, by `integerDigits`. -/
def integerText (n : Int) : String :=
  String.ofList (integerDigits n)

/-- How double precision numbers are written by `NumberStyle.text`. -/
structure NumberStyle where
  /-- The choice between two equally near shortest decimals. -/
  tie : Tie
  /-- The number with the given leading exponent is written in positional form. -/
  positional : Int → Bool
  /-- A whole number in positional form ends in a point and a zero. -/
  pointZero : Bool
  /-- A positive exponent has a plus sign. -/
  plusSign : Bool

namespace NumberStyle

/-- The digits of a decimal in positional form, with zeros before or after them as `d.exponent`
demands. -/
def positionalDigits (style : NumberStyle) (d : Decimal) : List Char :=
  let digits := d.digits
  if 0 ≤ d.exponent then
    digits ++ List.replicate d.exponent.toNat '0' ++ (if style.pointZero then ['.', '0'] else [])
  else
    let places := (-d.exponent).toNat
    if places < digits.length then
      digits.take (digits.length - places) ++ '.' :: digits.drop (digits.length - places)
    else
      '0' :: '.' :: (List.replicate (places - digits.length) '0' ++ digits)

/-- The digits of a decimal with one digit before the point, and the exponent `leading`. -/
def exponentDigits (style : NumberStyle) (d : Decimal) (leading : Int) : List Char :=
  let mantissa :=
    match d.digits with
    | [] => []
    | [digit] => [digit]
    | digit :: rest => digit :: '.' :: rest
  let sign := if 0 ≤ leading && style.plusSign then ['+'] else []
  mantissa ++ 'e' :: sign ++ integerDigits leading

/-- The characters of a decimal, in the form that `style.positional` chooses. -/
def decimalText (style : NumberStyle) (d : Decimal) : List Char :=
  let leading := (d.digits.length : Int) - 1 + d.exponent
  if style.positional leading then style.positionalDigits d
  else style.exponentDigits d leading

/-- The text of a double precision number: the sign, and the shortest decimal that reads back, or
`inf`; `NaN` for what is no number. -/
def text (style : NumberStyle) (x : Binary64) : String :=
  if x.isNaN then "NaN"
  else
    let sign := if x.isNegative then ['-'] else []
    let digits :=
      if x.IsFinite then style.decimalText (Shortest.ofMagnitude style.tie x.magnitude)
      else ['i', 'n', 'f']
    String.ofList (sign ++ digits)

end NumberStyle

end LogRendering
