import LogRendering.Number.Shortest
import LogRendering.Proofs.Number.Rounding

/-!
# Shortest decimals read back

The shortest decimal of a finite magnitude reads back as that magnitude.  Every decimal that
the search finds does so because it was tried, and the last grid that is visited holds the
number itself.
-/

namespace LogRendering

namespace Decimal

theorem denominator_pos (d : Decimal) :
  0 < d.denominator
  := Nat.pow_pos (by decide)

/-- The decimals `d` and `d'` are equal as fractions. -/
def SameValue (d d' : Decimal) : Prop :=
  d.numerator * d'.denominator = d'.numerator * d.denominator

theorem SameValue.symm {d d' : Decimal} (h : d.SameValue d') :
  d'.SameValue d
  := Eq.symm h

theorem SameValue.trans {d d' d'' : Decimal} (h : d.SameValue d') (h' : d'.SameValue d'') :
  d.SameValue d''
  := by
  apply Nat.eq_of_mul_eq_mul_right d'.denominator_pos
  calc d.numerator * d''.denominator * d'.denominator
      = d'.numerator * d.denominator * d''.denominator := by rw [Nat.mul_right_comm, h]
    _ = d'.numerator * d''.denominator * d.denominator := Nat.mul_right_comm _ _ _
    _ = d''.numerator * d'.denominator * d.denominator := by rw [h']
    _ = d''.numerator * d.denominator * d'.denominator := Nat.mul_right_comm _ _ _

/-- Decimals that satisfy `SameValue` read back as the same magnitude. -/
theorem ReadsBack.of_sameValue {magnitude : Nat} {d d' : Decimal} (hd : d.ReadsBack magnitude)
    (h : d'.SameValue d) :
  d'.ReadsBack magnitude
  := by
  rw [ReadsBack, Binary64.roundRatio_eq_of_mul_eq d'.denominator_pos d.denominator_pos h]
  exact hd

theorem readsBack_zero :
  ReadsBack 0 ⟨0, 0⟩
  := Binary64.roundRatio_zero

/-- A factor ten moves from the significand into the exponent. -/
theorem sameValue_of_mul_ten (significand : Nat) (exponent : Int) :
  SameValue ⟨significand, exponent + 1⟩ ⟨significand * 10, exponent⟩
  := by
  simp only [SameValue, numerator, denominator, Nat.pow_eq]
  by_cases h : 0 ≤ exponent
  · have hexponent : (exponent + 1).toNat = exponent.toNat + 1 := by omega
    have hzero : (-(exponent + 1)).toNat = (-exponent).toNat := by omega
    rw [hexponent, hzero, Nat.pow_succ, Nat.mul_comm (10 ^ _) 10, ← Nat.mul_assoc significand]
  · have hexponent : (-exponent).toNat = (-(exponent + 1)).toNat + 1 := by omega
    have hzero : (exponent + 1).toNat = exponent.toNat := by omega
    rw [hexponent, hzero, Nat.pow_succ, Nat.mul_right_comm significand 10, Nat.mul_assoc _ 10,
      Nat.mul_comm 10]

/-- A power of ten moves from the significand into the exponent. -/
theorem sameValue_of_mul_tenPower (significand : Nat) (exponent : Int) (k : Nat) :
  SameValue ⟨significand * Nat.pow 10 k, exponent⟩ ⟨significand, exponent + k⟩
  := by
  induction k generalizing exponent with
  | zero => simp [SameValue]
  | succ k ih =>
      have hpower : significand * Nat.pow 10 (k + 1) = significand * Nat.pow 10 k * 10 := by
        rw [Nat.pow_eq, Nat.pow_succ, Nat.mul_assoc, Nat.pow_eq]
      have hexponent : exponent + (k + 1 : Nat) = exponent + 1 + k := by omega
      rw [hpower, hexponent]
      exact (sameValue_of_mul_ten _ exponent).symm.trans (ih (exponent + 1))

theorem sameValue_stripZeros (fuel : Nat) (d : Decimal) :
  (d.stripZeros fuel).SameValue d
  := by
  induction fuel generalizing d with
  | zero => rfl
  | succ fuel ih =>
      rw [stripZeros]
      split
      next h =>
        apply (ih _).trans
        have hten : d.significand / 10 * 10 = d.significand :=
          Nat.div_mul_cancel (Nat.dvd_of_mod_eq_zero h.2)
        have hsame := sameValue_of_mul_ten (d.significand / 10) d.exponent
        rwa [hten] at hsame
      next => rfl

end Decimal

namespace Shortest

/-- A decimal that `onGrid?` finds reads back. -/
theorem readsBack_onGrid? {tie : Tie} {magnitude n d : Nat} {k : Int} {decimal : Decimal}
    (h : onGrid? tie magnitude n d k = some decimal) :
  decimal.ReadsBack magnitude
  := by
  unfold onGrid? at h
  obtain ⟨low, r, d'⟩ := floorOn k n d
  dsimp only at h
  split at h
  · split at h
    next habove =>
      obtain rfl := Option.some.inj h
      exact habove
    next =>
      split at h
      next hbelow =>
        obtain rfl := Option.some.inj h
        exact hbelow
      next => cases h
  · split at h
    next hbelow =>
      obtain rfl := Option.some.inj h
      exact hbelow
    next =>
      split at h
      next habove =>
        obtain rfl := Option.some.inj h
        exact habove
      next => cases h

/-- What `search` finds reads back, if the lower neighbour on the last grid does. -/
theorem readsBack_search {tie : Tie} {magnitude n d : Nat} (fuel : Nat) {k : Int}
    (h : Decimal.ReadsBack magnitude ⟨(floorOn (k - fuel) n d).1, k - fuel⟩) :
  (search tie magnitude n d fuel k).ReadsBack magnitude
  := by
  induction fuel generalizing k with
  | zero =>
      rw [search]
      rwa [Int.natCast_zero, Int.sub_zero] at h
  | succ fuel ih =>
      rw [search]
      cases hgrid : onGrid? tie magnitude n d k with
      | some decimal => exact readsBack_onGrid? hgrid
      | none =>
          apply ih
          have hk : k - 1 - (fuel : Int) = k - (fuel + 1 : Nat) := by omega
          rw [hk]
          exact h

/-- The leading digit of a fraction over `2 ^ e` stands before the place after the `e`th. -/
theorem neg_le_leadingExponent (n e : Nat) (he : 0 < e) :
  -(e : Int) ≤ leadingExponent n (Nat.pow 2 e)
  := by
  unfold leadingExponent
  split
  next => omega
  next =>
    have hpower : Nat.pow 2 e ≤ Nat.pow 10 e := Nat.pow_le_pow_left (by decide) e
    have hpositive : 0 < Nat.pow 2 e := Nat.two_pow_pos e
    have hquotient : (Nat.pow 2 e - 1) / n < Nat.pow 10 e :=
      calc (Nat.pow 2 e - 1) / n ≤ Nat.pow 2 e - 1 := Nat.div_le_self _ _
        _ < Nat.pow 2 e := Nat.sub_one_lt_of_lt hpositive
        _ ≤ Nat.pow 10 e := hpower
    have hlength := (Nat.length_toDigits_le_iff (by decide) he).mpr hquotient
    omega

/-- A fraction over `2 ^ e` is a multiple of `10 ^ -e`. -/
theorem floorOn_neg (n e : Nat) :
  (floorOn (-(e : Int)) n (Nat.pow 2 e)).1 = n * Nat.pow 5 e
  := by
  have hten : n * Nat.pow 10 e = n * Nat.pow 5 e * Nat.pow 2 e := by
    simp only [Nat.pow_eq]
    rw [Nat.mul_assoc, ← Nat.mul_pow]
  have hexponent : (-(-(e : Int))).toNat = e := by omega
  have hzero : (-(e : Int)).toNat = 0 := by omega
  simp only [floorOn, hexponent, hzero]
  rw [hten, show Nat.pow 10 0 = 1 from rfl, Nat.mul_one]
  exact Nat.mul_div_cancel _ (Nat.two_pow_pos e)

/-- The fraction `n / 2 ^ e` on its own grid reads back as what it is nearest to. -/
theorem readsBack_ownGrid {magnitude n e : Nat}
    (h : Binary64.roundRatio n (Nat.pow 2 e) = magnitude) :
  Decimal.ReadsBack magnitude ⟨(floorOn (-(e : Int)) n (Nat.pow 2 e)).1, -(e : Int)⟩
  := by
  rw [floorOn_neg, Decimal.ReadsBack, ← h]
  apply Binary64.roundRatio_eq_of_mul_eq (Decimal.denominator_pos _) (Nat.two_pow_pos e)
  have hexponent : (-(-(e : Int))).toNat = e := by omega
  have hzero : (-(e : Int)).toNat = 0 := by omega
  simp only [Decimal.numerator, Decimal.denominator, hexponent, hzero, Nat.pow_eq, Nat.pow_zero,
    Nat.mul_one]
  rw [Nat.mul_assoc, ← Nat.mul_pow]

/-- What is found for a fraction over `2 ^ e` reads back as what the fraction is nearest to. -/
theorem readsBack_search_ownGrid (tie : Tie) {magnitude n e : Nat} (he : 0 < e)
    (h : Binary64.roundRatio n (Nat.pow 2 e) = magnitude) :
  (search tie magnitude n (Nat.pow 2 e) (leadingExponent n (Nat.pow 2 e) + e).toNat
    (leadingExponent n (Nat.pow 2 e))).ReadsBack magnitude
  := by
  apply readsBack_search
  have hleading := neg_le_leadingExponent n e he
  -- the last grid is that of the powers of two in the denominator
  have hlast : leadingExponent n (Nat.pow 2 e)
      - ((leadingExponent n (Nat.pow 2 e) + e).toNat : Int) = -(e : Int) := by
    omega
  rw [hlast]
  apply readsBack_ownGrid h

/-- The shortest decimal of a finite `magnitude` reads back as that magnitude. -/
theorem readsBack_ofMagnitude (tie : Tie) {magnitude : Nat} (h : magnitude < Binary64.infinite) :
  (ofMagnitude tie magnitude).ReadsBack magnitude
  := by
  unfold ofMagnitude
  split
  next hzero =>
    rw [hzero]
    exact Decimal.readsBack_zero
  next =>
    have hfound := readsBack_search_ownGrid tie (by decide) (Binary64.roundRatio_numerator h)
    exact hfound.of_sameValue (Decimal.sameValue_stripZeros _ _)

/-- The shortest decimal of zero has no exponent. -/
theorem exponent_ofMagnitude_eq_zero (tie : Tie) {magnitude : Nat}
    (h : magnitude < Binary64.infinite) (hzero : (ofMagnitude tie magnitude).significand = 0) :
  (ofMagnitude tie magnitude).exponent = 0
  := by
  have hsame : (ofMagnitude tie magnitude).SameValue ⟨0, 0⟩ := by
    simp [Decimal.SameValue, Decimal.numerator, hzero]
  have hread := Decimal.readsBack_zero.of_sameValue hsame
  have hmagnitude : magnitude = 0 := (readsBack_ofMagnitude tie h).symm.trans hread
  rw [hmagnitude]
  rfl

end Shortest

end LogRendering
