import LogRendering.Number.Binary64
import Mathlib.Algebra.Order.Group.Nat

/-!
# Rounding to double precision

The magnitude nearest to a fraction depends on the value of the fraction only, and the
magnitude nearest to the value of a finite magnitude is that magnitude.
-/

namespace LogRendering.Binary64

/-! ### Rounded quotients -/

theorem roundQuotient_mul (n : Nat) {d c : Nat} (hc : 0 < c) :
  roundQuotient (n * c) (d * c) = roundQuotient n d
  := by
  have hdouble : 2 * (n % d * c) = 2 * (n % d) * c := by rw [Nat.mul_assoc]
  simp only [roundQuotient, Nat.mul_div_mul_right _ _ hc, Nat.mul_mod_mul_right, hdouble,
    Nat.mul_lt_mul_right hc, Nat.mul_left_inj hc.ne']

/-- A quotient that is the natural number `a` is not changed by rounding. -/
theorem roundQuotient_of_mul (a : Nat) {d : Nat} (hd : 0 < d) :
  roundQuotient (a * d) d = a
  := by
  have hne : ¬ 0 = d := hd.ne
  simp [roundQuotient, Nat.mul_div_cancel a hd, hne]

/-! ### Scales -/

theorem scaleOf_of_lt {n d : Nat} (h : n < d) :
  scaleOf n d = 0
  := by
  have hlog : n.log2 ≤ d.log2 := by
    by_cases hn : n = 0
    · rw [hn, Nat.log2_zero]
      exact Nat.zero_le _
    · rw [Nat.le_log2 (Nat.ne_zero_of_lt h)]
      exact (Nat.log2_self_le hn).trans h.le
  simp [scaleOf, Nat.sub_eq_zero_of_le hlog, Nat.not_le.mpr h]

/-- The scale `scaleOf n d` is found from the powers of two between which the quotient lies. -/
theorem scaleOf_eq {n d t : Nat} (hd : 0 < d) (hlow : d * Nat.pow 2 t ≤ n)
    (hhigh : n < d * Nat.pow 2 (t + 1)) :
  scaleOf n d = t - 52
  := by
  simp only [Nat.pow_eq] at hlow hhigh
  have hpositive : 0 < 2 ^ t := Nat.two_pow_pos t
  have hn : n ≠ 0 := (Nat.lt_of_lt_of_le (Nat.mul_pos hd hpositive) hlow).ne'
  have hlogd := Nat.log2_self_le hd.ne'
  have hlogd' := Nat.lt_log2_self (n := d)
  -- the difference of the logarithms is the exponent, or exceeds it by one
  have hle : d.log2 + t ≤ n.log2 := by
    rw [Nat.le_log2 hn, Nat.pow_add]
    exact (Nat.mul_le_mul_right _ hlogd).trans hlow
  have hlt : n.log2 < d.log2 + 1 + (t + 1) := by
    rw [Nat.log2_lt hn, Nat.pow_add]
    exact hhigh.trans_le (Nat.mul_le_mul_right _ hlogd'.le)
  unfold scaleOf
  obtain heq | heq : n.log2 - d.log2 = t ∨ n.log2 - d.log2 = t + 1 := by omega
  · simp only [heq, Nat.pow_eq, hlow, if_true]
  · simp only [heq, Nat.pow_eq, Nat.not_le.mpr hhigh, if_false, Nat.add_sub_cancel]

/-- A quotient of at least one lies between two powers of two. -/
theorem exists_between {n d : Nat} (hd : 0 < d) (h : d ≤ n) :
  ∃ t, d * Nat.pow 2 t ≤ n ∧ n < d * Nat.pow 2 (t + 1)
  := by
  have hquotient : n / d ≠ 0 := (Nat.div_pos h hd).ne'
  refine ⟨(n / d).log2, ?_, ?_⟩
  · have hle := Nat.log2_self_le hquotient
    rwa [Nat.le_div_iff_mul_le hd, Nat.mul_comm] at hle
  · have hlt := Nat.lt_log2_self (n := n / d)
    rwa [Nat.div_lt_iff_lt_mul hd, Nat.mul_comm] at hlt

theorem scaleOf_mul (n : Nat) {d c : Nat} (hd : 0 < d) (hc : 0 < c) :
  scaleOf (n * c) (d * c) = scaleOf n d
  := by
  by_cases h : n < d
  · rw [scaleOf_of_lt h, scaleOf_of_lt ((Nat.mul_lt_mul_right hc).mpr h)]
  · obtain ⟨t, hlow, hhigh⟩ := exists_between hd (Nat.le_of_not_lt h)
    rw [scaleOf_eq hd hlow hhigh]
    apply scaleOf_eq (Nat.mul_pos hd hc)
    · rw [Nat.mul_right_comm]
      exact Nat.mul_le_mul_right c hlow
    · rw [Nat.mul_right_comm]
      exact (Nat.mul_lt_mul_right hc).mpr hhigh

/-! ### Nearest magnitudes -/

theorem roundScaled_mul (n : Nat) {d c : Nat} (hd : 0 < d) (hc : 0 < c) :
  roundScaled (n * c) (d * c) = roundScaled n d
  := by
  simp only [roundScaled, scaleOf_mul n hd hc, Nat.mul_right_comm d c, roundQuotient_mul n hc]

theorem roundRatio_mul (n : Nat) {d c : Nat} (hd : 0 < d) (hc : 0 < c) :
  roundRatio (n * c) (d * c) = roundRatio n d
  := by
  rw [roundRatio, Nat.mul_right_comm, roundScaled_mul _ hd hc, roundRatio]

/-- Equal fractions have the same nearest magnitude by `roundRatio`. -/
theorem roundRatio_eq_of_mul_eq {n d n' d' : Nat} (hd : 0 < d) (hd' : 0 < d')
    (h : n * d' = n' * d) :
  roundRatio n d = roundRatio n' d'
  := by
  rw [← roundRatio_mul n hd hd', h, Nat.mul_comm d, roundRatio_mul n' hd' hd]

/-- The magnitude nearest to zero is zero. -/
theorem roundRatio_zero :
  roundRatio 0 1 = 0
  := by
  have hscaled : roundScaled 0 1 = 0 := by decide
  unfold roundRatio
  generalize Nat.pow 2 1074 = denominator
  rw [Nat.zero_mul, hscaled]

/-- The `significand` of a magnitude that is not among the least has 53 bits. -/
theorem significand_bounds {m : Nat} (h : m / Nat.pow 2 52 ≠ 0) :
  Nat.pow 2 52 ≤ significand m ∧ significand m < Nat.pow 2 53
  := by
  have hmod : m % Nat.pow 2 52 < Nat.pow 2 52 := Nat.mod_lt _ (by decide)
  rw [significand, if_neg h]
  constructor
  · exact Nat.le_add_right _ _
  · calc Nat.pow 2 52 + m % Nat.pow 2 52 < Nat.pow 2 52 + Nat.pow 2 52 :=
          Nat.add_lt_add_left hmod _
      _ = Nat.pow 2 53 := by decide

/-- The scale of the value of the magnitude `m` is `scale m`. -/
theorem scaleOf_numerator (m : Nat) {d : Nat} (hd : 0 < d) :
  scaleOf (numerator m * d) d = scale m
  := by
  by_cases h : m / Nat.pow 2 52 = 0
  · -- one of the least magnitudes is its own significand, with at most 52 bits
    have hm : m < Nat.pow 2 52 := (Nat.div_eq_zero_iff_lt (by decide)).mp h
    have hnumerator : numerator m = m := by simp [numerator, significand, scale, h]
    rw [hnumerator, scale, h]
    by_cases hzero : m = 0
    · rw [hzero, Nat.zero_mul, scaleOf_of_lt hd]
    · obtain ⟨t, hlow, hhigh⟩ := exists_between Nat.one_pos (Nat.one_le_iff_ne_zero.mpr hzero)
      rw [Nat.one_mul] at hlow hhigh
      have ht : t < 52 := (Nat.pow_lt_pow_iff_right (Nat.lt_succ_self 1)).mp (hlow.trans_lt hm)
      rw [scaleOf_eq hd (t := t)]
      · omega
      · rw [Nat.mul_comm d]
        exact Nat.mul_le_mul_right d hlow
      · rw [Nat.mul_comm d]
        exact (Nat.mul_lt_mul_right hd).mpr hhigh
  · obtain ⟨hlow, hhigh⟩ := significand_bounds h
    rw [scaleOf_eq hd (t := 52 + scale m)]
    · exact Nat.add_sub_cancel_left 52 _
    · rw [Nat.mul_comm d, numerator]
      apply Nat.mul_le_mul_right d
      simp only [Nat.pow_eq, Nat.pow_add] at hlow ⊢
      exact Nat.mul_le_mul_right _ hlow
    · rw [Nat.mul_comm d, numerator]
      apply (Nat.mul_lt_mul_right hd).mpr
      rw [Nat.add_right_comm]
      simp only [Nat.pow_eq, Nat.pow_add _ 53] at hhigh ⊢
      exact (Nat.mul_lt_mul_right (Nat.two_pow_pos _)).mpr hhigh

/-- A magnitude is its `scale` and its `significand`. -/
theorem scale_add_significand (m : Nat) :
  scale m * Nat.pow 2 52 + significand m = m
  := by
  unfold scale significand
  have hdivmod := Nat.div_add_mod m (Nat.pow 2 52)
  split
  next h => rw [h, Nat.zero_sub, Nat.zero_mul, Nat.zero_add]
  next h =>
    rw [← Nat.add_assoc, ← Nat.succ_mul, Nat.succ_eq_add_one,
      Nat.sub_add_cancel (Nat.one_le_iff_ne_zero.mpr h), Nat.mul_comm, hdivmod]

/-- The magnitude nearest to the value of the finite magnitude `m` is `m`. -/
theorem roundScaled_numerator {m d : Nat} (hm : m < infinite) (hd : 0 < d) :
  roundScaled (numerator m * d) d = m
  := by
  have hpower : 0 < Nat.pow 2 (scale m) := Nat.two_pow_pos _
  have hquotient : numerator m * d = significand m * (d * Nat.pow 2 (scale m)) := by
    rw [numerator, Nat.mul_assoc, Nat.mul_comm d]
  rw [roundScaled, scaleOf_numerator m hd, hquotient,
    roundQuotient_of_mul _ (Nat.mul_pos hd hpower), scale_add_significand]
  exact Nat.min_eq_right hm.le

/-- The magnitude nearest to the value of the finite magnitude `m`, as a fraction of `2 ^ 1074`,
is `m`. -/
theorem roundRatio_numerator {m : Nat} (hm : m < infinite) :
  roundRatio (numerator m) (Nat.pow 2 1074) = m
  := by
  apply roundScaled_numerator hm
  apply Nat.two_pow_pos

/-! ### Bounds -/

theorem roundQuotient_le {n d b : Nat} (h : n < d * b) :
  roundQuotient n d ≤ b
  := by
  have hquotient : n / d < b := Nat.div_lt_of_lt_mul h
  simp only [roundQuotient]
  split
  · exact hquotient
  · exact hquotient.le

/-- The scale of a bounded quotient is bounded, and leaves a significand of 53 bits at most. -/
theorem scaleOf_bounds {n d k : Nat} (hd : 0 < d) (h : n < d * Nat.pow 2 (53 + k)) :
  scaleOf n d ≤ k ∧ n < d * Nat.pow 2 (scaleOf n d) * Nat.pow 2 53
  := by
  by_cases hlt : n < d
  · rw [scaleOf_of_lt hlt]
    refine ⟨Nat.zero_le k, hlt.trans_le ?_⟩
    show d ≤ d * 1 * Nat.pow 2 53
    rw [Nat.mul_one]
    exact Nat.le_mul_of_pos_right d (Nat.two_pow_pos 53)
  · obtain ⟨t, hlow, hhigh⟩ := exists_between hd (Nat.le_of_not_lt hlt)
    have hpower : Nat.pow 2 t < Nat.pow 2 (53 + k) :=
      (Nat.mul_lt_mul_left hd).mp (hlow.trans_lt h)
    have ht : t < 53 + k := (Nat.pow_lt_pow_iff_right (Nat.lt_succ_self 1)).mp hpower
    rw [scaleOf_eq hd hlow hhigh]
    constructor
    · omega
    · apply hhigh.trans_le
      rw [Nat.mul_assoc]
      apply Nat.mul_le_mul_left d
      simp only [Nat.pow_eq, ← Nat.pow_add]
      exact Nat.pow_le_pow_right Nat.two_pos (by omega)

/-- The magnitude nearest to a bounded quotient is bounded. -/
theorem roundScaled_le {n d k : Nat} (hd : 0 < d) (h : n < d * Nat.pow 2 (53 + k)) :
  roundScaled n d ≤ k * Nat.pow 2 52 + Nat.pow 2 53
  := by
  obtain ⟨hscale, hsignificand⟩ := scaleOf_bounds hd h
  apply (Nat.min_le_right _ _).trans
  exact Nat.add_le_add (Nat.mul_le_mul_right _ hscale) (roundQuotient_le hsignificand)

theorem roundScaled_shifted_lt {n e shift : Nat} (h : n < Nat.pow 2 64)
    (hshift : shift = Nat.pow 2 e)
    (he : (11 + e) * Nat.pow 2 52 + Nat.pow 2 53 < infinite) :
  roundScaled (n * shift) 1 < infinite
  := by
  subst hshift
  refine lt_of_le_of_lt (roundScaled_le Nat.one_pos ?_) he
  rw [Nat.one_mul, ← Nat.add_assoc]
  simp only [Nat.pow_eq, Nat.pow_add _ (53 + 11)] at h ⊢
  exact (Nat.mul_lt_mul_right (Nat.two_pow_pos e)).mpr h

/-- The magnitude nearest to a natural number of 64 bits is finite. -/
theorem roundRatio_lt_infinite {n : Nat} (h : n < Nat.pow 2 64) :
  roundRatio n 1 < infinite
  := by
  apply roundScaled_shifted_lt h rfl
  decide

/-- The double precision number nearest to a natural number of 64 bits satisfies `IsFinite`. -/
theorem isFinite_ofUInt64 (n : UInt64) :
  (ofUInt64 n).IsFinite
  := by
  have hfinite := roundRatio_lt_infinite n.toNat_lt
  unfold IsFinite magnitude ofUInt64 ofMagnitude
  generalize roundRatio n.toNat 1 = m at hfinite ⊢
  have hsmall : m < 2 ^ 64 := hfinite.trans (by decide)
  rw [if_neg Bool.false_ne_true, UInt64.toNat_ofNat_of_lt' hsmall]
  exact (Nat.mod_le _ _).trans_lt hfinite

end LogRendering.Binary64
