import PointSymbol.Proofs.Binary.Exact

/-!
# Rounding as a function of values

Larger rationals have no smaller nearest numbers, so the value of a nearest number is determined.
Opposite rationals have opposite nearest numbers, and infinity is nearest from half a step past the
largest finite number on. Sums, differences and halves of finite numbers are nearest to the exact
ones.
-/

namespace PointSymbol.Binary
variable {f : Format} {x y : Binary f} {p q : ℚ}

theorem signedUnits_neg (x : Binary f) : x.neg.signedUnits = -x.signedUnits := by
  obtain ⟨negative, code⟩ := x
  cases negative with
  | false => rfl
  | true => simp [neg, signedUnits, units]

theorem toRat_neg (x : Binary f) : x.neg.toRat = -x.toRat := by
  rw [toRat_eq_signedUnits, toRat_eq_signedUnits, signedUnits_neg, Int.cast_neg, neg_div]

theorem abs_toRat_neg_sub_neg (x : Binary f) (q : ℚ) : |x.neg.toRat - -q| = |x.toRat - q| := by
  rw [toRat_neg, ← neg_sub', abs_neg]

theorem IsNearest.neg (h : x.IsNearest q) : x.neg.IsNearest (-q) := by
  have mirror (y : Binary f) : |y.toRat - -q| = |y.neg.toRat - q| := by
    rw [toRat_neg, ← neg_add', abs_neg, sub_neg_eq_add]
  refine ⟨h.isNaN, fun y hy => ?_, fun y hy hne heq => ?_⟩
  · rw [abs_toRat_neg_sub_neg, mirror]
    exact h.abs_sub_le y.neg hy
  · rw [abs_toRat_neg_sub_neg, mirror] at heq
    apply h.even_of_tie y.neg hy _ heq
    intro hvalue
    rw [toRat_neg, neg_eq_iff_eq_neg] at hvalue
    exact hne (hvalue.trans (toRat_neg x).symm)

/-! ## Order -/

theorem exists_signedCode {n : ℤ} (h : n.natAbs ≤ f.infinity) :
    ∃ z : Binary f, z.isNaN = false ∧ z.signedCode = n := by
  refine ⟨⟨decide (n < 0), n.natAbs, h.trans_lt f.infinity_lt⟩, isNaN_eq_false_iff.mpr h, ?_⟩
  by_cases hn : n < 0
  · simp only [signedCode, hn, decide_true, if_true]
    omega
  · simp only [signedCode, hn, decide_false, Bool.false_eq_true, if_false]
    omega

theorem natAbs_signedCode (x : Binary f) : x.signedCode.natAbs = x.code := by
  unfold signedCode
  split <;> simp

/-- Two numbers with even codes are not next to each other. -/
theorem exists_between (hx : x.isNaN = false) (hy : y.isNaN = false) (hxcode : (x.code : ℕ) % 2 = 0)
    (hycode : (y.code : ℕ) % 2 = 0) (h : x.toRat < y.toRat) :
    ∃ z : Binary f, z.isNaN = false ∧ x.toRat < z.toRat ∧ z.toRat < y.toRat := by
  have hxabs := natAbs_signedCode x
  have hyabs := natAbs_signedCode y
  have hxle := isNaN_eq_false_iff.mp hx
  have hyle := isNaN_eq_false_iff.mp hy
  rw [← not_le, toRat_le_toRat, not_le] at h
  obtain ⟨z, hz, hcode⟩ := exists_signedCode (f := f) (n := x.signedCode + 1) (by omega)
  refine ⟨z, hz, ?_, ?_⟩
  · rw [← not_le, toRat_le_toRat]
    omega
  · rw [← not_le, toRat_le_toRat]
    omega

/-- Rounding keeps the order. If it did not, both rationals would be the midpoint of two numbers,
each with an even code, and a number between these would be nearer. -/
theorem IsNearest.mono (hx : x.IsNearest p) (hy : y.IsNearest q) (h : p ≤ q) :
    x.toRat ≤ y.toRat := by
  by_contra hlt
  rw [not_le] at hlt
  have hlow := (abs_sub_le_abs_sub_iff hlt).mp (hx.abs_sub_le y hy.isNaN)
  have hhigh := (abs_sub_le_abs_sub_iff' hlt).mp (hy.abs_sub_le x hx.isNaN)
  obtain rfl : p = q := by linarith
  have htie : |y.toRat - p| = |x.toRat - p| := (abs_sub_eq_abs_sub_iff hlt).mpr (by linarith)
  obtain ⟨z, hz, hyz, hzx⟩ := exists_between hy.isNaN hx.isNaN
    (hy.even_of_tie x hx.isNaN hlt.ne' htie) (hx.even_of_tie y hy.isNaN hlt.ne htie.symm) hlt
  have hmid := (abs_sub_le_abs_sub_iff' hyz).mp (hy.abs_sub_le z hz)
  linarith

/-- There is only one nearest value. -/
theorem IsNearest.toRat_eq (hx : x.IsNearest q) (hy : y.IsNearest q) : x.toRat = y.toRat :=
  le_antisymm (hx.mono hy le_rfl) (hy.mono hx le_rfl)

/-! The same in the order of the numbers. -/

theorem IsNearest.beq (hx : x.IsNearest q) (hy : y.IsNearest q) : x == y :=
  (beq_iff_toRat_eq hx.isNaN hy.isNaN).mpr (hx.toRat_eq hy)

theorem IsNearest.le (h : x.IsNearest q) (hy : y.isNaN = false) (hq : q ≤ y.toRat) : x ≤ y :=
  le_iff_toRat_le.mpr ⟨h.isNaN, hy, h.toRat_le hy hq⟩

theorem IsNearest.ge (h : x.IsNearest q) (hy : y.isNaN = false) (hq : y.toRat ≤ q) : y ≤ x :=
  le_iff_toRat_le.mpr ⟨hy, h.isNaN, h.le_toRat hy hq⟩

/-! ## Comparison with zero -/

theorem zero_spec : (0 : Binary f).isNaN = false ∧ (0 : Binary f).toRat = 0 := by
  obtain ⟨hfinite, hvalue⟩ := ofNat_spec (f := f) (Nat.zero_le _) (Nat.two_pow_pos _)
  rw [Nat.cast_zero] at hvalue
  exact ⟨isNaN_of_isFinite hfinite, hvalue⟩

theorem nonneg_iff : 0 ≤ x ↔ x.isNaN = false ∧ 0 ≤ x.toRat := by
  obtain ⟨hzero, hvalue⟩ := zero_spec (f := f)
  rw [le_iff_toRat_le, hvalue]
  exact and_iff_right hzero

theorem nonpos_iff : x ≤ 0 ↔ x.isNaN = false ∧ x.toRat ≤ 0 := by
  obtain ⟨hzero, hvalue⟩ := zero_spec (f := f)
  rw [le_iff_toRat_le, hvalue, hzero]
  simp

theorem IsNearest.nonneg (h : x.IsNearest q) (hq : 0 ≤ q) : 0 ≤ x.toRat := by
  obtain ⟨hzero, hvalue⟩ := zero_spec (f := f)
  rw [← hvalue] at hq ⊢
  exact h.le_toRat hzero hq

theorem IsNearest.nonpos (h : x.IsNearest q) (hq : q ≤ 0) : x.toRat ≤ 0 := by
  have hneg := h.neg.nonneg (neg_nonneg.mpr hq)
  rwa [toRat_neg, neg_nonneg] at hneg

/-! ## Overflow -/

/-- The midpoint between the largest finite magnitude and infinity. -/
def Format.overflow (f : Format) : ℚ :=
  (f.units (f.infinity - 1) + f.units f.infinity) / 2 ^ (f.scale + 1)

theorem isInfinite_iff : x.isInfinite ↔ (x.code : ℕ) = f.infinity := by
  rw [isInfinite, beq_iff_eq]

theorem toRat_eq_iff_signedCode_eq : x.toRat = y.toRat ↔ x.signedCode = y.signedCode := by
  rw [le_antisymm_iff, toRat_le_toRat, toRat_le_toRat, ← le_antisymm_iff]

/-- The largest finite number is the last one before infinity. -/
theorem exists_largest (f : Format) : ∃ m : Binary f, m.isNaN = false ∧
    m.signedCode = f.infinity - 1 ∧ m.toRat < (infinity false : Binary f).toRat ∧
    m.toRat + (infinity false : Binary f).toRat = 2 * f.overflow := by
  have htwo := f.two_le_infinity
  have hlt : f.infinity - 1 < f.infinity := by omega
  let m : Binary f := ⟨false, f.infinity - 1, hlt.trans f.infinity_lt⟩
  have hcode : m.signedCode = f.infinity - 1 := Int.natCast_sub (by omega)
  have hinfinity : (infinity false : Binary f).signedCode = f.infinity := rfl
  have hm : m.toRat = f.units (f.infinity - 1) / 2 ^ f.scale := rfl
  have hvalue : (infinity false : Binary f).toRat = f.units f.infinity / 2 ^ f.scale := rfl
  refine ⟨m, isNaN_eq_false_iff.mpr hlt.le, hcode, ?_, ?_⟩
  · rw [← not_le, toRat_le_toRat]
    omega
  · rw [hm, hvalue, Format.overflow, pow_succ]
    field_simp

theorem IsNearest.isInfinite_of_le (h : x.IsNearest q) (hq : f.overflow ≤ q) : x.isInfinite := by
  by_contra hfinite
  obtain ⟨m, hm, hcode, hlt, hmid⟩ := exists_largest f
  have hinfinity : (infinity false : Binary f).isNaN = false := isNaN_eq_false_iff.mpr le_rfl
  have hxcode := isNaN_eq_false_iff.mp h.isNaN
  have hxabs := natAbs_signedCode x
  have htwo := f.two_le_infinity
  have hparity := f.infinity_mod_two
  rw [isInfinite_iff] at hfinite
  have hle : x.toRat ≤ m.toRat := by
    rw [toRat_le_toRat]
    omega
  have hx := (abs_sub_le_abs_sub_iff' (hle.trans_lt hlt)).mp (h.abs_sub_le _ hinfinity)
  have heq : x.toRat = m.toRat := by linarith
  have heven := h.even_of_tie _ hinfinity (hle.trans_lt hlt).ne'
    ((abs_sub_eq_abs_sub_iff (hle.trans_lt hlt)).mpr (by linarith))
  rw [toRat_eq_iff_signedCode_eq] at heq
  omega

theorem IsNearest.overflow_le (h : x.IsNearest q) (hx : x.isInfinite) (hsign : x.negative = false) :
    f.overflow ≤ q := by
  obtain ⟨m, hm, -, hlt, hmid⟩ := exists_largest f
  rw [isInfinite_iff] at hx
  have hvalue : x.toRat = (infinity false : Binary f).toRat := by
    rw [toRat_eq_iff_signedCode_eq, signedCode, hsign, hx]
    rfl
  rw [← hvalue] at hlt hmid
  have hle := (abs_sub_le_abs_sub_iff hlt).mp (h.abs_sub_le m hm)
  linarith

/-- Rounding overflows from the midpoint on. -/
theorem IsNearest.isInfinite_iff (h : x.IsNearest q) : x.isInfinite ↔ f.overflow ≤ |q| := by
  constructor
  · intro hx
    cases hsign : x.negative with
    | false => exact (h.overflow_le hx hsign).trans (le_abs_self q)
    | true =>
      have hneg : x.neg.negative = !x.negative := rfl
      rw [hsign] at hneg
      exact (h.neg.overflow_le hx hneg).trans (neg_le_abs q)
  · intro hq
    rcases le_abs.mp hq with hq | hq
    · exact h.isInfinite_of_le hq
    · exact h.neg.isInfinite_of_le hq

theorem IsNearest.isFinite (hx : x.IsNearest q) (hy : y.IsNearest q) (h : y.isFinite) :
    x.isFinite := by
  by_contra hfinite
  have hinfinite := isInfinite_of_not_isFinite (Bool.eq_false_of_not_eq_true hfinite) hx.isNaN
  rw [hx.isInfinite_iff, ← hy.isInfinite_iff, isInfinite_of_isFinite h] at hinfinite
  cases hinfinite

/-! ## Errors -/

theorem abs_floor_add_half_sub_le (hq : 0 ≤ q) : |(⌊q + 1 / 2⌋₊ : ℚ) - q| ≤ 1 / 2 := by
  have hle : (⌊q + 1 / 2⌋₊ : ℚ) ≤ q + 1 / 2 := Nat.floor_le (by linarith)
  have hlt : q + 1 / 2 < ⌊q + 1 / 2⌋₊ + 1 := Nat.lt_floor_add_one _
  exact abs_le.mpr ⟨by linarith, by linarith⟩

variable {n k : ℕ}

/-- Up to `n`, the multiples of `2 ^ (-k)` bound the error of rounding. -/
theorem IsNearest.abs_sub_le_of_le (h : x.IsNearest q) (hq : 0 ≤ q) (hqn : q ≤ n)
    (hk : k ≤ f.scale) (hn : n * 2 ^ k ≤ 2 * 2 ^ f.fraction) (hlt : n < 2 ^ 2 ^ (f.exponent - 1)) :
    |x.toRat - q| ≤ 1 / 2 ^ (k + 1) := by
  have hpos : (0 : ℚ) < 2 ^ k := by positivity
  have hfloor := abs_floor_add_half_sub_le (q := q * 2 ^ k) (by positivity)
  have hm : ⌊q * 2 ^ k + 1 / 2⌋₊ ≤ n * 2 ^ k := by
    rw [← Nat.lt_succ_iff, Nat.floor_lt (by positivity)]
    have hle : q * 2 ^ k ≤ n * 2 ^ k := mul_le_mul_of_nonneg_right hqn hpos.le
    push_cast
    linarith
  generalize ⌊q * 2 ^ k + 1 / 2⌋₊ = m at hfloor hm
  obtain ⟨y, -, hfinite, hvalue⟩ := exists_toRat_eq_div (f := f) (m := m) hk (hm.trans hn)
    (hm.trans_lt (Nat.mul_lt_mul_of_pos_right hlt (Nat.two_pow_pos k)))
  calc |x.toRat - q| ≤ |y.toRat - q| := h.abs_sub_le y (isNaN_of_isFinite hfinite)
    _ = |m - q * 2 ^ k| / 2 ^ k := by
      rw [hvalue, ← abs_of_pos hpos, ← abs_div, abs_of_pos hpos, sub_div,
        mul_div_cancel_right₀ _ hpos.ne']
    _ ≤ 1 / 2 / 2 ^ k := div_le_div_of_nonneg_right hfloor hpos.le
    _ = 1 / 2 ^ (k + 1) := by rw [div_div, pow_succ']

/-! ## Sums -/

theorem isNearest_add (hx : x.isFinite) (hy : y.isFinite) :
    (x + y).IsNearest (x.toRat + y.toRat) := by
  have hsum : x.toRat + y.toRat = ((x.signedUnits + y.signedUnits : ℤ) : ℚ) / 2 ^ f.scale := by
    rw [toRat_eq_signedUnits, toRat_eq_signedUnits, Int.cast_add, add_div]
  rw [add_of_isFinite hx hy, hsum]
  generalize x.signedUnits + y.signedUnits = n
  generalize hsign : (if n = 0 then _ else _ : Bool) = negative
  have hvalue : (n : ℚ) / 2 ^ f.scale =
      signed negative (n.natAbs / (2 ^ f.scale * (1 : ℕ))) := by
    have habs : ((n.natAbs : ℕ) : ℚ) = |(n : ℚ)| := by rw [Nat.cast_natAbs, Int.cast_abs]
    rw [Nat.cast_one, mul_one, habs]
    rcases lt_trichotomy n 0 with hn | rfl | hn
    · have hn' : (n : ℚ) < 0 := by exact_mod_cast hn
      rw [if_neg hn.ne, decide_eq_true hn] at hsign
      rw [← hsign, signed, if_pos rfl, abs_of_neg hn', neg_div, neg_neg]
    · cases negative <;> simp [signed]
    · have hn' : 0 < (n : ℚ) := by exact_mod_cast hn
      rw [if_neg hn.ne', decide_eq_false hn.not_gt] at hsign
      rw [← hsign, signed, if_neg Bool.false_ne_true, abs_of_pos hn']
  rw [hvalue]
  exact isNearest_of_isNearest_code Nat.one_pos
    (x := nearestUnits negative n.natAbs 1) (f.isNearest_nearestCode n.natAbs Nat.one_pos)

theorem isNearest_sub (hx : x.isFinite) (hy : y.isFinite) :
    (x - y).IsNearest (x.toRat - y.toRat) := by
  have h := isNearest_add hx (y := y.neg) hy
  rwa [toRat_neg, ← sub_eq_add_neg] at h

/-! ## Halves -/

theorem two_spec : (2 : Binary f).isFinite ∧ (2 : Binary f).toRat = 2 ∧
    (2 : Binary f).units = 2 * 2 ^ f.scale := by
  have hfraction := Nat.two_pow_pos f.fraction
  have hle : 2 ≤ 2 * 2 ^ f.fraction := by omega
  have hlt : 2 < 2 ^ 2 ^ (f.exponent - 1) :=
    (show 2 < 2 ^ 2 by decide).trans_le (Nat.pow_le_pow_right Nat.two_pos f.two_le_two_pow)
  have hvalue : (2 : Binary f).toRat = 2 := by exact_mod_cast toRat_ofNat (f := f) hle hlt
  have hs : (2 : ℚ) ^ f.scale ≠ 0 := by positivity
  have hunits := abs_toRat (2 : Binary f)
  rw [hvalue, abs_two, eq_div_iff hs] at hunits
  exact ⟨isFinite_ofNat hle hlt, hvalue, by exact_mod_cast hunits.symm⟩

theorem isNearest_half (hx : x.isFinite) : (x / 2).IsNearest (x.toRat / 2) := by
  obtain ⟨hfinite, hvalue, hunits⟩ := two_spec (f := f)
  have hpos := Nat.two_pow_pos f.scale
  have h := isNearest_div hx hfinite (by omega)
  rwa [hvalue] at h

/-- Half of a finite number is finite, and not larger. -/
theorem isFinite_half (hx : x.isFinite) : (x / 2).isFinite ∧ (x / 2).units ≤ x.units := by
  obtain ⟨hfinite, -, hunits⟩ := two_spec (f := f)
  have hle : 2 ^ f.scale ≤ (2 : Binary f).units := by omega
  exact ⟨isFinite_div hx hfinite hle, units_div_le hx hfinite hle⟩

theorem exists_units_eq_half (hx : x.isFinite) (h : Even x.units) :
    ∃ y : Binary f, y.negative = x.negative ∧ y.isFinite ∧ 2 * y.units = x.units := by
  have hlt : x.units < f.units f.infinity := f.units_lt_units (isFinite_iff.mp hx)
  obtain ⟨m, k, hm, hcode⟩ := f.exists_eq_units x.code
  have hunits : x.units = m * 2 ^ k := hcode
  cases k with
  | zero =>
    rw [hunits, pow_zero, mul_one] at h
    obtain ⟨n, rfl⟩ := h
    obtain ⟨y, hsign, hfinite, hy⟩ := exists_units_eq (f := f) (m := n) (k := 0) x.negative
      (by omega) (by omega)
    exact ⟨y, hsign, hfinite, by omega⟩
  | succ k =>
    rw [pow_succ, ← mul_assoc] at hunits
    obtain ⟨y, hsign, hfinite, hy⟩ := exists_units_eq x.negative hm (k := k) (by omega)
    exact ⟨y, hsign, hfinite, by omega⟩

/-- Halving is exact unless the half falls between two subnormal numbers. -/
theorem toRat_half_eq_iff (hx : x.isFinite) : (x / 2).toRat = x.toRat / 2 ↔ Even x.signedUnits := by
  have hs : (2 : ℚ) ^ f.scale ≠ 0 := by positivity
  constructor
  · intro h
    rw [toRat_eq_signedUnits, toRat_eq_signedUnits, div_right_comm, div_left_inj' hs,
      eq_div_iff two_ne_zero] at h
    exact even_iff_two_dvd.mpr (Dvd.intro_left (x / 2).signedUnits (by exact_mod_cast h))
  · intro h
    rw [← Int.natAbs_even, natAbs_signedUnits] at h
    obtain ⟨y, hsign, hfinite, hunits⟩ := exists_units_eq_half hx h
    have hvalue : x.toRat / 2 = y.toRat := by
      rw [toRat, toRat, hsign, ← hunits, Nat.cast_mul, Nat.cast_two, mul_div_assoc]
      cases x.negative <;> simp [signed, neg_div]
    have hnearest := isNearest_half hx
    rw [hvalue] at hnearest ⊢
    exact hnearest.toRat_eq (isNearest_toRat (isNaN_of_isFinite hfinite))

theorem odd_signedUnits_iff : Odd x.signedUnits ↔ ∃ k : ℤ, Odd k ∧ x.toRat = k / 2 ^ f.scale := by
  have hs : (2 : ℚ) ^ f.scale ≠ 0 := by positivity
  constructor
  · intro h
    exact ⟨x.signedUnits, h, x.toRat_eq_signedUnits⟩
  · intro h
    obtain ⟨k, hk, hvalue⟩ := h
    rw [toRat_eq_signedUnits, div_left_inj' hs, Int.cast_inj] at hvalue
    rwa [hvalue]

end PointSymbol.Binary
