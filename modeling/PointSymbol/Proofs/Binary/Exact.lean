import PointSymbol.Proofs.Binary.Finite

/-!
# Exact results

A magnitude with a short enough significand belongs to the format, so rounding keeps it. This is so
for small naturals, for their fractions over powers of two and for the numbers of a narrower format.
-/

namespace PointSymbol.Binary

namespace Format
variable (f : Format)

theorem exists_units_eq (k : Nat) {m : Nat} (hm : m ≤ 2 * 2 ^ f.fraction) :
    ∃ code, f.units code = m * 2 ^ k := by
  induction k generalizing m with
  | zero =>
    by_cases h : m < 2 ^ f.fraction
    · exact ⟨m, by rw [f.units_of_lt h, pow_zero, mul_one]⟩
    · exact ⟨0 * 2 ^ f.fraction + m, f.units_add (Nat.le_of_not_lt h) hm⟩
  | succ k ih =>
    by_cases h : m < 2 ^ f.fraction
    · obtain ⟨code, hcode⟩ := ih (m := m * 2) (by omega)
      exact ⟨code, by rw [hcode, mul_assoc, ← pow_succ']⟩
    · exact ⟨(k + 1) * 2 ^ f.fraction + m, f.units_add (Nat.le_of_not_lt h) hm⟩

/-- A magnitude is a significand times a power of two. -/
theorem exists_eq_units (code : Nat) :
    ∃ m k, m ≤ 2 * 2 ^ f.fraction ∧ f.units code = m * 2 ^ k := by
  have hp := Nat.two_pow_pos f.fraction
  by_cases h : code < 2 ^ f.fraction
  · exact ⟨code, 0, by omega, by rw [f.units_of_lt h, pow_zero, mul_one]⟩
  · have hmod := Nat.mod_lt code hp
    exact ⟨_, _, by omega, f.units_of_le (Nat.le_of_not_lt h)⟩

end Format

variable {f g : Format}

/-- A number of the format with a given magnitude. -/
theorem exists_units_eq {m k : Nat} (negative : Bool) (hm : m ≤ 2 * 2 ^ f.fraction)
    (hlt : m * 2 ^ k < f.units f.infinity) :
    ∃ x : Binary f, x.negative = negative ∧ x.isFinite ∧ x.units = m * 2 ^ k := by
  obtain ⟨code, hcode⟩ := f.exists_units_eq k hm
  have hinfinity : code < f.infinity := by
    rw [← not_le, ← f.units_le_units, hcode]
    omega
  exact ⟨⟨negative, code, hinfinity.trans f.infinity_lt⟩, rfl, isFinite_iff.mpr hinfinity, hcode⟩

/-- A fraction over a power of two with a short enough numerator. -/
theorem exists_toRat_eq_div {m k : Nat} (hk : k ≤ f.scale) (hm : m ≤ 2 * 2 ^ f.fraction)
    (hlt : m < 2 ^ 2 ^ (f.exponent - 1) * 2 ^ k) :
    ∃ x : Binary f, x.negative = false ∧ x.isFinite ∧ x.toRat = m / 2 ^ k := by
  have hscale : 2 ^ f.scale = 2 ^ k * 2 ^ (f.scale - k) := by
    rw [← pow_add, Nat.add_sub_cancel' hk]
  have hunits : m * 2 ^ (f.scale - k) < f.units f.infinity := by
    rw [f.units_infinity, hscale, ← mul_assoc]
    exact Nat.mul_lt_mul_of_pos_right hlt (Nat.two_pow_pos _)
  obtain ⟨x, hsign, hfinite, hx⟩ := exists_units_eq false hm hunits
  refine ⟨x, hsign, hfinite, ?_⟩
  have hcast : (2 : ℚ) ^ f.scale = 2 ^ k * 2 ^ (f.scale - k) := by exact_mod_cast hscale
  rw [toRat, hsign, hx, signed, if_neg Bool.false_ne_true, hcast, Nat.cast_mul, Nat.cast_pow,
    Nat.cast_ofNat, mul_div_mul_right _ _ (by positivity)]

theorem nearest_eq_of_toRat {x : Binary f} {num den : Nat} (hden : 0 < den)
    (hx : x.isNaN = false) (h : x.toRat = signed x.negative (num / den)) :
    nearest x.negative num den = x := by
  rw [nearest_eq_iff hden, ← h]
  exact ⟨rfl, isNearest_toRat hx⟩

theorem ofNat_spec {n : Nat} (hn : n ≤ 2 * 2 ^ f.fraction) (hn' : n < 2 ^ 2 ^ (f.exponent - 1)) :
    (ofNat n : Binary f).isFinite ∧ (ofNat n : Binary f).toRat = n := by
  obtain ⟨x, hsign, hfinite, hvalue⟩ := exists_toRat_eq_div (f := f) (Nat.zero_le _) hn (by simpa)
  rw [pow_zero, div_one] at hvalue
  have hx : (ofNat n : Binary f) = x := by
    rw [ofNat, ← hsign]
    apply nearest_eq_of_toRat Nat.one_pos (isNaN_of_isFinite hfinite)
    simp [hvalue, hsign, signed]
  rw [hx]
  exact ⟨hfinite, hvalue⟩

theorem isFinite_ofNat {n : Nat} (hn : n ≤ 2 * 2 ^ f.fraction)
    (hn' : n < 2 ^ 2 ^ (f.exponent - 1)) : (ofNat n : Binary f).isFinite :=
  (ofNat_spec hn hn').1

theorem toRat_ofNat {n : Nat} (hn : n ≤ 2 * 2 ^ f.fraction) (hn' : n < 2 ^ 2 ^ (f.exponent - 1)) :
    (ofNat n : Binary f).toRat = n :=
  (ofNat_spec hn hn').2

theorem isFinite_of_abs_toRat_le {n : Nat} (hn : n < 2 ^ 2 ^ (f.exponent - 1)) {x : Binary f}
    (h : |x.toRat| ≤ n) : x.isFinite := by
  rw [isFinite_iff, ← not_le, ← f.units_le_units, f.units_infinity, not_le]
  calc x.units ≤ n * 2 ^ f.scale := units_le_iff.mpr h
    _ < 2 ^ 2 ^ (f.exponent - 1) * 2 ^ f.scale := Nat.mul_lt_mul_of_pos_right hn (Nat.two_pow_pos _)

/-! ## Wider formats -/

structure Format.Widens (f g : Format) : Prop where
  fraction_le : f.fraction ≤ g.fraction
  exponent_le : f.exponent ≤ g.exponent

theorem Format.Widens.pow_le (h : f.Widens g) : 2 ^ (f.exponent - 1) ≤ 2 ^ (g.exponent - 1) :=
  Nat.pow_le_pow_right Nat.two_pos (Nat.sub_le_sub_right h.exponent_le 1)

theorem Format.Widens.scale_le (h : f.Widens g) : f.scale ≤ g.scale :=
  Nat.sub_le_sub_right (Nat.add_le_add h.pow_le h.fraction_le) 2

theorem convert_spec (h : f.Widens g) {x : Binary f} (hx : x.isFinite) :
    (x.convert g).isFinite ∧ (x.convert g).toRat = x.toRat := by
  obtain ⟨m, k, hm, hunits⟩ := f.exists_eq_units x.code
  have hscale := Nat.sub_add_cancel h.scale_le
  have hlt : m * 2 ^ (k + (g.scale - f.scale)) < g.units g.infinity := by
    have hx := f.units_lt_units (isFinite_iff.mp hx)
    rw [hunits, f.units_infinity] at hx
    calc m * 2 ^ (k + (g.scale - f.scale)) = m * 2 ^ k * 2 ^ (g.scale - f.scale) := by
          rw [pow_add, mul_assoc]
      _ < 2 ^ 2 ^ (f.exponent - 1) * 2 ^ f.scale * 2 ^ (g.scale - f.scale) :=
          Nat.mul_lt_mul_of_pos_right hx (Nat.two_pow_pos _)
      _ = 2 ^ 2 ^ (f.exponent - 1) * 2 ^ g.scale := by
          rw [mul_assoc, ← pow_add, Nat.add_comm f.scale, hscale]
      _ ≤ g.units g.infinity := by
          rw [g.units_infinity]
          exact Nat.mul_le_mul_right _ (Nat.pow_le_pow_right Nat.two_pos h.pow_le)
  have hfraction : 2 ^ f.fraction ≤ 2 ^ g.fraction := Nat.pow_le_pow_right Nat.two_pos h.fraction_le
  obtain ⟨y, hsign, hfinite, hy⟩ := exists_units_eq (f := g) x.negative (by omega) hlt
  have hvalue : y.toRat = x.toRat := by
    have hpow : (2 : ℚ) ^ g.scale = 2 ^ (g.scale - f.scale) * 2 ^ f.scale := by
      rw [← pow_add, hscale]
    rw [toRat, toRat, hsign, signed_inj, hy, units, hunits, hpow]
    push_cast
    rw [pow_add, ← mul_assoc, mul_comm _ ((2 : ℚ) ^ f.scale), mul_div_mul_right _ _ (by positivity)]
  have hconvert : x.convert g = y := by
    rw [convert, isNaN_of_isFinite hx, isInfinite_of_isFinite hx, ← hsign]
    apply nearest_eq_of_toRat (Nat.two_pow_pos _) (isNaN_of_isFinite hfinite)
    rw [hvalue, toRat, hsign, Nat.cast_pow, Nat.cast_ofNat]
  rw [hconvert]
  exact ⟨hfinite, hvalue⟩

/-! ## Comparison with naturals -/

theorem beq_comm (x y : Binary f) : (x == y) = (y == x) := by
  rw [Bool.eq_iff_iff, beq_iff, beq_iff, eq_comm (a := x.signedCode)]
  exact and_left_comm

theorem beq_of_isNaN {x : Binary f} (hx : x.isNaN) (y : Binary f) : (x == y) = false := by
  rw [← Bool.not_eq_true, beq_iff, hx]
  simp

variable {n : Nat}

theorem beq_ofNat_iff (hn : n ≤ 2 * 2 ^ f.fraction) (hn' : n < 2 ^ 2 ^ (f.exponent - 1))
    {x : Binary f} (hx : x.isNaN = false) : x == ofNat n ↔ x.toRat = n := by
  rw [beq_iff_toRat_eq hx (isNaN_of_isFinite (isFinite_ofNat hn hn')), toRat_ofNat hn hn']

theorem beq_ofNat_of_isInfinite (hn : n ≤ 2 * 2 ^ f.fraction) (hn' : n < 2 ^ 2 ^ (f.exponent - 1))
    {x : Binary f} (hx : x.isInfinite) : (x == ofNat n) = false := by
  have hcode : (x.code : Nat) = f.infinity := by simpa [isInfinite] using hx
  have hnan : x.isNaN = false := isNaN_eq_false_iff.mpr hcode.le
  have hunits : x.units = 2 ^ 2 ^ (f.exponent - 1) * 2 ^ f.scale := by
    rw [units, hcode, f.units_infinity]
  rw [← Bool.not_eq_true, beq_ofNat_iff hn hn' hnan]
  intro h
  have hle : x.units ≤ n * 2 ^ f.scale := by rw [units_le_iff, h, Nat.abs_cast]
  rw [hunits] at hle
  exact absurd (Nat.le_of_mul_le_mul_right hle (Nat.two_pow_pos _)) (not_le_of_gt hn')

/-- Widening changes no comparison with a small natural. -/
theorem convert_beq_ofNat (h : f.Widens g) (hn : n ≤ 2 * 2 ^ f.fraction)
    (hn' : n < 2 ^ 2 ^ (f.exponent - 1)) (x : Binary f) :
    (x.convert g == ofNat n) = (x == ofNat n) := by
  have hfraction : 2 ^ f.fraction ≤ 2 ^ g.fraction := Nat.pow_le_pow_right Nat.two_pos h.fraction_le
  have hg : n ≤ 2 * 2 ^ g.fraction := by omega
  have hg' : n < 2 ^ 2 ^ (g.exponent - 1) :=
    hn'.trans_le (Nat.pow_le_pow_right Nat.two_pos h.pow_le)
  rcases x.isNaN_or_isInfinite_or_isFinite with hx | hx | hx
  · have hnan : (nan : Binary g).isNaN := by
      simp [isNaN, nan, Format.quiet]
    rw [convert, if_pos hx, beq_of_isNaN hx, beq_of_isNaN hnan]
  · have hcode : (x.code : Nat) = f.infinity := by simpa [isInfinite] using hx
    have hnan : x.isNaN = false := isNaN_eq_false_iff.mpr hcode.le
    have hinfinite : (infinity x.negative : Binary g).isInfinite := by simp [isInfinite, infinity]
    rw [convert, hnan, hx, beq_ofNat_of_isInfinite hn hn' hx]
    exact beq_ofNat_of_isInfinite hg hg' hinfinite
  · obtain ⟨hfinite, hvalue⟩ := convert_spec h hx
    rw [Bool.eq_iff_iff, beq_ofNat_iff hg hg' (isNaN_of_isFinite hfinite), hvalue,
      beq_ofNat_iff hn hn' (isNaN_of_isFinite hx)]

end PointSymbol.Binary
