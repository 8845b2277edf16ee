import PointSymbol.Proofs.Binary.Value

/-!
# Finite results

Rounding never gives a NaN, and it gives infinity only from half of its magnitude on. So sums of
finite numbers are never NaN, and quotients by a number of magnitude one or more stay finite. A
quotient of finite numbers is the number nearest to that of their values.
-/

namespace PointSymbol.Binary

namespace Format
variable {f : Format} {num den code : Nat}

theorem nearestCode_le_of_le (hden : 0 < den) (hcode : code ≤ f.infinity)
    (h : num ≤ f.units code * den) : f.nearestCode num den ≤ code := by
  calc f.nearestCode num den ≤ f.nearestCode (f.units code * den) den :=
        f.nearestCode_mono hden hden (Nat.mul_le_mul_right den h)
    _ = code := f.nearestCode_units hden hcode

theorem two_le_infinity (f : Format) : 2 ≤ f.infinity := by
  have hexponent : 2 ^ 1 ≤ 2 ^ f.exponent :=
    Nat.pow_le_pow_right Nat.two_pos f.one_lt_exponent.le
  have hfraction : 2 ^ 1 ≤ 2 ^ f.fraction := Nat.pow_le_pow_right Nat.two_pos f.fraction_pos
  calc 2 = 1 * 2 ^ 1 := rfl
    _ ≤ (2 ^ f.exponent - 1) * 2 ^ f.fraction := Nat.mul_le_mul (by omega) hfraction

/-- The midpoint below infinity is above half of it. -/
theorem nearestCode_lt_infinity (hden : 0 < den) (h : 2 * num ≤ f.units f.infinity * den) :
    f.nearestCode num den < f.infinity := by
  have hc := f.isNearest_nearestCode num hden
  have h2 := f.two_le_infinity
  refine lt_of_le_of_ne hc.le_infinity fun heq => ?_
  rw [heq] at hc
  have hle := hc.lower_le (by omega)
  have hpos : 0 < f.units (f.infinity - 1) := by
    rw [← f.units_zero]
    exact f.units_lt_units (by omega)
  have hlt := Nat.mul_lt_mul_of_pos_right
    (Nat.lt_add_of_pos_left (n := f.units f.infinity) hpos) hden
  omega

end Format

variable {f : Format} {x y : Binary f} {negative : Bool} {num den : Nat}

theorem isNaN_nearestUnits : (nearestUnits negative num den : Binary f).isNaN = false :=
  isNaN_eq_false_iff.mpr (f.nearestCode_le num den)

theorem isFinite_nearestUnits_of_le (hden : 0 < den) (hx : x.isFinite)
    (h : num ≤ x.units * den) : (nearestUnits negative num den : Binary f).isFinite := by
  have hcode := isFinite_iff.mp hx
  exact isFinite_iff.mpr ((Format.nearestCode_le_of_le hden hcode.le h).trans_lt hcode)

theorem units_nearestUnits_le (hden : 0 < den) (hx : x.isFinite) (h : num ≤ x.units * den) :
    (nearestUnits negative num den : Binary f).units ≤ x.units :=
  f.units_le_units.mpr (Format.nearestCode_le_of_le hden (isFinite_iff.mp hx).le h)

/-! ## Classes of numbers -/

theorem isInfinite_of_isFinite (h : x.isFinite) : x.isInfinite = false := by
  have := isFinite_iff.mp h
  simp only [isInfinite, beq_eq_false_iff_ne]
  omega

theorem isInfinite_of_not_isFinite (hfinite : x.isFinite = false) (hnan : x.isNaN = false) :
    x.isInfinite := by
  rcases x.isNaN_or_isInfinite_or_isFinite with h | h | h
  · rw [hnan] at h
    cases h
  · exact h
  · rw [hfinite] at h
    cases h

theorem isFinite_eq_false_iff : x.isFinite = false ↔ x.isNaN ∨ x.isInfinite := by
  constructor
  · intro h
    cases hnan : x.isNaN with
    | true => exact .inl rfl
    | false => exact .inr (isInfinite_of_not_isFinite h hnan)
  · intro h
    rw [← Bool.not_eq_true]
    intro hx
    rw [isNaN_of_isFinite hx, isInfinite_of_isFinite hx] at h
    simp at h

theorem units_le_iff {n : Nat} : x.units ≤ n * 2 ^ f.scale ↔ |x.toRat| ≤ n := by
  have hs : (0 : ℚ) < 2 ^ f.scale := by positivity
  rw [abs_toRat, div_le_iff₀ hs]
  exact_mod_cast Iff.rfl

/-! ## Sums -/

theorem natAbs_signedUnits (x : Binary f) : x.signedUnits.natAbs = x.units := by
  unfold signedUnits
  split <;> simp

theorem add_of_isFinite (hx : x.isFinite) (hy : y.isFinite) :
    x + y = nearestUnits
      (if x.signedUnits + y.signedUnits = 0 then x.negative && y.negative
        else decide (x.signedUnits + y.signedUnits < 0))
      (x.signedUnits + y.signedUnits).natAbs 1 := by
  have hadd : x + y = x.add y := rfl
  rw [hadd, add]
  simp only [isNaN_of_isFinite hx, isNaN_of_isFinite hy, isInfinite_of_isFinite hx,
    isInfinite_of_isFinite hy, Bool.or_self, Bool.false_eq_true, if_false]

theorem isNaN_add (hx : x.isFinite) (hy : y.isFinite) : (x + y).isNaN = false := by
  rw [add_of_isFinite hx hy, isNaN_nearestUnits]

theorem isNaN_sub (hx : x.isFinite) (hy : y.isFinite) : (x - y).isNaN = false :=
  isNaN_add hx (y := y.neg) hy

theorem isFinite_add_of_units_eq_zero (hx : x.isFinite) (hy : y.isFinite) (h : x.units = 0) :
    (x + y).isFinite := by
  have habs := natAbs_signedUnits x
  have habs' := natAbs_signedUnits y
  rw [add_of_isFinite hx hy]
  exact isFinite_nearestUnits_of_le Nat.one_pos hy (by omega)

theorem isFinite_sub_of_units_eq_zero (hx : x.isFinite) (hy : y.isFinite) (h : x.units = 0) :
    (x - y).isFinite :=
  isFinite_add_of_units_eq_zero hx (y := y.neg) hy h

theorem isFinite_add_of_le (hx : x.isFinite) (hy : y.isFinite)
    (h : 2 * (x.units + y.units) ≤ f.units f.infinity) : (x + y).isFinite := by
  have habs := natAbs_signedUnits x
  have habs' := natAbs_signedUnits y
  rw [add_of_isFinite hx hy]
  exact isFinite_iff.mpr (Format.nearestCode_lt_infinity Nat.one_pos (by omega))

theorem isFinite_sub_of_le (hx : x.isFinite) (hy : y.isFinite)
    (h : 2 * (x.units + y.units) ≤ f.units f.infinity) : (x - y).isFinite :=
  isFinite_add_of_le hx (y := y.neg) hy h

/-! ## Quotients -/

theorem div_of_isFinite (hx : x.isFinite) (hy : y.isFinite) (h : 0 < y.units) :
    x / y = nearest (x.negative != y.negative) x.units y.units := by
  have hdiv : x / y = x.div y := rfl
  have hzero : y.isZero = false := by
    rw [isZero, beq_eq_false_iff_ne]
    intro hcode
    rw [units, hcode, f.units_zero] at h
    exact absurd h (lt_irrefl 0)
  rw [hdiv, div]
  simp only [isNaN_of_isFinite hx, isNaN_of_isFinite hy, isInfinite_of_isFinite hx,
    isInfinite_of_isFinite hy, hzero, Bool.and_false, Bool.or_false]
  rfl

theorem exists_div_eq (hx : x.isFinite) (hy : y.isFinite) (h : 0 < y.units) :
    ∃ negative, x / y = nearestUnits negative (x.units * 2 ^ f.scale) y.units :=
  ⟨_, div_of_isFinite hx hy h⟩

theorem isNearest_div (hx : x.isFinite) (hy : y.isFinite) (h : 0 < y.units) :
    (x / y).IsNearest (x.toRat / y.toRat) := by
  have hs : (2 ^ f.scale : ℚ) ≠ 0 := by positivity
  have hquotient : x.toRat / y.toRat = signed (x.negative != y.negative) (x.units / y.units) := by
    rw [toRat, toRat, signed_div_signed, div_div_div_cancel_right₀ hs]
  rw [div_of_isFinite hx hy h, hquotient]
  exact isNearest_nearest _ _ h

theorem isFinite_div (hx : x.isFinite) (hy : y.isFinite) (h : 2 ^ f.scale ≤ y.units) :
    (x / y).isFinite := by
  have hpos := (Nat.two_pow_pos f.scale).trans_le h
  obtain ⟨negative, hdiv⟩ := exists_div_eq hx hy hpos
  rw [hdiv]
  exact isFinite_nearestUnits_of_le hpos hx (Nat.mul_le_mul_left _ h)

theorem units_div_le (hx : x.isFinite) (hy : y.isFinite) (h : 2 ^ f.scale ≤ y.units) :
    (x / y).units ≤ x.units := by
  have hpos := (Nat.two_pow_pos f.scale).trans_le h
  obtain ⟨negative, hdiv⟩ := exists_div_eq hx hy hpos
  rw [hdiv]
  exact units_nearestUnits_le hpos hx (Nat.mul_le_mul_left _ h)

end PointSymbol.Binary
