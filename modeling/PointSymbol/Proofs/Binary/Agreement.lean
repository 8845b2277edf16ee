import PointSymbol.Proofs.Binary.Finite

/-!
# Agreement of numbers

Numbers agree if they differ at most in the sign of a zero. Equal numbers agree, and sums,
differences and quotients of agreeing numbers agree.
-/

namespace PointSymbol.Binary
variable {f : Format} {x x' y y' : Binary f}

def Agrees (x y : Binary f) : Prop := x = y ∨ x.isZero ∧ y.isZero

/-! ## Zeros -/

theorem isZero_iff : x.isZero ↔ (x.code : Nat) = 0 := by
  simp [isZero]

theorem isZero_zero (negative : Bool) : (zero negative : Binary f).isZero := rfl

theorem isFinite_of_isZero (h : x.isZero) : x.isFinite := by
  have hpos := f.two_le_infinity
  rw [isFinite_iff, isZero_iff.mp h]
  omega

theorem units_of_isZero (h : x.isZero) : x.units = 0 := by
  rw [units, isZero_iff.mp h, f.units_zero]

theorem signedUnits_of_isZero (h : x.isZero) : x.signedUnits = 0 := by
  simp [signedUnits, units_of_isZero h]

theorem units_pos_of_not_isZero (h : x.isZero = false) : 0 < x.units := by
  have hcode : 0 < (x.code : Nat) := by
    rw [Nat.pos_iff_ne_zero]
    intro hzero
    rw [isZero_iff.mpr hzero] at h
    cases h
  rw [← f.units_zero]
  exact f.units_lt_units hcode

/-! ## Agreement -/

namespace Agrees

theorem refl (x : Binary f) : x.Agrees x := .inl rfl

theorem of_isZero (hx : x.isZero) (hy : y.isZero) : x.Agrees y := .inr ⟨hx, hy⟩

theorem symm (h : x.Agrees y) : y.Agrees x := by
  rcases h with rfl | ⟨hx, hy⟩
  · exact .inl rfl
  · exact .inr ⟨hy, hx⟩

theorem trans (h : x.Agrees y) (h' : y.Agrees y') : x.Agrees y' := by
  rcases h with rfl | ⟨hx, hy⟩
  · exact h'
  · rcases h' with rfl | ⟨-, hy'⟩
    · exact .inr ⟨hx, hy⟩
    · exact .inr ⟨hx, hy'⟩

theorem isFinite_eq (h : x.Agrees y) : x.isFinite = y.isFinite := by
  rcases h with rfl | ⟨hx, hy⟩
  · rfl
  · rw [isFinite_of_isZero hx, isFinite_of_isZero hy]

/-- Only finite numbers agree without being the same. -/
theorem eq_of_not_isFinite (h : x.Agrees y) (hx : x.isFinite = false) : x = y := by
  rcases h with rfl | ⟨hzero, -⟩
  · rfl
  · rw [isFinite_of_isZero hzero] at hx
    cases hx

theorem eq_iff (h : x.Agrees y) : x = y ↔ (x.isZero → x.negative = y.negative) := by
  constructor
  · rintro rfl _
    rfl
  · intro hsign
    rcases h with rfl | ⟨hx, hy⟩
    · rfl
    · have hnegative := hsign hx
      have hcode := isZero_iff.mp hx
      have hcode' := isZero_iff.mp hy
      obtain ⟨negative, code⟩ := x
      obtain ⟨negative', code'⟩ := y
      obtain rfl : negative = negative' := hnegative
      congr 1
      exact Fin.ext (hcode.trans hcode'.symm)

end Agrees

/-- Numbers that are no NaN agree exactly if they are equal as numbers. -/
theorem agrees_iff_beq (hx : x.isNaN = false) : x.Agrees y ↔ x == y := by
  rw [beq_iff]
  constructor
  · rintro (rfl | ⟨hzero, hzero'⟩)
    · exact ⟨hx, hx, rfl⟩
    · refine ⟨hx, isNaN_of_isFinite (isFinite_of_isZero hzero'), ?_⟩
      simp [signedCode, isZero_iff.mp hzero, isZero_iff.mp hzero']
  · rintro ⟨-, -, hcode⟩
    by_cases hsign : x.negative = y.negative
    · left
      obtain ⟨negative, code, hcodeLt⟩ := x
      obtain ⟨negative', code', hcodeLt'⟩ := y
      obtain rfl : negative = negative' := hsign
      cases negative <;> simp_all [signedCode]
    · right
      rw [isZero_iff, isZero_iff]
      unfold signedCode at hcode
      split at hcode <;> split at hcode <;> simp_all

/-! ## Sums and differences -/

theorem add_agrees_of_isFinite (hx : x.isFinite) (hy : y.isFinite) :
    (x + y).Agrees (nearestUnits (decide (x.signedUnits + y.signedUnits < 0))
      (x.signedUnits + y.signedUnits).natAbs 1) := by
  rw [add_of_isFinite hx hy]
  by_cases hsum : x.signedUnits + y.signedUnits = 0
  · rw [hsum, Int.natAbs_zero, nearestUnits_eq_zero Nat.one_pos (by decide),
      nearestUnits_eq_zero Nat.one_pos (by decide)]
    exact .of_isZero (isZero_zero _) (isZero_zero _)
  · rw [if_neg hsum]
    exact .refl _

theorem add_of_not_isFinite_left (hx : x.isFinite = false) (hy : y.isFinite) :
    x + y = if x.isNaN then nan else x := by
  have hadd : x + y = x.add y := rfl
  rw [hadd, add]
  cases hnan : x.isNaN with
  | true => simp
  | false =>
    have hinfinite := isInfinite_of_not_isFinite hx hnan
    simp [hinfinite, isNaN_of_isFinite hy, isInfinite_of_isFinite hy]

theorem add_of_not_isFinite_right (hx : x.isFinite) (hy : y.isFinite = false) :
    x + y = if y.isNaN then nan else y := by
  have hadd : x + y = x.add y := rfl
  rw [hadd, add]
  cases hnan : y.isNaN with
  | true => simp
  | false =>
    have hinfinite := isInfinite_of_not_isFinite hy hnan
    simp [hinfinite, isNaN_of_isFinite hx, isInfinite_of_isFinite hx]

namespace Agrees

theorem signedUnits_eq (h : x.Agrees y) : x.signedUnits = y.signedUnits := by
  rcases h with rfl | ⟨hx, hy⟩
  · rfl
  · rw [signedUnits_of_isZero hx, signedUnits_of_isZero hy]

theorem add (hx : x.Agrees x') (hy : y.Agrees y') : (x + y).Agrees (x' + y') := by
  -- a summand that is not finite decides the sum whatever the sign of the other is
  cases hfx : x.isFinite with
  | false =>
    obtain rfl := hx.eq_of_not_isFinite hfx
    cases hfy : y.isFinite with
    | false =>
      obtain rfl := hy.eq_of_not_isFinite hfy
      exact .refl _
    | true =>
      rw [add_of_not_isFinite_left hfx hfy,
        add_of_not_isFinite_left hfx (hy.isFinite_eq.symm.trans hfy)]
      exact .refl _
  | true =>
    have hfx' := hx.isFinite_eq.symm.trans hfx
    cases hfy : y.isFinite with
    | false =>
      obtain rfl := hy.eq_of_not_isFinite hfy
      rw [add_of_not_isFinite_right hfx hfy, add_of_not_isFinite_right hfx' hfy]
      exact .refl _
    | true =>
      have hfy' := hy.isFinite_eq.symm.trans hfy
      have hsum := add_agrees_of_isFinite hfx' hfy'
      rw [← hx.signedUnits_eq, ← hy.signedUnits_eq] at hsum
      exact (add_agrees_of_isFinite hfx hfy).trans hsum.symm

theorem neg (h : x.Agrees y) : x.neg.Agrees y.neg := by
  rcases h with rfl | ⟨hx, hy⟩
  · exact .refl _
  · exact .of_isZero hx hy

theorem sub (hx : x.Agrees x') (hy : y.Agrees y') : (x - y).Agrees (x' - y') :=
  hx.add hy.neg

end Agrees

/-! ## Quotients -/

theorem div_agrees_of_isZero (hx : x.isZero) (y : Binary f) :
    (x / y).Agrees (if y.isNaN || y.isZero then nan else zero false) := by
  have hfinite := isFinite_of_isZero hx
  have hdiv : x / y = x.div y := rfl
  rw [hdiv, div]
  cases hnan : y.isNaN with
  | true => simpa using Agrees.refl _
  | false =>
    cases hzero : y.isZero with
    | true => simpa [hx] using Agrees.refl _
    | false =>
      have hpos := units_pos_of_not_isZero hzero
      simp only [isNaN_of_isFinite hfinite, isInfinite_of_isFinite hfinite, units_of_isZero hx,
        Bool.false_and, Bool.and_false, Bool.or_self, Bool.false_eq_true, if_false]
      refine .of_isZero ?_ (isZero_zero _)
      split
      · exact isZero_zero _
      · rw [nearest, Nat.zero_mul, nearestUnits_eq_zero hpos hpos]
        exact isZero_zero _

theorem Agrees.div (h : x.Agrees x') (y : Binary f) : (x / y).Agrees (x' / y) := by
  rcases h with rfl | ⟨hx, hx'⟩
  · exact .refl _
  · exact (div_agrees_of_isZero hx y).trans (div_agrees_of_isZero hx' y).symm

end PointSymbol.Binary
