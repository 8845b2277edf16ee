import PointSymbol.Proofs.Binary.Rounding
import PointSymbol.Quad.Bounds

/-!
# Bounds around the offset

`Bounds.around_centered`: in either axis the bounds are the offset less and plus half of the size,
each rounded once. Rounding keeps the order and changes signs with its argument, so the bounds stay
on the two sides of the offset and mirror each other around zero, also where the sum is rounded to
the offset or to an infinity.
-/

namespace PointSymbol.Quad
open Binary (Format)

/-- A rational rounded once; infinity begins half a step past the largest finite number. -/
structure Rounded (x : Double) (q : ℚ) : Prop where
  isNearest : x.IsNearest q
  isInfinite_iff : x.isInfinite ↔ 2 ^ 1024 - 2 ^ 970 ≤ |q|

/-- Half of a number, exact for all but the odd multiples of the least positive one. -/
structure IsHalf (half x : Double) : Prop where
  isNearest : half.IsNearest (x.toRat / 2)
  exact_iff : half.toRat = x.toRat / 2 ↔ ¬∃ k : ℤ, Odd k ∧ x.toRat = k / 2 ^ 1074

/-- The bounds of one axis. -/
structure Centered (size offset low high : Double) : Prop where
  rounded : ∃ half, IsHalf half size ∧ Rounded low (offset.toRat - half.toRat) ∧
    Rounded high (offset.toRat + half.toRat)
  ordered : 0 ≤ size → low ≤ offset ∧ offset ≤ high
  flipped : size ≤ 0 → high ≤ offset ∧ offset ≤ low
  opposite : offset == 0 → low == -high

theorem scale_double : Format.double.scale = 1074 := by decide +kernel

theorem overflow_double : Format.double.overflow = 2 ^ 1024 - 2 ^ 970 := by
  have hunits : Format.double.units (Format.double.infinity - 1) +
      Format.double.units Format.double.infinity + 2 ^ 970 * 2 ^ (Format.double.scale + 1) =
        2 ^ 1024 * 2 ^ (Format.double.scale + 1) := by decide +kernel
  have hcast := congrArg (Nat.cast (R := ℚ)) hunits
  simp only [Nat.cast_add, Nat.cast_mul, Nat.cast_pow, Nat.cast_ofNat] at hcast
  rw [Format.overflow, div_eq_iff (pow_ne_zero _ two_ne_zero), sub_mul, ← hcast,
    add_sub_cancel_right]

variable {x size offset : Double} {q : ℚ}

theorem rounded_of_isNearest (h : x.IsNearest q) : Rounded x q := by
  refine ⟨h, ?_⟩
  rw [h.isInfinite_iff, overflow_double]

theorem isHalf_div (h : x.isFinite) : IsHalf (x / (2 : Double)) x := by
  refine ⟨Binary.isNearest_half h, ?_⟩
  rw [Binary.toRat_half_eq_iff h, ← Int.not_odd_iff_even, Binary.odd_signedUnits_iff, scale_double]

theorem centered_of_isFinite (hsize : size.isFinite) (hoffset : offset.isFinite) :
    Centered size offset (offset - size / (2 : Double)) (offset + size / (2 : Double)) := by
  have hhalf := isHalf_div hsize
  have hfinite := (Binary.isFinite_half hsize).1
  generalize size / (2 : Double) = half at hhalf hfinite ⊢
  have hlow := Binary.isNearest_sub hoffset hfinite
  have hhigh := Binary.isNearest_add hoffset hfinite
  have hnan := Binary.isNaN_of_isFinite hoffset
  refine ⟨⟨half, hhalf, rounded_of_isNearest hlow, rounded_of_isNearest hhigh⟩, fun h => ?_,
    fun h => ?_, fun h => ?_⟩
  · obtain ⟨-, hsign⟩ := Binary.nonneg_iff.mp h
    have hle : 0 ≤ half.toRat := hhalf.isNearest.nonneg (by linarith)
    exact ⟨hlow.le hnan (by linarith), hhigh.ge hnan (by linarith)⟩
  · obtain ⟨-, hsign⟩ := Binary.nonpos_iff.mp h
    have hle : half.toRat ≤ 0 := hhalf.isNearest.nonpos (by linarith)
    exact ⟨hhigh.le hnan (by linarith), hlow.ge hnan (by linarith)⟩
  · have hzero : offset.toRat = 0 := by
      rw [Binary.beq_iff_toRat_eq hnan Binary.zero_spec.1] at h
      exact h.trans Binary.zero_spec.2
    have hmirror := hhigh.neg
    rw [hzero, zero_sub] at hlow
    rw [hzero, zero_add] at hmirror
    exact hlow.beq hmirror

/-- Finite sizes and offsets have bounds around the offset in both axes. -/
theorem Bounds.around_centered (size offset : Vec2) (texture : TextureRect)
    (hsize : size.x.isFinite ∧ size.y.isFinite) (hoffset : offset.x.isFinite ∧ offset.y.isFinite) :
    let b := around size offset texture
    Centered size.x offset.x b.offsetMin.x b.offsetMax.x ∧
      Centered size.y offset.y b.offsetMin.y b.offsetMax.y :=
  ⟨centered_of_isFinite hsize.1 hoffset.1, centered_of_isFinite hsize.2 hoffset.2⟩

/-- The least width is halved to zero, and the upper side overflows. -/
theorem Bounds.around_centered_of_overflow :
    let size : Vec2 := ⟨5e-324, 1.7e308⟩
    let offset : Vec2 := ⟨0, 1.7e308⟩
    let b := around size offset .full
    (Centered size.x offset.x b.offsetMin.x b.offsetMax.x ∧
      Centered size.y offset.y b.offsetMin.y b.offsetMax.y) ∧
        b.offsetMax = ⟨0, .infinity false⟩ := by
  intro size offset b
  have hsize : size.x.isFinite ∧ size.y.isFinite := by decide +kernel
  have hoffset : offset.x.isFinite ∧ offset.y.isFinite := by decide +kernel
  exact ⟨around_centered size offset .full hsize hoffset, by decide +kernel⟩

end PointSymbol.Quad
