import Mathlib.Analysis.Convex.Segment
import Mathlib.LinearAlgebra.AffineSpace.AffineMap
import Mathlib.Tactic.FieldSimp
import Mathlib.Tactic.LinearCombination

/-!
# Triangles

The points of a triangle are the weighted means of its corners. Affine maps keep weights, so what
they do to the corners they do to every point. Whatever is given at the corners is interpolated with
the weights of a point, which are unique if the area is not zero.
-/

namespace PointSymbol

structure Triangle (P : Type*) where
  a : P
  b : P
  c : P

/-- Weights of the corners of a triangle. -/
@[ext]
structure Weights (K : Type*) [Field K] where
  a : K
  b : K
  c : K
  sum_eq_one : a + b + c = 1

def Weights.rotate {K : Type*} [Field K] (w : Weights K) : Weights K :=
  ⟨w.b, w.c, w.a, by linear_combination w.sum_eq_one⟩

namespace Triangle

def map {P Q : Type*} (f : P → Q) (t : Triangle P) : Triangle Q := ⟨f t.a, f t.b, f t.c⟩

/-- The triangle from the next corner on. -/
def rotate {P : Type*} (t : Triangle P) : Triangle P := ⟨t.b, t.c, t.a⟩

section Interpolation
variable {K V W : Type*} [Field K] [AddCommGroup V] [Module K V] [AddCommGroup W] [Module K W]

/-- The weighted mean of the corners. -/
def interpolate (t : Triangle V) (w : Weights K) : V := w.a • t.a + w.b • t.b + w.c • t.c

theorem interpolate_rotate (t : Triangle V) (w : Weights K) :
    t.rotate.interpolate w.rotate = t.interpolate w := by
  simp only [interpolate, rotate, Weights.rotate]
  abel

theorem interpolate_map (f : V →ᵃ[K] W) (t : Triangle V) (w : Weights K) :
    (t.map f).interpolate w = f (t.interpolate w) := by
  have hzero : f 0 = w.a • f 0 + w.b • f 0 + w.c • f 0 := by
    rw [← add_smul, ← add_smul, w.sum_eq_one, one_smul]
  have hdecomp (v : V) : f v = f.linear v + f 0 := congrFun f.decomp v
  rw [hdecomp (t.interpolate w), hzero]
  simp only [interpolate, map, hdecomp t.a, hdecomp t.b, hdecomp t.c, map_add, map_smul, smul_add]
  abel

end Interpolation

section Region
variable {K V W : Type*} [Field K] [LinearOrder K] [AddCommGroup V] [Module K V] [AddCommGroup W]
  [Module K W]

variable (K) in
/-- The points with weights that are not negative. -/
def region (t : Triangle V) : Set V :=
  {p | ∃ w : Weights K, (0 ≤ w.a ∧ 0 ≤ w.b ∧ 0 ≤ w.c) ∧ t.interpolate w = p}

theorem region_map (f : V →ᵃ[K] W) (t : Triangle V) : (t.map f).region K = f '' t.region K := by
  ext q
  constructor
  · rintro ⟨w, hw, rfl⟩
    exact ⟨t.interpolate w, ⟨w, hw, rfl⟩, (interpolate_map f t w).symm⟩
  · rintro ⟨_, ⟨w, hw, rfl⟩, rfl⟩
    exact ⟨w, hw, interpolate_map f t w⟩

end Region

section Area
variable {K : Type*} [Field K] {t : Triangle (K × K)}

/-- Positive if the corners are in counterclockwise order. -/
def signedArea (t : Triangle (K × K)) : K :=
  ((t.b.1 - t.a.1) * (t.c.2 - t.a.2) - (t.b.2 - t.a.2) * (t.c.1 - t.a.1)) / 2

theorem signedArea_rotate (t : Triangle (K × K)) : t.rotate.signedArea = t.signedArea := by
  simp only [signedArea, rotate]
  ring

/-- The weight of a corner is the part of the area on the other side of the point. -/
theorem signedArea_interpolate (t : Triangle (K × K)) (w : Weights K) :
    signedArea ⟨t.interpolate w, t.b, t.c⟩ = w.a * t.signedArea := by
  have ha : w.a = 1 - w.b - w.c := by linear_combination w.sum_eq_one
  simp only [signedArea, interpolate, Prod.fst_add, Prod.snd_add, Prod.smul_fst, Prod.smul_snd,
    smul_eq_mul, ha]
  ring

theorem a_eq_of_interpolate_eq (h : t.signedArea ≠ 0) {v w : Weights K}
    (hvw : t.interpolate v = t.interpolate w) : v.a = w.a := by
  apply mul_right_cancel₀ h
  rw [← signedArea_interpolate, ← signedArea_interpolate, hvw]

theorem interpolate_injective (h : t.signedArea ≠ 0) :
    Function.Injective (t.interpolate : Weights K → K × K) := by
  intro v w hvw
  have hrotate : t.rotate.signedArea ≠ 0 := by rwa [signedArea_rotate]
  have hvw' : t.rotate.interpolate v.rotate = t.rotate.interpolate w.rotate := by
    rwa [interpolate_rotate, interpolate_rotate]
  have ha : v.a = w.a := a_eq_of_interpolate_eq h hvw
  have hb : v.b = w.b := a_eq_of_interpolate_eq hrotate hvw'
  ext
  · exact ha
  · exact hb
  · linear_combination v.sum_eq_one - w.sum_eq_one - ha - hb

theorem existsUnique_interpolate (h : t.signedArea ≠ 0) (p : K × K) :
    ∃! w : Weights K, t.interpolate w = p := by
  have hsum : signedArea ⟨p, t.b, t.c⟩ + signedArea ⟨t.a, p, t.c⟩ + signedArea ⟨t.a, t.b, p⟩ =
      t.signedArea := by
    simp only [signedArea]
    ring
  let w : Weights K := {
    a := signedArea ⟨p, t.b, t.c⟩ / t.signedArea
    b := signedArea ⟨t.a, p, t.c⟩ / t.signedArea
    c := signedArea ⟨t.a, t.b, p⟩ / t.signedArea
    sum_eq_one := by rw [← add_div, ← add_div, hsum, div_self h] }
  have hw : t.interpolate w = p := by
    apply Prod.ext
    · change _ / _ * t.a.1 + _ / _ * t.b.1 + _ / _ * t.c.1 = p.1
      field_simp
      simp only [signedArea]
      ring
    · change _ / _ * t.a.2 + _ / _ * t.b.2 + _ / _ * t.c.2 = p.2
      field_simp
      simp only [signedArea]
      ring
  exact ⟨w, hw, fun v hv => interpolate_injective h (hv.trans hw.symm)⟩

end Area

end Triangle

end PointSymbol
