import Mathlib.Order.Interval.Set.UnorderedInterval
import Mathlib.Tactic.Linarith
import PointSymbol.Proofs.Binary.Value
import PointSymbol.Proofs.Geometry.Triangle
import PointSymbol.Proofs.Quad.Corner
import PointSymbol.Quad.Bounds
import PointSymbol.Quad.Vertex

/-!
# Tiling of a quad

The two triangles of a quad are the halves of the unit square below and above its falling diagonal,
stretched to the bounds. So they tile the bounds. The texture coordinates are the same halves,
stretched to the texture region, so both triangles show one texture.
-/

namespace PointSymbol.Quad

/-! ## Triangles of a vertex buffer -/

namespace Vertex

def corner? (vertices : List Vertex) (i : Nat) : Option Corner := do
  let v ← vertices[i]?
  (Corner.ofIndex v.index).toOption

/-- Every three indices make a triangle. -/
def triangles? (vertices : List Vertex) : List Nat → Option (List (Triangle Corner))
  | [] => some []
  | i :: j :: k :: indices => do
    let a ← corner? vertices i
    let b ← corner? vertices j
    let c ← corner? vertices k
    let triangles ← triangles? vertices indices
    return ⟨a, b, c⟩ :: triangles
  | _ => none

theorem corner?_quad (x y : Single) (c : Corner) : corner? (quad x y) c.index = some c := by
  cases c <;> rfl

def lower : Triangle Corner := ⟨.minMin, .maxMin, .minMax⟩

def upper : Triangle Corner := ⟨.maxMin, .maxMax, .minMax⟩

theorem triangles?_quad (x y : Single) :
    triangles? (quad x y) triangleIndices = some [lower, upper] := by
  have h0 : corner? (quad x y) 0 = some .minMin := corner?_quad x y .minMin
  have h1 : corner? (quad x y) 1 = some .maxMin := corner?_quad x y .maxMin
  have h2 : corner? (quad x y) 2 = some .maxMax := corner?_quad x y .maxMax
  have h3 : corner? (quad x y) 3 = some .minMax := corner?_quad x y .minMax
  simp [triangles?, triangleIndices, h0, h1, h2, h3, lower, upper]

end Vertex

open Vertex (lower upper quad triangleIndices triangles? triangles?_quad)

variable {K : Type*} [Field K]

/-! ## The unit square -/

def Corner.unit (c : Corner) : K × K := (if c.isMinX then 0 else 1, if c.isMinY then 0 else 1)

theorem interpolate_lower (w : Weights K) :
    (lower.map Corner.unit).interpolate w = (w.b, w.c) := by
  simp [Triangle.interpolate, Triangle.map, lower, Corner.unit, Corner.isMinX, Corner.isMinY]

theorem interpolate_upper (w : Weights K) :
    (upper.map Corner.unit).interpolate w = (w.a + w.b, w.b + w.c) := by
  simp [Triangle.interpolate, Triangle.map, upper, Corner.unit, Corner.isMinX, Corner.isMinY]

theorem signedArea_unit {t : Triangle Corner} (ht : t ∈ [lower, upper]) :
    (t.map Corner.unit).signedArea = (1 / 2 : K) := by
  simp only [List.mem_cons, List.not_mem_nil, or_false] at ht
  rcases ht with rfl | rfl <;>
    simp [Triangle.signedArea, Triangle.map, lower, upper, Corner.unit, Corner.isMinX,
      Corner.isMinY]

section UnitSquare
variable [LinearOrder K] [IsStrictOrderedRing K] {q : K × K}

theorem mem_region_lower :
    q ∈ (lower.map Corner.unit).region K ↔ 0 ≤ q.1 ∧ 0 ≤ q.2 ∧ q.1 + q.2 ≤ 1 := by
  constructor
  · rintro ⟨w, ⟨ha, hb, hc⟩, rfl⟩
    rw [interpolate_lower]
    exact ⟨hb, hc, by linarith [w.sum_eq_one]⟩
  · rintro ⟨hx, hy, hsum⟩
    refine ⟨⟨1 - q.1 - q.2, q.1, q.2, by ring⟩, ⟨by linarith, hx, hy⟩, ?_⟩
    rw [interpolate_lower]

theorem mem_region_upper :
    q ∈ (upper.map Corner.unit).region K ↔ q.1 ≤ 1 ∧ q.2 ≤ 1 ∧ 1 ≤ q.1 + q.2 := by
  constructor
  · rintro ⟨w, ⟨ha, hb, hc⟩, rfl⟩
    rw [interpolate_upper]
    have hsum := w.sum_eq_one
    exact ⟨by linarith, by linarith, by linarith⟩
  · rintro ⟨hx, hy, hsum⟩
    refine ⟨⟨1 - q.2, q.1 + q.2 - 1, 1 - q.1, by ring⟩,
      ⟨by linarith, by linarith, by linarith⟩, ?_⟩
    rw [interpolate_upper]
    apply Prod.ext
    · ring
    · ring

theorem region_union_unit : (lower.map Corner.unit).region K ∪ (upper.map Corner.unit).region K =
    Set.uIcc (0 : K × K) 1 := by
  ext q
  rw [Set.mem_union, mem_region_lower, mem_region_upper, Set.uIcc_prod_eq, Set.mem_prod,
    Prod.fst_zero, Prod.snd_zero, Prod.fst_one, Prod.snd_one, Set.uIcc_of_le zero_le_one,
    Set.mem_Icc, Set.mem_Icc]
  constructor
  · rintro (⟨hx, hy, hsum⟩ | ⟨hx, hy, hsum⟩)
    · exact ⟨⟨hx, by linarith⟩, hy, by linarith⟩
    · exact ⟨⟨by linarith, hx⟩, by linarith, hy⟩
  · rintro ⟨⟨hx, hx'⟩, hy, hy'⟩
    rcases le_total (q.1 + q.2) 1 with hsum | hsum
    · exact .inl ⟨hx, hy, hsum⟩
    · exact .inr ⟨hx', hy', hsum⟩

theorem region_inter_unit : (lower.map Corner.unit).region K ∩ (upper.map Corner.unit).region K =
    segment K (Corner.maxMin.unit : K × K) Corner.minMax.unit := by
  ext q
  have hmem : q ∈ segment K Corner.maxMin.unit Corner.minMax.unit ↔
      ∃ a b : K, 0 ≤ a ∧ 0 ≤ b ∧ a + b = 1 ∧ (a, b) = q := by
    simp [segment, Corner.unit, Corner.isMinX, Corner.isMinY]
  rw [Set.mem_inter_iff, mem_region_lower, mem_region_upper, hmem]
  constructor
  · rintro ⟨⟨hx, hy, hsum⟩, -, -, hsum'⟩
    exact ⟨q.1, q.2, hx, hy, le_antisymm hsum hsum', rfl⟩
  · rintro ⟨a, b, ha, hb, hsum, rfl⟩
    exact ⟨⟨ha, hb, hsum.le⟩, by linarith, by linarith, hsum.ge⟩

end UnitSquare

/-! ## Stretching -/

/-- Takes the corners of the unit square to those of a rectangle. -/
def stretch (low high : K × K) : K × K →ᵃ[K] K × K :=
  (AffineMap.lineMap low.1 high.1).prodMap (AffineMap.lineMap low.2 high.2)

variable {low high : K × K}

theorem stretch_apply (low high q : K × K) : stretch low high q =
    (low.1 + q.1 * (high.1 - low.1), low.2 + q.2 * (high.2 - low.2)) := by
  rw [stretch, AffineMap.prodMap_apply, AffineMap.lineMap_apply_ring',
    AffineMap.lineMap_apply_ring', add_comm, add_comm low.2]

theorem signedArea_stretch (low high : K × K) (t : Triangle (K × K)) :
    (t.map (stretch low high)).signedArea =
      (high.1 - low.1) * (high.2 - low.2) * t.signedArea := by
  simp only [Triangle.signedArea, Triangle.map, stretch_apply]
  ring

/-- Takes the corners of a rectangle to those of the unit square. -/
def fraction (low high p : K × K) : K × K :=
  ((p.1 - low.1) / (high.1 - low.1), (p.2 - low.2) / (high.2 - low.2))

theorem fraction_stretch (hx : low.1 ≠ high.1) (hy : low.2 ≠ high.2) (q : K × K) :
    fraction low high (stretch low high q) = q := by
  have hx := sub_ne_zero.mpr hx.symm
  have hy := sub_ne_zero.mpr hy.symm
  simp [fraction, stretch_apply, hx, hy]

theorem stretch_injective (hx : low.1 ≠ high.1) (hy : low.2 ≠ high.2) :
    Function.Injective (stretch low high) :=
  Function.LeftInverse.injective (fraction_stretch hx hy)

theorem image_stretch [LinearOrder K] [IsStrictOrderedRing K] (low high : K × K) :
    stretch low high '' Set.uIcc 0 1 = Set.uIcc low high := by
  rw [stretch, AffineMap.coe_prodMap, Set.uIcc_prod_eq, Set.prodMap_image_prod,
    AffineMap.image_uIcc, AffineMap.image_uIcc, Set.uIcc_prod_eq]
  simp

/-! ## The quad of bounds -/

variable (K) in
/-- The point of the plane that a vector stands for. -/
def point (v : Vec2) : K × K := (v.x.toRat, v.y.toRat)

theorem point_pick (low high : Vec2) (c : Corner) :
    point K (c.pick low high) = stretch (point K low) (point K high) c.unit := by
  rw [stretch_apply]
  cases c <;> simp [point, Corner.pick, Corner.unit, Corner.isMinX, Corner.isMinY]

namespace Bounds

variable (K) in
def positions (b : Bounds) (t : Triangle Corner) : Triangle (K × K) :=
  t.map fun c => point K (b.cornerOffset c)

variable (K) in
def texCoords (b : Bounds) (t : Triangle Corner) : Triangle (K × K) :=
  t.map fun c => point K (b.cornerTexCoord c)

theorem positions_eq (b : Bounds) (t : Triangle Corner) : b.positions K t =
    (t.map Corner.unit).map (stretch (point K b.offsetMin) (point K b.offsetMax)) := by
  simp only [positions, cornerOffset, point_pick]
  rfl

theorem texCoords_eq (b : Bounds) (t : Triangle Corner) : b.texCoords K t =
    (t.map Corner.unit).map (stretch (point K b.texture.min) (point K b.texture.max)) := by
  simp only [texCoords, cornerTexCoord, point_pick]
  rfl

section Tiles
variable {b : Bounds} {t : Triangle Corner}

theorem signedArea_positions (b : Bounds) (ht : t ∈ [lower, upper]) :
    (b.positions K t).signedArea = ((point K b.offsetMax).1 - (point K b.offsetMin).1) *
      ((point K b.offsetMax).2 - (point K b.offsetMin).2) / 2 := by
  rw [positions_eq, signedArea_stretch, signedArea_unit ht, mul_one_div]

theorem interpolate_texCoords (hx : (point K b.offsetMin).1 ≠ (point K b.offsetMax).1)
    (hy : (point K b.offsetMin).2 ≠ (point K b.offsetMax).2) (t : Triangle Corner)
    (w : Weights K) : (b.texCoords K t).interpolate w =
      stretch (point K b.texture.min) (point K b.texture.max)
        (fraction (point K b.offsetMin) (point K b.offsetMax)
          ((b.positions K t).interpolate w)) := by
  rw [texCoords_eq, positions_eq, Triangle.interpolate_map, Triangle.interpolate_map,
    fraction_stretch hx hy]

variable [LinearOrder K] [IsStrictOrderedRing K]

theorem region_union_positions (b : Bounds) :
    (b.positions K lower).region K ∪ (b.positions K upper).region K =
      Set.uIcc (point K b.offsetMin) (point K b.offsetMax) := by
  rw [positions_eq, positions_eq, Triangle.region_map, Triangle.region_map, ← Set.image_union,
    region_union_unit, image_stretch]

theorem region_inter_positions (hx : (point K b.offsetMin).1 ≠ (point K b.offsetMax).1)
    (hy : (point K b.offsetMin).2 ≠ (point K b.offsetMax).2) :
    (b.positions K lower).region K ∩ (b.positions K upper).region K =
      segment K (point K (b.cornerOffset .maxMin)) (point K (b.cornerOffset .minMax)) := by
  rw [positions_eq, positions_eq, Triangle.region_map, Triangle.region_map,
    ← Set.image_inter (stretch_injective hx hy), region_inter_unit, image_segment, ← point_pick,
    ← point_pick]
  rfl

end Tiles

/-- The triangles of a quad have one winding, tile its bounds, meet in the diagonal between the
corners one and three, and show the texture region as one affine image. -/
theorem triangles_tile (K : Type*) [Field K] [LinearOrder K] [IsStrictOrderedRing K] (b : Bounds)
    (x y : Single) (hx : b.offsetMin.x.toRat ≠ b.offsetMax.x.toRat)
    (hy : b.offsetMin.y.toRat ≠ b.offsetMax.y.toRat) :
    let x0 : K := b.offsetMin.x.toRat
    let x1 : K := b.offsetMax.x.toRat
    let y0 : K := b.offsetMin.y.toRat
    let y1 : K := b.offsetMax.y.toRat
    let u0 : K := b.texture.u0.toRat
    let u1 : K := b.texture.u1.toRat
    let v0 : K := b.texture.v0.toRat
    let v1 : K := b.texture.v1.toRat
    ∃ t u, triangles? (quad x y) triangleIndices = some [t, u] ∧
      (∀ s ∈ [t, u], (b.positions K s).signedArea = (x1 - x0) * (y1 - y0) / 2) ∧
      (b.positions K t).region K ∪ (b.positions K u).region K = Set.uIcc (x0, y0) (x1, y1) ∧
      (∀ c d : Corner, c.index = 1 → d.index = 3 →
        (b.positions K t).region K ∩ (b.positions K u).region K =
          segment K (point K (b.cornerOffset c)) (point K (b.cornerOffset d))) ∧
      ∀ s ∈ [t, u], ∀ p : K × K, (∃! w : Weights K, (b.positions K s).interpolate w = p) ∧
        ∀ w : Weights K, (b.positions K s).interpolate w = p → (b.texCoords K s).interpolate w =
          (u0 + (p.1 - x0) / (x1 - x0) * (u1 - u0), v0 + (p.2 - y0) / (y1 - y0) * (v1 - v0)) := by
  intro x0 x1 y0 y1 u0 u1 v0 v1
  have hx : x0 ≠ x1 := Rat.cast_injective.ne hx
  have hy : y0 ≠ y1 := Rat.cast_injective.ne hy
  refine ⟨lower, upper, triangles?_quad x y, fun s hs => signedArea_positions b hs,
    region_union_positions b, ?_, ?_⟩
  · intro c d hc hd
    obtain rfl : c = .maxMin := Corner.index_inj.mp hc
    obtain rfl : d = .minMax := Corner.index_inj.mp hd
    exact region_inter_positions hx hy
  · intro s hs p
    have harea : (b.positions K s).signedArea ≠ 0 := by
      rw [signedArea_positions b hs]
      exact div_ne_zero (mul_ne_zero (sub_ne_zero.mpr hx.symm) (sub_ne_zero.mpr hy.symm))
        two_ne_zero
    refine ⟨Triangle.existsUnique_interpolate harea p, ?_⟩
    rintro w rfl
    rw [interpolate_texCoords hx hy, stretch_apply]
    rfl

/-- A quad of negative width with a flipped texture. -/
theorem triangles_tile_of_flipped :
    let b : Bounds := ⟨⟨1, 2⟩, ⟨-1, 4⟩, ⟨1, 0, 0, 1⟩⟩
    ∃ t u, triangles? (quad 0 0) triangleIndices = some [t, u] ∧
      (b.positions ℚ t).signedArea = -2 ∧ (b.positions ℚ u).signedArea = -2 ∧
      (b.positions ℚ t).region ℚ ∪ (b.positions ℚ u).region ℚ = Set.uIcc (1, 2) (-1, 4) := by
  intro b
  have hleft : b.offsetMin.x.toRat = 1 := by decide +kernel
  have hright : b.offsetMax.x.toRat = -1 := by decide +kernel
  have hbottom : b.offsetMin.y.toRat = 2 := by decide +kernel
  have htop : b.offsetMax.y.toRat = 4 := by decide +kernel
  obtain ⟨t, u, htriangles, harea, hunion, -⟩ := triangles_tile ℚ b 0 0
    (by rw [hleft, hright]; decide) (by rw [hbottom, htop]; decide)
  rw [hleft, hright, hbottom, htop] at harea hunion
  refine ⟨t, u, htriangles, ?_, ?_, by simpa using hunion⟩
  · rw [harea t (by simp)]
    norm_num
  · rw [harea u (by simp)]
    norm_num

end Bounds

end PointSymbol.Quad
