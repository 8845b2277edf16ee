import Mathlib.Data.List.Perm.Basic
import PointSymbol.Quad.Bounds

/-!
# Mirrored quads

A negative side of the size mirrors a quad, and a flipped texture region mirrors its image. Division
and subtraction treat signs alike, so a negated side exchanges the two bounds of its axis exactly,
also where they are infinite or not a number. Every corner then takes what its neighbour across the
axis takes from the flipped region.
-/

namespace PointSymbol

/-! ## Signs -/

namespace Binary
variable {f : Format} {x y : Binary f}

protected theorem neg_neg (x : Binary f) : - -x = x := by
  obtain ⟨negative, code⟩ := x
  exact congrArg (Binary.mk · code) (Bool.not_not negative)

theorem isNaN_nan : (nan : Binary f).isNaN :=
  decide_eq_true (Nat.lt_add_of_pos_right (Nat.two_pow_pos _))

theorem add_of_isNaN (x : Binary f) (hy : y.isNaN) : x + y = nan := by
  show add x y = nan
  rw [add, hy, Bool.or_true, if_pos rfl]

theorem sub_of_isNaN (x : Binary f) (hy : y.isNaN) : x - y = nan :=
  add_of_isNaN x (y := y.neg) hy

/-- A quotient changes its sign with the dividend, if it is a number. -/
theorem neg_div_cases (x y : Binary f) : -x / y = -(x / y) ∨ -x / y = nan ∧ x / y = nan := by
  have hsign : ((!x.negative) != y.negative) = !(x.negative != y.negative) := by
    cases x.negative <;> cases y.negative <;> rfl
  show div (neg x) y = neg (div x y) ∨ div (neg x) y = nan ∧ div x y = nan
  have hdiv : div (neg x) y =
      if x.isNaN || y.isNaN || x.isInfinite && y.isInfinite || x.isZero && y.isZero then nan
      else if x.isInfinite || y.isZero then infinity (!(x.negative != y.negative))
      else if y.isInfinite then zero (!(x.negative != y.negative))
      else nearest (!(x.negative != y.negative)) x.units y.units := by
    rw [← hsign]
    rfl
  rw [hdiv, div]
  split_ifs
  · exact .inr ⟨rfl, rfl⟩
  · exact .inl rfl
  · exact .inl rfl
  · exact .inl rfl

/-! No sum or difference shows the sign of something that is not a number. -/

theorem add_neg_div (x y z : Binary f) : x + -y / z = x - y / z := by
  rcases neg_div_cases y z with h | ⟨h, h'⟩
  · rw [h]
    rfl
  · rw [h, h', add_of_isNaN x isNaN_nan, sub_of_isNaN x isNaN_nan]

theorem sub_neg_div (x y z : Binary f) : x - -y / z = x + y / z := by
  rcases neg_div_cases y z with h | ⟨h, h'⟩
  · rw [h]
    exact congrArg (x + ·) (Binary.neg_neg (y / z))
  · rw [h, h', add_of_isNaN x isNaN_nan, sub_of_isNaN x isNaN_nan]

end Binary

/-! ## Mirrors -/

namespace Quad

inductive Axis where
  | x
  | y
  deriving DecidableEq

end Quad

open Quad (Axis)

def Vec2.mirror : Axis → Vec2 → Vec2
  | .x, v => ⟨-v.x, v.y⟩
  | .y, v => ⟨v.x, -v.y⟩

def TextureRect.flip : Axis → TextureRect → TextureRect
  | .x, r => ⟨r.u1, r.v0, r.u0, r.v1⟩
  | .y, r => ⟨r.u0, r.v1, r.u1, r.v0⟩

namespace Quad

namespace Corner

/-- Whether the corner is on the side where the axis is least. -/
def isMin : Axis → Corner → Bool
  | .x, c => c.isMinX
  | .y, c => c.isMinY

/-- The corner next to a corner, across the axis. -/
def across : Axis → Corner → Corner
  | .x, minMin => maxMin
  | .x, maxMin => minMin
  | .x, maxMax => minMax
  | .x, minMax => maxMax
  | .y, minMin => minMax
  | .y, maxMin => maxMax
  | .y, maxMax => maxMin
  | .y, minMax => minMin

theorem isMin_across (axis axis' : Axis) (c : Corner) :
    (c.across axis).isMin axis' = if axis' = axis then !c.isMin axis' else c.isMin axis' := by
  cases axis <;> cases axis' <;> cases c <;> rfl

theorem perm_map_across (axis : Axis) : (all.map (across axis)).Perm all := by
  cases axis <;> decide

end Corner

namespace Bounds

/-- The bounds with the two sides of the axis exchanged. -/
def mirror : Axis → Bounds → Bounds
  | .x, b => ⟨⟨b.offsetMax.x, b.offsetMin.y⟩, ⟨b.offsetMin.x, b.offsetMax.y⟩, b.texture.flip .x⟩
  | .y, b => ⟨⟨b.offsetMin.x, b.offsetMax.y⟩, ⟨b.offsetMax.x, b.offsetMin.y⟩, b.texture.flip .y⟩

/-- The offsets of the corners, each with the texture coordinate attached to it. -/
def attached (b : Bounds) : List (Vec2 × Vec2) :=
  Corner.all.map fun c => (b.cornerOffset c, b.cornerTexCoord c)

variable (axis : Axis) (b : Bounds) (c : Corner)

theorem cornerOffset_mirror : (b.mirror axis).cornerOffset c = b.cornerOffset (c.across axis) := by
  cases axis <;> cases c <;> rfl

theorem cornerTexCoord_mirror :
    (b.mirror axis).cornerTexCoord c = b.cornerTexCoord (c.across axis) := by
  cases axis <;> cases c <;> rfl

theorem attached_mirror : (b.mirror axis).attached.Perm b.attached := by
  have hmap : (b.mirror axis).attached =
      (Corner.all.map (Corner.across axis)).map fun c =>
        (b.cornerOffset c, b.cornerTexCoord c) := by
    simp only [attached, cornerOffset_mirror, cornerTexCoord_mirror, List.map_map,
      Function.comp_def]
  rw [hmap]
  exact (Corner.perm_map_across axis).map _

theorem around_mirror_eq (size offset : Vec2) (texture : TextureRect) :
    around (size.mirror axis) offset (texture.flip axis) =
      (around size offset texture).mirror axis := by
  cases axis with
  | x =>
    show mk ⟨offset.x - -size.x / (2 : Double), _⟩ ⟨offset.x + -size.x / (2 : Double), _⟩ _ = _
    rw [Binary.sub_neg_div, Binary.add_neg_div]
    rfl
  | y =>
    show mk ⟨_, offset.y - -size.y / (2 : Double)⟩ ⟨_, offset.y + -size.y / (2 : Double)⟩ _ = _
    rw [Binary.sub_neg_div, Binary.add_neg_div]
    rfl

/-- Negating a side and flipping the texture region are one mirror: every corner takes the offset
and the texture coordinate of its neighbour across the axis, so the same ones are attached to each
other. -/
theorem around_mirror (axis : Axis) (size offset : Vec2) (texture : TextureRect) :
    let b := around size offset texture
    let m := around (size.mirror axis) offset (texture.flip axis)
    (∀ c : Corner, m.cornerOffset c = b.cornerOffset (c.across axis) ∧
      m.cornerTexCoord c = b.cornerTexCoord (c.across axis) ∧
      ∀ axis', (c.across axis).isMin axis' =
        if axis' = axis then !c.isMin axis' else c.isMin axis') ∧
    m.attached.Perm b.attached := by
  intro b m
  have hmirror : m = b.mirror axis := around_mirror_eq axis size offset texture
  rw [hmirror]
  exact ⟨fun c => ⟨cornerOffset_mirror axis b c, cornerTexCoord_mirror axis b c,
    fun axis' => Corner.isMin_across axis axis' c⟩, attached_mirror axis b⟩

end Bounds

end Quad

end PointSymbol
