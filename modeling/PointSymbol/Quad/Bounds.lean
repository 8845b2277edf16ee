import PointSymbol.Geometry.TextureRect
import PointSymbol.Quad.Corner

/-!
# Bounds of a quad

The offsets of two opposite corners and the texture region between them, and what each corner takes
of both.
-/

namespace PointSymbol.Quad

structure Bounds where
  offsetMin : Vec2
  offsetMax : Vec2
  texture : TextureRect
  deriving BEq, DecidableEq

/-- The component of a pair of opposite points on the side of the corner, for either axis. -/
def Corner.pick (c : Corner) (low high : Vec2) : Vec2 :=
  ⟨if c.isMinX then low.x else high.x, if c.isMinY then low.y else high.y⟩

namespace Bounds

/-- The quad of a size around an offset. -/
def around (size offset : Vec2) (texture : TextureRect) : Bounds :=
  let half := size / (2 : Double)
  ⟨offset - half, offset + half, texture⟩

def cornerOffset (b : Bounds) (c : Corner) : Vec2 := c.pick b.offsetMin b.offsetMax

def cornerTexCoord (b : Bounds) (c : Corner) : Vec2 := c.pick b.texture.min b.texture.max

end Bounds

end PointSymbol.Quad
