import PointSymbol.Geometry.Vec2

/-!
# Texture regions

The part of a texture that a quad shows, between the texture coordinates of its two opposite
corners. A region may be flipped.
-/

namespace PointSymbol

structure TextureRect where
  u0 : Double
  v0 : Double
  u1 : Double
  v1 : Double
  deriving BEq, DecidableEq

namespace TextureRect

def full : TextureRect := ⟨0, 0, 1, 1⟩

instance : Inhabited TextureRect := ⟨full⟩

def min (r : TextureRect) : Vec2 := ⟨r.u0, r.v0⟩

def max (r : TextureRect) : Vec2 := ⟨r.u1, r.v1⟩

def toList (r : TextureRect) : List Double := [r.u0, r.v0, r.u1, r.v1]

end TextureRect

end PointSymbol
