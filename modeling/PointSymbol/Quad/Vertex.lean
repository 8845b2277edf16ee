import PointSymbol.Binary.Bits
import PointSymbol.Quad.Corner

/-!
# Vertices of a quad

The vertex buffer of one symbol: four vertices at its anchor, told apart by the index of their
corner, and the triangles between them.
-/

namespace PointSymbol.Quad

structure Vertex where
  x : Single
  y : Single
  index : Single
  deriving BEq, DecidableEq

namespace Vertex

/-- Bytes from one vertex to the next. -/
def stride : Nat := 12

def bytes (v : Vertex) : List UInt8 :=
  v.x.littleEndian ++ v.y.littleEndian ++ v.index.littleEndian

def quad (x y : Single) : List Vertex :=
  Corner.all.map fun c => ⟨x, y, .ofNat c.index⟩

/-- The corners of two triangles that cover the quad, as positions in `quad`. -/
def triangleIndices : List Nat := [0, 1, 3, 1, 2, 3]

end Vertex

end PointSymbol.Quad
