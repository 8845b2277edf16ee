import PointSymbol.Binary.Arithmetic

/-!
# Plane vectors
-/

namespace PointSymbol

structure Vec2 where
  x : Double
  y : Double
  deriving BEq, DecidableEq

namespace Vec2

def splat (a : Double) : Vec2 := ⟨a, a⟩

def zero : Vec2 := splat 0

instance : Inhabited Vec2 := ⟨zero⟩

instance : Add Vec2 := ⟨fun v w => ⟨v.x + w.x, v.y + w.y⟩⟩

instance : Sub Vec2 := ⟨fun v w => ⟨v.x - w.x, v.y - w.y⟩⟩

instance : HDiv Vec2 Double Vec2 := ⟨fun v a => ⟨v.x / a, v.y / a⟩⟩

end Vec2

end PointSymbol
