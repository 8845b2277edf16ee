import PointSymbol.Binary.Arithmetic

/-!
# Byte colors

Colors of three byte channels and a straight alpha between zero and one.
-/

namespace PointSymbol.Color

structure Rgba where
  red : UInt8
  green : UInt8
  blue : UInt8
  alpha : Double
  deriving BEq, DecidableEq

namespace Rgba

def solid (red green blue : UInt8) : Rgba := ⟨red, green, blue, 1⟩

def transparent : Rgba := ⟨0, 0, 0, 0⟩

end Rgba

end PointSymbol.Color
