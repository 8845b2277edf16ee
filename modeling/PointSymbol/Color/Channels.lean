import PointSymbol.Color.Rgba

/-!
# Color channels

Colors as the shader takes them: red, green and blue out of 255 and a straight alpha out of one.
Nothing is clamped.
-/

namespace PointSymbol.Color

structure Channels where
  red : Double
  green : Double
  blue : Double
  alpha : Double
  deriving BEq, DecidableEq

namespace Channels

def white : Channels := ⟨255, 255, 255, 1⟩

def toList (c : Channels) : List Double := [c.red, c.green, c.blue, c.alpha]

/-- Red, green and blue out of one. -/
def normalized (c : Channels) : Channels := ⟨c.red / 255, c.green / 255, c.blue / 255, c.alpha⟩

end Channels

def Rgba.channels (c : Rgba) : Channels :=
  ⟨.ofNat c.red.toNat, .ofNat c.green.toNat, .ofNat c.blue.toNat, c.alpha⟩

end PointSymbol.Color
