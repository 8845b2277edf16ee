import PointSymbol.Style.Basic

/-!
# Calls

How callers describe a style, one field at a time. Where a field holds a record, its numbers may be
given in their order instead; one number is the side of a square, and a text is a color.
-/

namespace PointSymbol.Style
open Color (Channels Paint)

inductive Call where
  | size (size : Size)
  | side (side : Double)
  | sides (width height : Double)
  | rotatesWithView (rotates : Bool)
  | offset (offset : Vec2)
  | offsetNumbers (x y : Double)
  | textureCoord (rect : TextureRect)
  | textureNumbers (u0 v0 u1 v1 : Double)
  | opacity (opacity : Double)
  | color (paint : Paint)
  | colorText (text : String)
  | colorChannels (channels : Channels)
  | colorNumbers (red green blue alpha : Double)

def Call.change : Call → Change
  | .size s => .size s
  | .side a => .size (.square a)
  | .sides w h => .size (.extent w h)
  | .rotatesWithView b => .rotatesWithView b
  | .offset v => .offset v
  | .offsetNumbers x y => .offset ⟨x, y⟩
  | .textureCoord r => .textureCoord r
  | .textureNumbers u0 v0 u1 v1 => .textureCoord ⟨u0, v0, u1, v1⟩
  | .opacity a => .opacity a
  | .color p => .color p
  | .colorText t => .color (.text t)
  | .colorChannels c => .color (.channels c)
  | .colorNumbers r g b a => .color (.channels ⟨r, g, b, a⟩)

/-- Makes the calls one after the other. -/
def build (s : Style) (calls : List Call) : Style := s.applyAll (calls.map Call.change)

end PointSymbol.Style
