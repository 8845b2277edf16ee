import PointSymbol.Color.Paint
import PointSymbol.Geometry.TextureRect

/-!
# Styles

How a caller describes a point symbol. Everything but the size has a default, so every field may be
left unset. A `Change` sets one field.
-/

namespace PointSymbol
open Color (Paint)

namespace Style

inductive Size where
  | square (side : Double)
  | extent (width height : Double)
  deriving BEq, DecidableEq

def Size.resolve : Size → Vec2
  | square side => .splat side
  | extent width height => ⟨width, height⟩

end Style

/-- `rotatesWithView` turns the offset with the view; otherwise the view only scales it. -/
structure Style where
  size : Option Style.Size := none
  rotatesWithView : Bool := false
  offset : Option Vec2 := none
  textureCoord : Option TextureRect := none
  opacity : Option Double := none
  color : Option Paint := none
  deriving BEq, DecidableEq

namespace Style

def ofSize (size : Size) : Style := { size := some size }

inductive Change where
  | size (size : Size)
  | rotatesWithView (rotates : Bool)
  | offset (offset : Vec2)
  | textureCoord (rect : TextureRect)
  | opacity (opacity : Double)
  | color (paint : Paint)

def apply (s : Style) : Change → Style
  | .size size => { s with size := some size }
  | .rotatesWithView rotates => { s with rotatesWithView := rotates }
  | .offset offset => { s with offset := some offset }
  | .textureCoord rect => { s with textureCoord := some rect }
  | .opacity opacity => { s with opacity := some opacity }
  | .color paint => { s with color := some paint }

def applyAll (s : Style) (changes : List Change) : Style :=
  changes.foldl apply s

end Style

end PointSymbol
