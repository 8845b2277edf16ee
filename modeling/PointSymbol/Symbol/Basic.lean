import PointSymbol.Quad.Bounds
import PointSymbol.Style.Basic

/-!
# Symbols

A symbol is a style with nothing left open: defaults are filled in and colors resolved. A style
resolves only to a symbol whose numbers are all finite.
-/

namespace PointSymbol
open Color (Channels Paint Resolver)

structure Symbol where
  size : Vec2
  rotatesWithView : Bool
  offset : Vec2
  textureCoord : TextureRect
  opacity : Double
  color : Channels
  deriving BEq, DecidableEq

namespace Symbol

def bounds (s : Symbol) : Quad.Bounds := .around s.size s.offset s.textureCoord

/-- The numbers of a symbol, in the order in which they are checked. -/
def numbers (s : Symbol) : List (Field × Double) :=
  [s.size.x, s.size.y].map (.size, ·) ++ [s.offset.x, s.offset.y].map (.offset, ·) ++
    s.textureCoord.toList.map (.textureCoord, ·) ++ [(.opacity, s.opacity)] ++
    s.color.toList.map (.color, ·)

/-- Refuses the first number that is not finite. -/
def check (s : Symbol) : Except Error Symbol :=
  match s.numbers.find? fun (_, x) => !x.isFinite with
  | some (field, x) => .error (.nonFinite field x)
  | none => .ok s

end Symbol

namespace Style

/-- The symbol of a style. A missing size comes before a rejected color, and both before a number
that is not finite. -/
def resolve (resolver : Resolver) (s : Style) : Logged Symbol.Error Symbol :=
  match s.size with
  | none => .ofExcept (.error (.missing .size))
  | some size => do
    let color ← ((s.color.getD (.channels .white)).resolve resolver).mapError .color
    Symbol.check {
      size := size.resolve
      rotatesWithView := s.rotatesWithView
      offset := s.offset.getD .zero
      textureCoord := s.textureCoord.getD .full
      opacity := s.opacity.getD 1
      color }

end Style

end PointSymbol
