import PointSymbol.Glsl.Literal
import PointSymbol.Symbol.Basic

/-!
# Baked symbols

What the shader source of a symbol depends on: its bounds, opacity and normalized color as literals,
and whether it rotates. Only the offsets of the bounds can fail to be literals, by overflow.
-/

namespace PointSymbol
open Glsl (Literal)

namespace Shader

/-- The literals on the two sides of an axis. -/
structure Span where
  low : Literal
  high : Literal
  deriving DecidableEq

structure Baked where
  rotates : Bool
  offsetX : Span
  offsetY : Span
  texU : Span
  texV : Span
  opacity : Literal
  red : Literal
  green : Literal
  blue : Literal
  alpha : Literal
  deriving DecidableEq

def literal (field : Symbol.Field) (x : Double) : Except Symbol.Error Literal :=
  match Literal.ofDouble? x with
  | some a => .ok a
  | none => .error (.nonFinite field x)

/-- The literal text of a number on its own. -/
def floatText (x : Double) : Except Symbol.Error String :=
  (literal .value x).map Literal.text

def span (field : Symbol.Field) (low high : Double) : Except Symbol.Error Span := do
  let a ← literal field low
  let b ← literal field high
  return ⟨a, b⟩

end Shader

def Symbol.bake (s : Symbol) : Except Symbol.Error Shader.Baked := do
  let bounds := s.bounds
  let color := s.color.normalized
  return {
    rotates := s.rotatesWithView
    offsetX := ← Shader.span .offset bounds.offsetMin.x bounds.offsetMax.x
    offsetY := ← Shader.span .offset bounds.offsetMin.y bounds.offsetMax.y
    texU := ← Shader.span .textureCoord bounds.texture.u0 bounds.texture.u1
    texV := ← Shader.span .textureCoord bounds.texture.v0 bounds.texture.v1
    opacity := ← Shader.literal .opacity s.opacity
    red := ← Shader.literal .color color.red
    green := ← Shader.literal .color color.green
    blue := ← Shader.literal .color color.blue
    alpha := ← Shader.literal .color color.alpha }

end PointSymbol
