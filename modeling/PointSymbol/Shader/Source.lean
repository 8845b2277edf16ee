import PointSymbol.Shader.Baked
import PointSymbol.Shader.Interface

/-!
# Shader source

The vertex shader of a symbol. Every vertex chooses between the two sides of each axis by its corner
index, adds the chosen offset to the projected anchor, and hands texture coordinates, opacity and
color on.
-/

namespace PointSymbol
open Color (Resolver)
open Glsl (Expr Literal Program Statement Variable)
open Quad (Corner)

namespace Shader

def cornerLiteral (c : Corner) : Literal := ⟨.ofNat c.index, by cases c <;> decide +kernel⟩

/-- True of the vertices at the corner. -/
def atCorner (c : Corner) : Expr := .equal (.name Interface.index.name) (.literal (cornerLiteral c))

/-- True of the vertices at the corners that are on the least side of an axis. -/
def minSide (onMin : Corner → Bool) (h : Corner.all.filter onMin ≠ []) : Expr :=
  let corners := Corner.all.filter onMin
  corners.tail.foldl (fun e c => .or e (atCorner c)) (atCorner (corners.head h))

def onMinX : Expr := minSide Corner.isMinX (by decide)

def onMinY : Expr := minSide Corner.isMinY (by decide)

example : onMinX = .or (atCorner .minMin) (atCorner .minMax) := rfl

def Span.select (condition : Expr) (s : Span) : Expr :=
  .select condition (.literal s.low) (.literal s.high)

/-! ## Variables of the main function -/

namespace Local

def offsetMatrix : Variable := ⟨.mat4, "offsetMatrix"⟩

def offsetX : Variable := ⟨.float, "offsetX"⟩

def offsetY : Variable := ⟨.float, "offsetY"⟩

def offsets : Variable := ⟨.vec4, "offsets"⟩

def texU : Variable := ⟨.float, "u"⟩

def texV : Variable := ⟨.float, "v"⟩

end Local

/-- The output position of the vertex. -/
def vertexPosition : String := "gl_Position"

def offsetTransform (rotates : Bool) : Expr :=
  let scale := Expr.name Interface.offsetScaleMatrix.name
  if rotates then .mul scale (.name Interface.offsetRotateMatrix.name) else scale

namespace Baked

def body (b : Baked) : List Statement :=
  let zero := Expr.literal .zero
  let one := Expr.literal .one
  let anchor := Expr.extend (.name Interface.position.name) zero one
  [.declare Local.offsetMatrix (offsetTransform b.rotates),
    .declare Local.offsetX (b.offsetX.select onMinX),
    .declare Local.offsetY (b.offsetY.select onMinY),
    .declare Local.offsets
      (.mul (.name Local.offsetMatrix.name)
        (.vec4 (.name Local.offsetX.name) (.name Local.offsetY.name) zero zero)),
    .assign vertexPosition
      (.add (.mul (.name Interface.projectionMatrix.name) anchor) (.name Local.offsets.name)),
    .declare Local.texU (b.texU.select onMinX),
    .declare Local.texV (b.texV.select onMinY),
    .assign Interface.texCoord.name (.vec2 (.name Local.texU.name) (.name Local.texV.name)),
    .assign Interface.opacity.name (.literal b.opacity),
    .assign Interface.color.name
      (.vec4 (.literal b.red) (.literal b.green) (.literal b.blue) (.literal b.alpha))]

def program (b : Baked) : Program where
  uniforms := Interface.uniforms b.rotates
  attributes := Interface.attributes
  varyings := Interface.varyings
  body := b.body

end Baked

end Shader

/-- The source of the vertex shader of a style, with a record of its size in bytes. -/
def Style.vertexShader (resolver : Resolver) (s : Style) : Logged Symbol.Error String := do
  let symbol ← s.resolve resolver
  let baked ← symbol.bake
  let source := baked.program.text
  Logged.record (.sourceGenerated baked.rotates source.utf8ByteSize)
  return source

end PointSymbol
