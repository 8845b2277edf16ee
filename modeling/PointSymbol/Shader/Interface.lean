import PointSymbol.Glsl.Program

/-!
# Interface of the shader

The variables that the vertex shader of a symbol shares with its surroundings: the vertex buffer,
the caller who sets the matrices, and the fragment shader.
-/

namespace PointSymbol.Shader.Interface
open Glsl (Variable)

/-- The anchor of the symbol, the same at its four vertices. -/
def position : Variable := ⟨.vec2, "a_position"⟩

/-- The index of the corner of a vertex. -/
def index : Variable := ⟨.float, "a_index"⟩

def projectionMatrix : Variable := ⟨.mat4, "u_projectionMatrix"⟩

def offsetScaleMatrix : Variable := ⟨.mat4, "u_offsetScaleMatrix"⟩

/-- Declared for symbols that rotate with the view only. -/
def offsetRotateMatrix : Variable := ⟨.mat4, "u_offsetRotateMatrix"⟩

def texCoord : Variable := ⟨.vec2, "v_texCoord"⟩

def opacity : Variable := ⟨.float, "v_opacity"⟩

def color : Variable := ⟨.vec4, "v_color"⟩

def attributes : List Variable := [position, index]

def uniforms (rotates : Bool) : List Variable :=
  [projectionMatrix, offsetScaleMatrix] ++ if rotates then [offsetRotateMatrix] else []

def varyings : List Variable := [texCoord, opacity, color]

end PointSymbol.Shader.Interface
