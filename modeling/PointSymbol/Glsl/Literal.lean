import PointSymbol.Binary.Arithmetic
import PointSymbol.Decimal.Form
import PointSymbol.Glsl.Token

/-!
# Float literals

Finite numbers, written so that a shader compiler reads them as floats: with a point, digits on both
sides of it, and no exponent.
-/

namespace PointSymbol.Glsl

structure Literal where
  value : Double
  isFinite : value.isFinite = true
  deriving DecidableEq

namespace Literal

def ofDouble? (x : Double) : Option Literal :=
  if h : x.isFinite then some ⟨x, h⟩ else none

def zero : Literal := ⟨0, by decide +kernel⟩

def one : Literal := ⟨1, by decide +kernel⟩

def form : Decimal.Form := ⟨true, fun _ => true⟩

def text (a : Literal) : String := form.text a.value

/-- The minus of a negative literal is a token of its own. -/
def pieces (a : Literal) : List Piece :=
  let d := Decimal.ofBinary a.value
  (if d.negative then [.mark .minus] else []) ++
    [.token (.number (Decimal.positionalChars form.pointZero d.digits d.exponent))]

example : form.text (1e21 : Double) = "1000000000000000000000.0" := by decide +kernel

example : form.text (-1e-7 : Double) = "-0.0000001" := by decide +kernel

end Literal

end PointSymbol.Glsl
