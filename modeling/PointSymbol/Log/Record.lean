import PointSymbol.Color.Channels
import PointSymbol.Decimal.Form
import PointSymbol.Text.Quoted

/-!
# Log records

What a computation reports on its way: a color text that was resolved, and a shader source that was
generated.
-/

namespace PointSymbol.Log
open Color (Channels)

inductive Record where
  | colorResolved (text : String) (channels : Channels)
  | sourceGenerated (rotates : Bool) (bytes : Nat)
  deriving DecidableEq

/-- Numbers in records are positional from `1e-4` up to but not including `1e16`. -/
def numberForm : Decimal.Form := ⟨true, fun e => -4 ≤ e && e < 16⟩

example : numberForm.text (1e-4 : Double) = "0.0001" := by decide +kernel

example : numberForm.text (15e15 : Double) = "1.5e16" := by decide +kernel

example : numberForm.text (5e-324 : Double) = "5e-324" := by decide +kernel

def channelsText (c : Channels) : String :=
  "ColorChannels \x7b r: " ++ numberForm.text c.red ++ ", g: " ++ numberForm.text c.green ++
    ", b: " ++ numberForm.text c.blue ++ ", a: " ++ numberForm.text c.alpha ++ " \x7d"

namespace Record

def level : Record → String
  | colorResolved .. => "TRACE"
  | sourceGenerated .. => "DEBUG"

def message : Record → String
  | colorResolved text channels =>
    "resolved color " ++ Text.quoted text ++ " to " ++ channelsText channels
  | sourceGenerated rotates bytes =>
    "generated symbol vertex shader (" ++ (if rotates then "scale+rotate" else "scale") ++
      " offset, " ++ bytes.repr ++ " bytes)"

end Record

end PointSymbol.Log
