import PointSymbol.Color.Error
import PointSymbol.Decimal.Form

/-!
# Symbol errors

Why a symbol cannot be drawn, and the messages that say so.
-/

namespace PointSymbol.Symbol

/-- What a number belongs to; `value` is a number on its own. -/
inductive Field where
  | size
  | offset
  | textureCoord
  | opacity
  | color
  | value
  deriving DecidableEq

def Field.name : Field → String
  | size => "size"
  | offset => "offset"
  | textureCoord => "texture_coord"
  | opacity => "opacity"
  | color => "color"
  | value => "value"

inductive Error where
  | missing (field : Field)
  | nonFinite (field : Field) (value : Double)
  | color (error : Color.Error)
  | cornerIndex (index : Single)
  deriving DecidableEq

namespace Error

/-- Numbers in messages never have an exponent, and integers no point. -/
def numberForm : Decimal.Form := ⟨false, fun _ => true⟩

example : numberForm.text (.zero true : Single) = "-0" := by decide +kernel

example : numberForm.text (1e21 : Single) = "1000000000000000000000" := by decide +kernel

def description : Error → String
  | missing field => "missing required parameter `" ++ field.name ++ "`"
  | nonFinite field x => "`" ++ field.name ++ "` is not finite (" ++ numberForm.text x ++ ")"
  | color e => e.message
  | cornerIndex i => "corner index " ++ numberForm.text i ++ " is not one of 0, 1, 2, 3"

def message (e : Error) : String := "symbol shader: " ++ e.description

/-- The color error behind the error. -/
def cause? : Error → Option Color.Error
  | color e => some e
  | _ => none

end Error

end PointSymbol.Symbol
