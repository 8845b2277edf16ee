import PointSymbol.Text.Quoted

/-!
# Color errors

What is wrong with a color text, and the message that quotes the text as it was given.
-/

namespace PointSymbol.Color

inductive Fault where
  | empty
  | nonHexDigit
  | digitCount (count : Nat)
  | componentCount (count : Nat)
  | invalidComponent (part : String)
  | unknownName
  /-- A resolver other than `css` declines the text for a reason of its own. -/
  | declined (reason : String)
  deriving DecidableEq

def Fault.message : Fault → String
  | empty => "empty color string"
  | nonHexDigit => "non-hex digit in color literal"
  | digitCount n => "hex color must have 3, 4, 6 or 8 digits, got " ++ n.repr
  | componentCount n => "expected 3 or 4 color components, got " ++ n.repr
  | invalidComponent part => "invalid component " ++ Text.quoted part
  | unknownName => "unknown color name"
  | declined reason => reason

structure Error where
  fault : Fault
  input : String
  deriving DecidableEq

def Error.message (e : Error) : String :=
  "invalid color " ++ Text.quoted e.input ++ ": " ++ e.fault.message

end PointSymbol.Color
