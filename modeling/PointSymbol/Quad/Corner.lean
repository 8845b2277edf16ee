import PointSymbol.Binary.Arithmetic
import PointSymbol.Symbol.Error

/-!
# Corners of a quad

Corners are named by their side in `x` and then in `y`, and numbered counterclockwise from the
corner where both are least.
-/

namespace PointSymbol.Quad

inductive Corner where
  | minMin
  | maxMin
  | maxMax
  | minMax
  deriving DecidableEq

namespace Corner

def all : List Corner := [minMin, maxMin, maxMax, minMax]

def index : Corner → Nat
  | minMin => 0
  | maxMin => 1
  | maxMax => 2
  | minMax => 3

def isMinX : Corner → Bool
  | minMin | minMax => true
  | maxMin | maxMax => false

def isMinY : Corner → Bool
  | minMin | maxMin => true
  | maxMax | minMax => false

theorem mem_all (c : Corner) : c ∈ all := by
  cases c <;> decide

/-- The corner whose index is equal to the number. -/
def ofIndex (i : Single) : Except Symbol.Error Corner :=
  match all.find? fun c => Binary.ofNat c.index == i with
  | some c => .ok c
  | none => .error (.cornerIndex i)

theorem ofIndex_index (c : Corner) : ofIndex (.ofNat c.index) = .ok c := by
  cases c <;> rfl

end Corner

end PointSymbol.Quad
