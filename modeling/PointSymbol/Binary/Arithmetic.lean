import PointSymbol.Binary.Rounding

/-!
# Arithmetic

Each operation on finite numbers is the exact result rounded once. Operations without a result give
`nan`.
-/

namespace PointSymbol.Binary
-- the powers of core, whether or not a monoid of naturals is in scope
attribute [local instance (2000)] instPowNat
variable {f : Format}

def ofNat (n : Nat) : Binary f := nearest false n 1

instance (n : Nat) : OfNat (Binary f) n := ⟨ofNat n⟩

def neg (x : Binary f) : Binary f := { x with negative := !x.negative }

/-- A sum of zero is negative only if both terms are. -/
def add (x y : Binary f) : Binary f :=
  if x.isNaN || y.isNaN then nan
  else if x.isInfinite then if y.isInfinite && x.negative != y.negative then nan else x
  else if y.isInfinite then y
  else
    let sum := x.signedUnits + y.signedUnits
    nearestUnits (if sum = 0 then x.negative && y.negative else sum < 0) sum.natAbs 1

def sub (x y : Binary f) : Binary f := x.add y.neg

def div (x y : Binary f) : Binary f :=
  let negative := x.negative != y.negative
  if x.isNaN || y.isNaN || x.isInfinite && y.isInfinite || x.isZero && y.isZero then nan
  else if x.isInfinite || y.isZero then infinity negative
  else if y.isInfinite then zero negative
  else nearest negative x.units y.units

instance : Neg (Binary f) := ⟨neg⟩

instance : Add (Binary f) := ⟨add⟩

instance : Sub (Binary f) := ⟨sub⟩

instance : Div (Binary f) := ⟨div⟩

/-- The same number in another format, rounded if it is not there. -/
def convert (g : Format) (x : Binary f) : Binary g :=
  if x.isNaN then nan
  else if x.isInfinite then infinity x.negative
  else nearest x.negative x.units (2 ^ f.scale)

/-- The nearest number between `low` and `high`; a zero in between keeps its sign. -/
def clamp (x low high : Binary f) : Binary f :=
  if x < low then low else if high < x then high else x

/-- The natural nearest to the magnitude, halves going up. -/
def nearestNat (x : Binary f) : Nat :=
  (2 * x.units + 2 ^ f.scale) / 2 ^ (f.scale + 1)

end PointSymbol.Binary
