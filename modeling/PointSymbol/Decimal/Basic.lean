import PointSymbol.Binary.Rounding

/-!
# Decimal numbers

A decimal is a sign, a natural number written by its digits, and a power of ten. `toBinary` is the
nearest number of a binary format.
-/

namespace PointSymbol
-- the powers of core, whether or not a monoid of naturals is in scope
attribute [local instance (2000)] instPowNat

structure Decimal where
  negative : Bool
  digits : Nat
  exponent : Int
  deriving DecidableEq

namespace Decimal

/-- The nearest number of the format. Powers of ten past every number of the format give infinity
or zero without being computed. -/
def toBinary (f : Binary.Format) (d : Decimal) : Binary f :=
  if d.digits = 0 then .zero d.negative
  else
    match d.exponent with
    | .ofNat e =>
      if 2 ^ (f.exponent - 1) ≤ e then .infinity d.negative
      else .nearest d.negative (d.digits * 10 ^ e) 1
    | .negSucc e =>
      if d.digits.log2 + f.scale + 1 ≤ e then .zero d.negative
      else .nearest d.negative d.digits (10 ^ (e + 1))

instance {f : Binary.Format} : OfScientific (Binary f) where
  ofScientific digits isNegative e := toBinary f ⟨false, digits, if isNegative then -e else e⟩

end Decimal

end PointSymbol
