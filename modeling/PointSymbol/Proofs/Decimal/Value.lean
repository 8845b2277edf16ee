import Mathlib.Algebra.Order.Field.Power
import PointSymbol.Decimal.ReadBack
import PointSymbol.Proofs.Binary.Value

/-!
# Values of decimals

`toBinary_eq_iff`: the binary number of a decimal is the nearest one with its sign. Decimals of one
value and sign, however they are written, therefore have the same binary number.
-/

namespace PointSymbol.Decimal
open Binary (signed nearest_eq_iff)
variable {f : Binary.Format}

def toRat (d : Decimal) : ℚ := signed d.negative (d.digits * 10 ^ d.exponent)

theorem toBinary_eq_iff {d : Decimal} {x : Binary f} :
    d.toBinary f = x ↔ x.negative = d.negative ∧ x.IsNearest d.toRat := by
  obtain ⟨negative, n, e⟩ := d
  cases e with
  | ofNat e =>
    rw [toBinary_ofNat, nearest_eq_iff Nat.one_pos]
    simp [toRat]
  | negSucc e =>
    rw [toBinary_negSucc, nearest_eq_iff (Nat.pow_pos (by decide))]
    simp [toRat, zpow_negSucc, div_eq_mul_inv]

theorem toBinary_congr {d d' : Decimal} (hsign : d.negative = d'.negative)
    (hvalue : d.toRat = d'.toRat) : d.toBinary f = d'.toBinary f := by
  have h := toBinary_eq_iff (d := d') (x := d'.toBinary f)
  rw [toBinary_eq_iff, hsign, hvalue, ← h]

end PointSymbol.Decimal
