import PointSymbol.Binary.Basic

/-!
# Rounding to nearest

`nearest` is the number closest to a quotient of naturals, and of two equally close ones the one
with an even code. A quotient past the largest finite number by half a step or more becomes
infinity.
-/

namespace PointSymbol.Binary
-- the powers of core, whether or not a monoid of naturals is in scope
attribute [local instance (2000)] instPowNat

/-- The integer nearest to `num / den`, and of two the even one. -/
def nearestEven (num den : Nat) : Nat :=
  let q := num / den
  let r := 2 * (num % den)
  if r < den then q else if den < r then q + 1 else q + q % 2

namespace Format
variable (f : Format) (num den : Nat)

/-- The binade of `num / den` units; the subnormal magnitudes belong to binade zero. -/
def binade : Nat := (num / den).log2 - f.fraction

/-- The quotient in steps of its binade. -/
def steps : Nat := nearestEven num (den * 2 ^ f.binade num den)

/-- The nearest code if there were no infinity. Rounding up out of a binade gives the first code of
the next. -/
def unboundedCode : Nat := f.binade num den * 2 ^ f.fraction + f.steps num den

/-- The code of the magnitude nearest to `num / den` units. -/
def nearestCode : Nat := min (f.unboundedCode num den) f.infinity

theorem nearestCode_le : f.nearestCode num den ≤ f.infinity :=
  Nat.min_le_right _ _

end Format

variable {f : Format}

/-- The number nearest to `num / den` units. -/
def nearestUnits (negative : Bool) (num den : Nat) : Binary f :=
  ⟨negative, f.nearestCode num den, Nat.lt_of_le_of_lt (f.nearestCode_le num den) f.infinity_lt⟩

/-- The number nearest to `num / den`. -/
def nearest (negative : Bool) (num den : Nat) : Binary f :=
  nearestUnits negative (num * 2 ^ f.scale) den

end PointSymbol.Binary
