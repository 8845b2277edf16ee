/-!
# Binary floating-point numbers

A number is a sign and a code. The codes of a format list its magnitudes in increasing order: zero,
the subnormal ones, the normal ones, infinity, and last the codes that stand for no number. `units`
measures a magnitude in multiples of the least positive one. Numbers compare by their signed codes,
so the two zeros are equal under `==` and distinct under `=`.
-/

namespace PointSymbol
-- the powers of core, whether or not a monoid of naturals is in scope
attribute [local instance (2000)] instPowNat

/-- A format is given by the widths in bits of its fraction and its exponent. -/
structure Binary.Format where
  fraction : Nat
  exponent : Nat
  fraction_pos : 0 < fraction := by decide
  one_lt_exponent : 1 < exponent := by decide
  deriving DecidableEq

namespace Binary.Format

def single : Format := { fraction := 23, exponent := 8 }

def double : Format := { fraction := 52, exponent := 11 }

variable (f : Format)

def width : Nat := f.exponent + f.fraction + 1

/-- The least positive magnitude is `2 ^ (-scale)`. -/
def scale : Nat := 2 ^ (f.exponent - 1) + f.fraction - 2

/-- The code of infinity, and the number of codes below it. -/
def infinity : Nat := (2 ^ f.exponent - 1) * 2 ^ f.fraction

/-- The magnitude of a code below infinity, in multiples of `2 ^ (-scale)`. -/
def units (code : Nat) : Nat :=
  if code < 2 ^ f.fraction then code
  else (2 ^ f.fraction + code % 2 ^ f.fraction) * 2 ^ (code / 2 ^ f.fraction - 1)

/-- The code of the quiet not-a-number with the least payload. -/
def quiet : Nat := f.infinity + 2 ^ (f.fraction - 1)

theorem infinity_add : f.infinity + 2 ^ f.fraction = 2 ^ (f.exponent + f.fraction) := by
  rw [infinity, ← Nat.succ_mul, Nat.succ_eq_add_one, Nat.sub_add_cancel (Nat.two_pow_pos _),
    Nat.pow_add]

theorem infinity_lt : f.infinity < 2 ^ (f.exponent + f.fraction) := by
  rw [← f.infinity_add]
  exact Nat.lt_add_of_pos_right (Nat.two_pow_pos _)

theorem quiet_lt : f.quiet < 2 ^ (f.exponent + f.fraction) := by
  rw [← f.infinity_add]
  exact Nat.add_lt_add_left
    (Nat.pow_lt_pow_right Nat.one_lt_two (Nat.sub_lt f.fraction_pos Nat.one_pos)) _

theorem units_of_lt {code : Nat} (h : code < 2 ^ f.fraction) : f.units code = code :=
  if_pos h

theorem units_of_le {code : Nat} (h : 2 ^ f.fraction ≤ code) : f.units code =
    (2 ^ f.fraction + code % 2 ^ f.fraction) * 2 ^ (code / 2 ^ f.fraction - 1) :=
  if_neg (Nat.not_lt.mpr h)

theorem units_zero : f.units 0 = 0 :=
  f.units_of_lt (Nat.two_pow_pos _)

end Binary.Format

structure Binary (f : Binary.Format) where
  negative : Bool
  code : Fin (2 ^ (f.exponent + f.fraction))
  deriving DecidableEq

abbrev Single := Binary .single

abbrev Double := Binary .double

namespace Binary
variable {f : Format}

def zero (negative : Bool) : Binary f := ⟨negative, 0, Nat.two_pow_pos _⟩

def infinity (negative : Bool) : Binary f := ⟨negative, f.infinity, f.infinity_lt⟩

def nan : Binary f := ⟨false, f.quiet, f.quiet_lt⟩

def isNaN (x : Binary f) : Bool := f.infinity < x.code

def isInfinite (x : Binary f) : Bool := x.code == f.infinity

def isFinite (x : Binary f) : Bool := x.code < f.infinity

def isZero (x : Binary f) : Bool := x.code == (0 : Nat)

def units (x : Binary f) : Nat := f.units x.code

def signedUnits (x : Binary f) : Int := if x.negative then -x.units else x.units

def signedCode (x : Binary f) : Int := if x.negative then -(x.code : Nat) else (x.code : Nat)

/-- Equality of numbers: not a number differs from itself, and the two zeros are equal. -/
instance : BEq (Binary f) where
  beq x y := !x.isNaN && !y.isNaN && x.signedCode == y.signedCode

instance : LT (Binary f) where
  lt x y := !x.isNaN ∧ !y.isNaN ∧ x.signedCode < y.signedCode

instance : LE (Binary f) where
  le x y := !x.isNaN ∧ !y.isNaN ∧ x.signedCode ≤ y.signedCode

instance (x y : Binary f) : Decidable (x < y) :=
  inferInstanceAs (Decidable (_ ∧ _ ∧ _))

instance (x y : Binary f) : Decidable (x ≤ y) :=
  inferInstanceAs (Decidable (_ ∧ _ ∧ _))

theorem isNaN_or_isInfinite_or_isFinite (x : Binary f) :
    x.isNaN ∨ x.isInfinite ∨ x.isFinite := by
  simp only [isNaN, isInfinite, isFinite, decide_eq_true_eq, beq_iff_eq]
  omega

theorem beq_iff {x y : Binary f} :
    x == y ↔ x.isNaN = false ∧ y.isNaN = false ∧ x.signedCode = y.signedCode := by
  show (!x.isNaN && !y.isNaN && x.signedCode == y.signedCode) = true ↔ _
  simp [and_assoc]

end Binary

end PointSymbol
