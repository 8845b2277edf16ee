import Mathlib.Algebra.Order.Field.Rat
import Mathlib.Data.Rat.Floor
import Mathlib.Tactic.FieldSimp
import Mathlib.Tactic.Linarith
import Mathlib.Tactic.Positivity
import Mathlib.Tactic.Ring
import PointSymbol.Binary.Arithmetic
import PointSymbol.Binary.Nearest

/-!
# Values of binary numbers

`toRat` is the rational number that a binary number stands for, and infinity stands for the power of
two after the largest finite number. A number is nearest to a rational if no other is nearer, and of
two equally near ones has the even code. `isNearest_nearest` and `IsNearest.eq_nearest` say that
rounding gives the nearest number of a sign and that there is only one.
-/

namespace PointSymbol.Binary

/-- A magnitude with a sign in front. -/
def signed (negative : Bool) (q : ℚ) : ℚ := if negative then -q else q

theorem abs_signed_sub_signed (negative : Bool) (p q : ℚ) :
    |signed negative p - signed negative q| = |p - q| := by
  cases negative with
  | false => rfl
  | true =>
    simp only [signed, if_true]
    rw [abs_sub_comm p q]
    congr 1
    ring

theorem abs_signed (negative : Bool) (q : ℚ) : |signed negative q| = |q| := by
  cases negative with
  | false => rfl
  | true => exact abs_neg q

theorem signed_inj {negative : Bool} {p q : ℚ} :
    signed negative p = signed negative q ↔ p = q := by
  cases negative <;> simp [signed]

theorem signed_div_signed (s t : Bool) (p q : ℚ) :
    signed s p / signed t q = signed (s != t) (p / q) := by
  cases s <;> cases t <;> simp [signed, neg_div, div_neg]

variable {f : Format}

def toRat (x : Binary f) : ℚ := signed x.negative (x.units / 2 ^ f.scale)

theorem toRat_inj {x y : Binary f} (h : x.negative = y.negative) :
    x.toRat = y.toRat ↔ x = y := by
  constructor
  · intro hxy
    rw [toRat, toRat, h, signed_inj] at hxy
    have hu : f.units x.code = f.units y.code := by
      have := (div_left_inj' (by positivity : (2 ^ f.scale : ℚ) ≠ 0)).mp hxy
      exact_mod_cast this
    have hc : (x.code : Nat) = y.code :=
      Nat.le_antisymm (f.units_le_units.mp hu.le) (f.units_le_units.mp hu.ge)
    obtain ⟨sx, cx, _⟩ := x
    obtain ⟨sy, cy, _⟩ := y
    obtain rfl : sx = sy := h
    obtain rfl : cx = cy := hc
    rfl
  · rintro rfl
    rfl

theorem isNaN_eq_false_iff {x : Binary f} : x.isNaN = false ↔ (x.code : Nat) ≤ f.infinity := by
  rw [isNaN, decide_eq_false_iff_not, not_lt]

theorem isFinite_iff {x : Binary f} : x.isFinite = true ↔ (x.code : Nat) < f.infinity := by
  rw [isFinite, decide_eq_true_eq]

theorem isNaN_of_isFinite {x : Binary f} (h : x.isFinite = true) : x.isNaN = false :=
  isNaN_eq_false_iff.mpr (isFinite_iff.mp h).le

/-! ## Order -/

theorem toRat_eq_signedUnits (x : Binary f) : x.toRat = x.signedUnits / 2 ^ f.scale := by
  unfold toRat signed signedUnits
  split
  · rw [Int.cast_neg, Int.cast_natCast, neg_div]
  · rw [Int.cast_natCast]

theorem signedUnits_le_signedUnits {x y : Binary f} :
    x.signedUnits ≤ y.signedUnits ↔ x.signedCode ≤ y.signedCode := by
  have hxy : x.units ≤ y.units ↔ (x.code : Nat) ≤ y.code := f.units_le_units
  have hyx : y.units ≤ x.units ↔ (y.code : Nat) ≤ x.code := f.units_le_units
  have hzero (c : Nat) : f.units c ≤ 0 ↔ c ≤ 0 := by
    have := f.units_le_units (c := c) (d := 0)
    rwa [f.units_zero] at this
  have hx : x.units ≤ 0 ↔ (x.code : Nat) ≤ 0 := hzero x.code
  have hy : y.units ≤ 0 ↔ (y.code : Nat) ≤ 0 := hzero y.code
  unfold signedUnits signedCode
  cases x.negative <;> cases y.negative <;> simp only [if_true, Bool.false_eq_true, if_false] <;>
    omega

theorem toRat_le_toRat {x y : Binary f} : x.toRat ≤ y.toRat ↔ x.signedCode ≤ y.signedCode := by
  have hs : (0 : ℚ) < 2 ^ f.scale := by positivity
  rw [toRat_eq_signedUnits, toRat_eq_signedUnits, div_le_div_iff_of_pos_right hs, Int.cast_le,
    signedUnits_le_signedUnits]

theorem lt_iff_toRat_lt {x y : Binary f} (hx : x.isNaN = false) (hy : y.isNaN = false) :
    x < y ↔ x.toRat < y.toRat := by
  have hlt : x < y ↔ !x.isNaN ∧ !y.isNaN ∧ x.signedCode < y.signedCode := Iff.rfl
  rw [hlt, hx, hy, ← not_le, ← not_le, toRat_le_toRat]
  simp

theorem le_iff_toRat_le {x y : Binary f} :
    x ≤ y ↔ x.isNaN = false ∧ y.isNaN = false ∧ x.toRat ≤ y.toRat := by
  have hle : x ≤ y ↔ !x.isNaN ∧ !y.isNaN ∧ x.signedCode ≤ y.signedCode := Iff.rfl
  rw [hle, toRat_le_toRat]
  simp

theorem beq_iff_toRat_eq {x y : Binary f} (hx : x.isNaN = false) (hy : y.isNaN = false) :
    x == y ↔ x.toRat = y.toRat := by
  have heq : x.toRat = y.toRat ↔ x.signedCode = y.signedCode := by
    rw [le_antisymm_iff, toRat_le_toRat, toRat_le_toRat, ← le_antisymm_iff]
  rw [beq_iff, heq]
  simp [hx, hy]

theorem toRat_clamp {x low high : Binary f} (hx : x.isNaN = false) (hlow : low.isNaN = false)
    (hhigh : high.isNaN = false) (h : low.toRat ≤ high.toRat) :
    (x.clamp low high).toRat = max low.toRat (min x.toRat high.toRat) := by
  rw [clamp]
  split
  · next hlt =>
    rw [lt_iff_toRat_lt hx hlow] at hlt
    rw [min_eq_left (hlt.le.trans h), max_eq_left hlt.le]
  · next hle =>
    rw [lt_iff_toRat_lt hx hlow, not_lt] at hle
    split
    · next hlt =>
      rw [lt_iff_toRat_lt hhigh hx] at hlt
      rw [min_eq_right hlt.le, max_eq_right h]
    · next hge =>
      rw [lt_iff_toRat_lt hhigh hx, not_lt] at hge
      rw [min_eq_left hge, max_eq_right hle]

theorem isNaN_clamp {x low high : Binary f} (hx : x.isNaN = false) (hlow : low.isNaN = false)
    (hhigh : high.isNaN = false) : (x.clamp low high).isNaN = false := by
  rw [clamp]
  split
  · exact hlow
  · split
    · exact hhigh
    · exact hx

theorem abs_toRat (x : Binary f) : |x.toRat| = x.units / 2 ^ f.scale := by
  rw [toRat, abs_signed]
  exact abs_of_nonneg (by positivity)

theorem nearestNat_eq_floor {x : Binary f} (h : 0 ≤ x.toRat) :
    x.nearestNat = ⌊x.toRat + 1 / 2⌋₊ := by
  have hvalue : x.toRat + 1 / 2 =
      ((2 * x.units + 2 ^ f.scale : Nat) : ℚ) / ((2 ^ (f.scale + 1) : Nat) : ℚ) := by
    rw [← abs_of_nonneg h, abs_toRat]
    push_cast
    field_simp
    ring
  rw [hvalue, Rat.natFloor_natCast_div_natCast, nearestNat]

/-! ## Nearest numbers -/

structure IsNearest (x : Binary f) (q : ℚ) : Prop where
  isNaN : x.isNaN = false
  abs_sub_le : ∀ y : Binary f, y.isNaN = false → |x.toRat - q| ≤ |y.toRat - q|
  even_of_tie : ∀ y : Binary f, y.isNaN = false → y.toRat ≠ x.toRat →
    |x.toRat - q| = |y.toRat - q| → (x.code : Nat) % 2 = 0

/-- The larger of two numbers is nearer exactly from their midpoint on. -/
theorem abs_sub_le_abs_sub_iff {a b q : ℚ} (h : a < b) : |b - q| ≤ |a - q| ↔ a + b ≤ 2 * q := by
  rw [← sq_le_sq]
  constructor <;> intro hle <;> nlinarith

theorem abs_sub_le_abs_sub_iff' {a b q : ℚ} (h : a < b) : |a - q| ≤ |b - q| ↔ 2 * q ≤ a + b := by
  rw [← sq_le_sq]
  constructor <;> intro hle <;> nlinarith

theorem abs_sub_eq_abs_sub_iff {a b q : ℚ} (h : a < b) : |a - q| = |b - q| ↔ a + b = 2 * q := by
  rw [le_antisymm_iff, abs_sub_le_abs_sub_iff' h, abs_sub_le_abs_sub_iff h, ← le_antisymm_iff,
    eq_comm]

namespace Format
variable {num den c d : Nat}

theorem units_add_mul_le_iff (hden : 0 < den) :
    (f.units d + f.units c) * den ≤ 2 * num ↔
      (f.units d + f.units c : ℚ) ≤ 2 * (num / den) := by
  have hpos : (0 : ℚ) < den := by exact_mod_cast hden
  rw [mul_div_assoc', le_div_iff₀ hpos]
  exact_mod_cast Iff.rfl

theorem two_mul_le_units_add_iff (hden : 0 < den) :
    2 * num ≤ (f.units c + f.units d) * den ↔
      2 * (num / den) ≤ (f.units c + f.units d : ℚ) := by
  have hpos : (0 : ℚ) < den := by exact_mod_cast hden
  rw [mul_div_assoc', div_le_iff₀ hpos]
  exact_mod_cast Iff.rfl

theorem IsNearest.units_add_le (hden : 0 < den) (hc : f.IsNearest num den c) (h : d < c) :
    (f.units d + f.units c : ℚ) ≤ 2 * (num / den) := by
  have hlow := (units_add_mul_le_iff hden).mp (hc.lower_le (Nat.zero_lt_of_lt h))
  have hle : (f.units d : ℚ) ≤ f.units (c - 1) := by
    exact_mod_cast f.units_le_units.mpr (Nat.le_sub_one_of_lt h)
  linarith

theorem IsNearest.le_units_add (hden : 0 < den) (hc : f.IsNearest num den c) (h : c < d)
    (hd : d ≤ f.infinity) : 2 * (num / den) ≤ (f.units c + f.units d : ℚ) := by
  have hup := (two_mul_le_units_add_iff hden).mp (hc.le_upper (h.trans_le hd))
  have hle : (f.units (c + 1) : ℚ) ≤ f.units d := by exact_mod_cast f.units_le_units.mpr h
  linarith

/-- No code up to infinity is nearer to the quotient than the nearest one. -/
theorem IsNearest.abs_sub_le (hden : 0 < den) (hc : f.IsNearest num den c)
    (hd : d ≤ f.infinity) : |(f.units c : ℚ) - num / den| ≤ |(f.units d : ℚ) - num / den| := by
  rcases lt_trichotomy d c with h | rfl | h
  · have hlt : (f.units d : ℚ) < f.units c := by exact_mod_cast f.units_lt_units h
    exact (abs_sub_le_abs_sub_iff hlt).mpr (hc.units_add_le hden h)
  · exact le_rfl
  · have hlt : (f.units c : ℚ) < f.units d := by exact_mod_cast f.units_lt_units h
    exact (abs_sub_le_abs_sub_iff' hlt).mpr (hc.le_units_add hden h hd)

theorem IsNearest.even_of_tie (hden : 0 < den) (hc : f.IsNearest num den c)
    (hd : d ≤ f.infinity) (hne : d ≠ c)
    (heq : |(f.units c : ℚ) - num / den| = |(f.units d : ℚ) - num / den|) : c % 2 = 0 := by
  rcases lt_or_gt_of_ne hne with h | h
  · have hlt : (f.units d : ℚ) < f.units c := by exact_mod_cast f.units_lt_units h
    have hle : (f.units d : ℚ) ≤ f.units (c - 1) := by
      exact_mod_cast f.units_le_units.mpr (Nat.le_sub_one_of_lt h)
    have hmid := (abs_sub_eq_abs_sub_iff hlt).mp heq.symm
    refine hc.even_of_lower_eq (by omega) (le_antisymm (hc.lower_le (by omega)) ?_)
    rw [two_mul_le_units_add_iff hden]
    linarith
  · have hlt : (f.units c : ℚ) < f.units d := by exact_mod_cast f.units_lt_units h
    have hle : (f.units (c + 1) : ℚ) ≤ f.units d := by exact_mod_cast f.units_le_units.mpr h
    have hmid := (abs_sub_eq_abs_sub_iff hlt).mp heq
    refine hc.even_of_eq_upper (by omega) (le_antisymm (hc.le_upper (by omega)) ?_)
    rw [units_add_mul_le_iff hden]
    linarith

/-- The codes next to a code are enough to show that it is nearest. -/
theorem isNearest_of_abs_sub_le (hden : 0 < den) (hc : c ≤ f.infinity)
    (hle : ∀ d ≤ f.infinity, |(f.units c : ℚ) - num / den| ≤ |(f.units d : ℚ) - num / den|)
    (htie : ∀ d ≤ f.infinity, d ≠ c →
      |(f.units c : ℚ) - num / den| = |(f.units d : ℚ) - num / den| → c % 2 = 0) :
    f.IsNearest num den c := by
  have hpred (h0 : 0 < c) : (f.units (c - 1) : ℚ) < f.units c := by
    exact_mod_cast f.units_lt_units (Nat.sub_one_lt_of_lt h0)
  have hsucc : (f.units c : ℚ) < f.units (c + 1) := by
    exact_mod_cast f.units_lt_units (Nat.lt_succ_self c)
  refine ⟨hc, fun h0 => ?_, fun h0 heq => ?_, fun h => ?_, fun h heq => ?_⟩
  · rw [units_add_mul_le_iff hden, ← abs_sub_le_abs_sub_iff (hpred h0)]
    exact hle _ (by omega)
  · apply htie (c - 1) (by omega) (by omega)
    rw [eq_comm, abs_sub_eq_abs_sub_iff (hpred h0)]
    exact le_antisymm ((units_add_mul_le_iff hden).mp heq.le)
      ((two_mul_le_units_add_iff hden).mp heq.ge)
  · rw [two_mul_le_units_add_iff hden, ← abs_sub_le_abs_sub_iff' hsucc]
    exact hle _ h
  · apply htie (c + 1) h (by omega)
    rw [abs_sub_eq_abs_sub_iff hsucc]
    exact le_antisymm ((units_add_mul_le_iff hden).mp heq.ge)
      ((two_mul_le_units_add_iff hden).mp heq.le)

end Format

@[simp] theorem toRat_zero (negative : Bool) : (zero negative : Binary f).toRat = 0 := by
  have hu : (zero negative : Binary f).units = 0 := f.units_zero
  simp [toRat, hu, signed]

theorem isNaN_zero (negative : Bool) : (zero negative : Binary f).isNaN = false :=
  isNaN_eq_false_iff.mpr (Nat.zero_le _)

/-- A number of the other sign is farther than zero. -/
theorem abs_toRat_sub_of_ne {y : Binary f} {negative : Bool} (h : y.negative ≠ negative) {q : ℚ}
    (hq : 0 ≤ q) : |y.toRat - signed negative q| = |y.toRat| + q := by
  have hu : (0 : ℚ) ≤ y.units / 2 ^ f.scale := by positivity
  cases negative with
  | false =>
    have hy : y.toRat = -(y.units / 2 ^ f.scale) := by simp_all [toRat, signed]
    rw [hy, signed, if_neg Bool.false_ne_true, abs_neg, abs_of_nonneg hu,
      abs_of_nonpos (by linarith)]
    ring
  | true =>
    have hy : y.toRat = y.units / 2 ^ f.scale := by simp_all [toRat, signed]
    rw [hy, signed, if_pos rfl, sub_neg_eq_add, abs_of_nonneg hu, abs_of_nonneg (by linarith)]

variable {num den : Nat}

/-- The distance to a quotient of the same sign. -/
theorem abs_toRat_sub (x : Binary f) :
    |x.toRat - signed x.negative (num / (2 ^ f.scale * den))| =
      |(x.units : ℚ) - num / den| / 2 ^ f.scale := by
  have hs : (0 : ℚ) < 2 ^ f.scale := by positivity
  rw [toRat, abs_signed_sub_signed, ← abs_of_pos hs, ← abs_div, abs_of_pos hs]
  congr 1
  rw [sub_div, div_div, mul_comm (den : ℚ)]

theorem isNearest_of_isNearest_code (hden : 0 < den) {x : Binary f}
    (h : f.IsNearest num den x.code) :
    x.IsNearest (signed x.negative (num / (2 ^ f.scale * den))) := by
  have hs : (0 : ℚ) < 2 ^ f.scale := by positivity
  have hq : (0 : ℚ) ≤ num / (2 ^ f.scale * den) := by positivity
  have same (y : Binary f) (hy : y.isNaN = false) (hsign : y.negative = x.negative) :
      |x.toRat - signed x.negative (num / (2 ^ f.scale * den))| ≤
        |y.toRat - signed x.negative (num / (2 ^ f.scale * den))| := by
    rw [abs_toRat_sub, ← hsign, abs_toRat_sub]
    exact div_le_div_of_nonneg_right (h.abs_sub_le hden (isNaN_eq_false_iff.mp hy)) hs.le
  have sameTie (y : Binary f) (hy : y.isNaN = false) (hsign : y.negative = x.negative)
      (hne : y ≠ x) (heq : |x.toRat - signed x.negative (num / (2 ^ f.scale * den))| =
        |y.toRat - signed x.negative (num / (2 ^ f.scale * den))|) : (x.code : Nat) % 2 = 0 := by
    rw [abs_toRat_sub, ← hsign, abs_toRat_sub] at heq
    refine h.even_of_tie hden (isNaN_eq_false_iff.mp hy) (fun hc => hne ?_)
      ((div_left_inj' hs.ne').mp heq)
    rw [← toRat_inj hsign, toRat, toRat, hsign, units, units, hc]
  have hzero := same (zero x.negative) (isNaN_zero _) rfl
  rw [toRat_zero, zero_sub, abs_neg, abs_signed, abs_of_nonneg hq] at hzero
  refine ⟨isNaN_eq_false_iff.mpr h.le_infinity, fun y hy => ?_, fun y hy hne heq => ?_⟩
  · by_cases hsign : y.negative = x.negative
    · exact same y hy hsign
    · rw [abs_toRat_sub_of_ne hsign hq]
      linarith [abs_nonneg y.toRat]
  · by_cases hsign : y.negative = x.negative
    · exact sameTie y hy hsign (fun hyx => hne (congrArg toRat hyx)) heq
    · rw [abs_toRat_sub_of_ne hsign hq] at heq
      have hy0 : y.toRat = 0 := abs_nonpos_iff.mp (by linarith)
      apply sameTie (zero x.negative) (isNaN_zero _) rfl
      · rintro hx
        rw [hy0, ← hx, toRat_zero] at hne
        exact hne rfl
      · rw [heq, hy0, toRat_zero, abs_zero, zero_add, zero_sub, abs_neg, abs_signed,
          abs_of_nonneg hq]

theorem isNearest_code (hden : 0 < den) {x : Binary f}
    (h : x.IsNearest (signed x.negative (num / (2 ^ f.scale * den)))) :
    f.IsNearest num den x.code := by
  have hs : (0 : ℚ) < 2 ^ f.scale := by positivity
  have sibling {d : Nat} (hd : d ≤ f.infinity) : ∃ y : Binary f, y.negative = x.negative ∧
      y.isNaN = false ∧ (y.code : Nat) = d ∧ y.units = f.units d :=
    ⟨⟨x.negative, d, hd.trans_lt f.infinity_lt⟩, rfl, isNaN_eq_false_iff.mpr hd, rfl, rfl⟩
  refine Format.isNearest_of_abs_sub_le hden (isNaN_eq_false_iff.mp h.isNaN) (fun d hd => ?_)
    fun d hd hne heq => ?_
  · obtain ⟨y, hsign, hy, -, hu⟩ := sibling hd
    have hle := h.abs_sub_le y hy
    rw [abs_toRat_sub, ← hsign, abs_toRat_sub, hu] at hle
    exact (div_le_div_iff_of_pos_right hs).mp hle
  · obtain ⟨y, hsign, hy, hc, hu⟩ := sibling hd
    apply h.even_of_tie y hy
    · rw [Ne, toRat_inj hsign]
      rintro rfl
      exact hne hc.symm
    · rw [abs_toRat_sub, ← hsign, abs_toRat_sub, hu, ← heq]
      rfl

theorem scaled_div (num den : Nat) :
    ((num * 2 ^ f.scale : Nat) : ℚ) / (2 ^ f.scale * den) = num / den := by
  rw [Nat.cast_mul, Nat.cast_pow, Nat.cast_ofNat, mul_comm (num : ℚ)]
  exact mul_div_mul_left _ _ (by positivity)

theorem isNearest_nearest (negative : Bool) (num : Nat) (hden : 0 < den) :
    (nearest negative num den : Binary f).IsNearest (signed negative (num / den)) := by
  have h := isNearest_of_isNearest_code hden (x := nearest negative num den)
    (f.isNearest_nearestCode (num * 2 ^ f.scale) hden)
  rwa [scaled_div] at h

/-- There is only one nearest number of a sign. -/
theorem IsNearest.eq_nearest (hden : 0 < den) {x : Binary f}
    (h : x.IsNearest (signed x.negative (num / den))) : x = nearest x.negative num den := by
  rw [← scaled_div (f := f)] at h
  have hc := (f.nearestCode_eq_iff _ hden).mpr (isNearest_code hden h)
  rw [nearest, nearestUnits]
  obtain ⟨s, c, _⟩ := x
  simp only [hc]

theorem nearest_eq_iff (hden : 0 < den) {negative : Bool} {x : Binary f} :
    nearest negative num den = x ↔
      x.negative = negative ∧ x.IsNearest (signed negative (num / den)) := by
  constructor
  · rintro rfl
    exact ⟨rfl, isNearest_nearest negative num hden⟩
  · rintro ⟨rfl, h⟩
    exact (h.eq_nearest hden).symm

/-- A number is the nearest one to itself. -/
theorem isNearest_toRat {x : Binary f} (h : x.isNaN = false) : x.IsNearest x.toRat := by
  refine ⟨h, fun y _ => ?_, fun y _ hne heq => ?_⟩
  · rw [sub_self, abs_zero]
    exact abs_nonneg _
  · rw [sub_self, abs_zero, eq_comm, abs_eq_zero, sub_eq_zero] at heq
    exact absurd heq hne

/-! Rounding does not leave a range between two numbers. -/

theorem IsNearest.toRat_le {x y : Binary f} {q : ℚ} (h : x.IsNearest q) (hy : y.isNaN = false)
    (hq : q ≤ y.toRat) : x.toRat ≤ y.toRat := by
  by_contra hlt
  have hdistance := h.abs_sub_le y hy
  rw [not_le] at hlt
  rw [abs_of_nonneg (by linarith), abs_of_nonneg (by linarith)] at hdistance
  linarith

theorem IsNearest.le_toRat {x y : Binary f} {q : ℚ} (h : x.IsNearest q) (hy : y.isNaN = false)
    (hq : y.toRat ≤ q) : y.toRat ≤ x.toRat := by
  by_contra hlt
  have hdistance := h.abs_sub_le y hy
  rw [not_le] at hlt
  rw [abs_of_nonpos (by linarith), abs_of_nonpos (by linarith)] at hdistance
  linarith

end PointSymbol.Binary
