import Mathlib.Data.Int.Log
import PointSymbol.Proofs.Binary.Rounding
import PointSymbol.Proofs.Decimal.Coarsest
import PointSymbol.Proofs.Decimal.Precision

/-!
# Shortest decimals

The decimal of a finite number reads back as the number and has the least precision of all that do
(`precision_ofBinary_le`), for doubles at most seventeen digits. `abs_sub_ofBinary_le`: of the
decimals with that precision that read back as a double it is nearest to the double.
-/

namespace PointSymbol.Decimal
open Binary (Format abs_floor_add_half_sub_le)
variable {f : Format} {x : Binary f}

/-! ## The number of digits -/

/-- Rounding a magnitude to `p + 1` digits. -/
theorem exists_abs_sub_le {v : ℚ} (hv : 0 < v) (p : ℕ) : ∃ (m : ℕ) (k : ℤ), m ≤ 10 ^ (p + 1) ∧
    (10 ^ p * 10 ^ k : ℚ) ≤ v ∧ |(m * 10 ^ k : ℚ) - v| ≤ 10 ^ k / 2 := by
  have hlow : (10 ^ Int.log 10 v : ℚ) ≤ v := by
    exact_mod_cast Int.zpow_log_le_self (b := 10) (by decide) hv
  have hhigh : v < (10 ^ (Int.log 10 v + 1) : ℚ) := by
    exact_mod_cast Int.lt_zpow_succ_log_self (b := 10) (by decide) v
  obtain ⟨k, hk⟩ : ∃ k : ℤ, Int.log 10 v = p + k := ⟨Int.log 10 v - p, by omega⟩
  have hpos : (0 : ℚ) < 10 ^ k := by positivity
  rw [hk, zpow_add₀ (by norm_num), zpow_natCast] at hlow
  rw [hk, add_right_comm, zpow_add₀ (by norm_num), ← Nat.cast_add_one, zpow_natCast] at hhigh
  have hround := abs_floor_add_half_sub_le (q := v / 10 ^ k) (by positivity)
  refine ⟨⌊v / 10 ^ k + 1 / 2⌋₊, k, ?_, hlow, ?_⟩
  · rw [← Nat.lt_succ_iff, Nat.floor_lt (by positivity)]
    have hlt := (div_lt_iff₀ hpos).mpr hhigh
    push_cast
    linarith
  · calc |(⌊v / 10 ^ k + 1 / 2⌋₊ * 10 ^ k : ℚ) - v|
        = |(⌊v / 10 ^ k + 1 / 2⌋₊ : ℚ) - v / 10 ^ k| * 10 ^ k := by
          rw [← abs_of_pos hpos, ← abs_mul, abs_of_pos hpos, sub_mul, div_mul_cancel₀ _ hpos.ne']
      _ ≤ 1 / 2 * 10 ^ k := mul_le_mul_of_nonneg_right hround hpos.le
      _ = 10 ^ k / 2 := by ring

/-- Where powers of ten with `p` zeros exceed the significands of the format, `p + 1` digits are
enough. -/
theorem exists_mem_cell {p : ℕ} (hzero : x.isZero = false) (hp : 2 ^ (f.fraction + 1) < 10 ^ p) :
    ∃ (m : ℕ) (k : ℤ), m < 10 ^ (p + 1) ∧ (m * 10 ^ k : ℚ) ∈ x.cell := by
  obtain ⟨m, k, hm, hlow, hclose⟩ := exists_abs_sub_le (Binary.magnitude_pos hzero) p
  have hmem : (m * 10 ^ k : ℚ) ∈ x.cell := by
    have hs : (0 : ℚ) < 2 ^ f.scale := by positivity
    have hk : (0 : ℚ) < 10 ^ k := by positivity
    have hp' : (2 ^ (f.fraction + 1) : ℚ) < 10 ^ p := by exact_mod_cast hp
    apply Format.cell_of_abs_sub_lt
    calc |(m * 10 ^ k * 2 ^ f.scale : ℚ) - x.units| * 2 ^ (f.fraction + 2)
        = |(m * 10 ^ k : ℚ) - x.magnitude| * 2 ^ f.scale * 2 ^ (f.fraction + 2) := by
          rw [← x.magnitude_mul, ← sub_mul, abs_mul, abs_of_pos hs]
      _ ≤ 10 ^ k / 2 * 2 ^ f.scale * 2 ^ (f.fraction + 2) := by gcongr
      _ = 2 ^ (f.fraction + 1) * 10 ^ k * 2 ^ f.scale := by ring
      _ < 10 ^ p * 10 ^ k * 2 ^ f.scale := by gcongr
      _ ≤ x.magnitude * 2 ^ f.scale := mul_le_mul_of_nonneg_right hlow hs.le
      _ = x.units := x.magnitude_mul
  rcases Nat.lt_or_eq_of_le hm with hlt | rfl
  · exact ⟨m, k, hlt, hmem⟩
  · refine ⟨1, p + 1 + k, Nat.one_lt_pow (Nat.succ_ne_zero p) (by decide), ?_⟩
    rw [Nat.cast_one, one_mul, zpow_add₀ (by norm_num)]
    exact_mod_cast hmem

theorem precision_ofBinary_le {d : Decimal} (hx : x.isFinite) (hzero : x.isZero = false)
    (h : d.toBinary f = x) : (ofBinary x).precision ≤ d.precision := by
  have hmem := ((toBinary_eq_iff_mem_cell hx).mp h).2
  obtain ⟨m, hm, k, hk⟩ := precision_le_iff.mp (le_refl d.precision)
  rw [hk] at hmem
  have hlt := (coarsest_ofBinary hx hzero).lt_pow x.ordConnected_cell
    (fun _ => Binary.pos_of_mem_cell hzero) hmem hm
  exact precision_le_iff.mpr ⟨_, hlt, _, rfl⟩

theorem precision_ofBinary_le_succ {p : ℕ} (hx : x.isFinite) (hzero : x.isZero = false)
    (hp : 2 ^ (f.fraction + 1) < 10 ^ p) : (ofBinary x).precision ≤ p + 1 := by
  obtain ⟨m, k, hm, hmem⟩ := exists_mem_cell hzero hp
  have hlt := (coarsest_ofBinary hx hzero).lt_pow x.ordConnected_cell
    (fun _ => Binary.pos_of_mem_cell hzero) hmem hm
  exact precision_le_iff.mpr ⟨_, hlt, _, rfl⟩

/-- The digits of the decimal are as many as its precision: none is a zero at the end. -/
theorem pow_le_digits_ofBinary (hx : x.isFinite) (hzero : x.isZero = false) :
    10 ^ ((ofBinary x).precision - 1) ≤ (ofBinary x).digits := by
  by_contra hlt
  rw [not_le] at hlt
  have hle := precision_le_iff.mpr ⟨_, hlt, _, rfl⟩
  have hpos := Binary.pos_of_mem_cell hzero (coarsest_ofBinary hx hzero).mem
  have hdigits : (ofBinary x).digits = 0 := by
    rwa [show (ofBinary x).precision - 1 = 0 by omega, pow_zero, Nat.lt_one_iff] at hlt
  rw [hdigits, Nat.cast_zero, zero_mul] at hpos
  exact lt_irrefl 0 hpos

/-! ## Nearness -/

/-- Bounds between naturals, in which the powers need not be written out. -/
theorem zpow_mul_bounds {a b d n m : ℕ} (hd : 0 < d) (hlow : a * 10 ^ n < d * 2 ^ m)
    (hhigh : d * 2 ^ m < b * 10 ^ n) :
    (a / d : ℚ) < 10 ^ (-n : ℤ) * 2 ^ m ∧ (10 ^ (-n : ℤ) * 2 ^ m : ℚ) < b / d := by
  have hlow' : (a * 10 ^ n : ℚ) < d * 2 ^ m := by exact_mod_cast hlow
  have hhigh' : (d * 2 ^ m : ℚ) < b * 10 ^ n := by exact_mod_cast hhigh
  rw [zpow_neg, zpow_natCast, inv_mul_eq_div, div_lt_div_iff₀ (by positivity) (by positivity),
    div_lt_div_iff₀ (by positivity) (by positivity)]
  constructor
  · linarith
  · linarith

/-- Of the powers of ten in doubles, one is a little more than twice the least double. -/
theorem mul_zpow_le_of_mem_cell {x : Double} {k : ℤ} (hzero : x.isZero = false)
    (h : (10 ^ k : ℚ) ∈ x.cell) (hlt : x.magnitude < 10 ^ k) :
    (95 * 10 ^ k : ℚ) ≤ 100 * x.magnitude := by
  have hlow : 202 * 10 ^ 323 < 100 * 2 ^ 1074 := by decide +kernel
  have hhigh : 100 * 2 ^ 1074 < 203 * 10 ^ 323 := by decide +kernel
  obtain ⟨hlow, hhigh⟩ := zpow_mul_bounds (by decide) hlow hhigh
  have hscale : Binary.Format.double.scale = 1074 := rfl
  rw [← hscale] at hlow hhigh
  have hs : (0 : ℚ) < 2 ^ Binary.Format.double.scale := by positivity
  generalize hc : (10 ^ (-(323 : ℕ) : ℤ) * 2 ^ Binary.Format.double.scale : ℚ) = c at hlow hhigh
  have hpow : (10 ^ k * 2 ^ Binary.Format.double.scale : ℚ) = 10 ^ (k + (323 : ℕ)) * c := by
    rw [← hc, ← mul_assoc, ← zpow_add₀ (by norm_num), add_neg_cancel_right]
  have hcell : Binary.Format.double.Cell x.code (10 ^ (k + (323 : ℕ)) * c) := by
    rw [← hpow]
    exact h
  have hunits : (Binary.Format.double.units x.code : ℚ) < 10 ^ (k + (323 : ℕ)) * c := by
    rw [← hpow, ← Binary.units, ← x.magnitude_mul]
    exact mul_lt_mul_of_pos_right hlt hs
  have hle := hcell.mul_zpow_le (Binary.code_pos hzero) hunits (by exact_mod_cast hlow)
    (by exact_mod_cast hhigh) (by decide)
  rw [← hpow, ← Binary.units, ← x.magnitude_mul, ← mul_assoc, ← mul_assoc] at hle
  exact le_of_mul_le_mul_right hle hs

theorem abs_sub_toRat {d : Decimal} (h : x.negative = d.negative) :
    |d.toRat - x.toRat| = |(d.digits * 10 ^ d.exponent : ℚ) - x.magnitude| := by
  rw [toRat, ← h]
  exact Binary.abs_signed_sub_signed _ _ _

theorem abs_sub_ofBinary_le {x : Double} {d : Decimal} (hx : x.isFinite) (hzero : x.isZero = false)
    (h : d.toBinary .double = x) (hp : d.precision ≤ (ofBinary x).precision) :
    |(ofBinary x).toRat - x.toRat| ≤ |d.toRat - x.toRat| := by
  obtain ⟨hsign, hmem⟩ := (toBinary_eq_iff_mem_cell hx).mp h
  obtain ⟨hsign', -⟩ := (toBinary_eq_iff_mem_cell hx).mp (toBinary_ofBinary hx)
  rw [abs_sub_toRat hsign, abs_sub_toRat hsign']
  obtain ⟨m, hm, k, hk⟩ := precision_le_iff.mp hp
  rw [hk] at hmem ⊢
  have hm' : m < 10 ^ ((ofBinary x).precision - 1 + 1) :=
    hm.trans_le (Nat.pow_le_pow_right (by decide) (by omega))
  exact (coarsest_ofBinary hx hzero).abs_sub_le x.ordConnected_cell
    (mul_zpow_le_of_mem_cell hzero) hmem hm' (pow_le_digits_ofBinary hx hzero)

end PointSymbol.Decimal
