import PointSymbol.Proofs.Binary.Agreement
import PointSymbol.Proofs.Binary.Cell
import PointSymbol.Proofs.Decimal.Value

/-!
# Coarsest grids

A grid holds the natural multiples of a power of ten. `coarsest_ofBinary`: the decimal of a finite
number stands on the coarsest grid with a point that reads back as the number, and is the nearest
such point of the grid. Since the points that read back lie without a gap, it has the fewest digits
(`Coarsest.lt_pow`), and no decimal with as few digits is nearer to the number
(`Coarsest.abs_sub_le`).
-/

namespace PointSymbol

namespace Binary
variable {f : Format} {x : Binary f}

def magnitude (x : Binary f) : ℚ := x.units / 2 ^ f.scale

/-- The magnitudes that round to the magnitude of the number. -/
def cell (x : Binary f) : Set ℚ := {q | f.Cell x.code (q * 2 ^ f.scale)}

theorem ordConnected_cell (x : Binary f) : x.cell.OrdConnected := by
  have hs : (0 : ℚ) ≤ 2 ^ f.scale := by positivity
  refine ⟨fun p hp r hr q hq => ?_⟩
  exact Format.Cell.between hp hr (mul_le_mul_of_nonneg_right hq.1 hs)
    (mul_le_mul_of_nonneg_right hq.2 hs)

theorem magnitude_mul (x : Binary f) : x.magnitude * 2 ^ f.scale = x.units :=
  div_mul_cancel₀ _ (by positivity)

theorem code_pos (h : x.isZero = false) : 0 < (x.code : ℕ) := by
  rw [Nat.pos_iff_ne_zero, ne_eq, ← isZero_iff, h]
  exact Bool.false_ne_true

theorem magnitude_pos (h : x.isZero = false) : 0 < x.magnitude :=
  div_pos (Nat.cast_pos.mpr (units_pos_of_not_isZero h)) (by positivity)

theorem pos_of_mem_cell (h : x.isZero = false) {q : ℚ} (hq : q ∈ x.cell) : 0 < q :=
  pos_of_mul_pos_left (Format.Cell.pos hq (code_pos h)) (by positivity)

theorem nearestUnits_eq_iff {num den : ℕ} {negative : Bool} (hden : 0 < den) (hx : x.isFinite) :
    nearestUnits negative num den = x ↔ x.negative = negative ∧ f.Cell x.code (num / den) := by
  rw [← Format.isNearest_iff_cell hden (isFinite_iff.mp hx), ← f.nearestCode_eq_iff _ hden]
  obtain ⟨s, c, hc⟩ := x
  rw [nearestUnits, Binary.mk.injEq, Fin.mk.injEq, eq_comm (a := s)]

end Binary

namespace Decimal
open Binary (Format nearestUnits)
variable {f : Format} {x : Binary f} {code w k n m : ℕ}

theorem toBinary_eq_iff_mem_cell {d : Decimal} (hx : x.isFinite) :
    d.toBinary f = x ↔ x.negative = d.negative ∧ (d.digits * 10 ^ d.exponent : ℚ) ∈ x.cell := by
  obtain ⟨negative, n, e⟩ := d
  cases e with
  | ofNat e =>
    rw [toBinary_ofNat, Binary.nearest, Binary.nearestUnits_eq_iff Nat.one_pos hx]
    simp [Binary.cell]
  | negSucc e =>
    rw [toBinary_negSucc, Binary.nearest, Binary.nearestUnits_eq_iff (Nat.pow_pos (by decide)) hx]
    simp [Binary.cell, zpow_negSucc, div_eq_mul_inv, mul_right_comm]

/-! ## Grids -/

/-- `n * 10 ^ k` is on the coarsest grid that meets the set, and there the nearest point to `v`. -/
structure Coarsest (s : Set ℚ) (v : ℚ) (n : ℕ) (k : ℤ) : Prop where
  mem : (n * 10 ^ k : ℚ) ∈ s
  le_of_mem : ∀ (m : ℕ) (j : ℤ), (m * 10 ^ j : ℚ) ∈ s → j ≤ k
  nearest : ∀ m : ℕ, (m * 10 ^ k : ℚ) ∈ s → |(n * 10 ^ k : ℚ) - v| ≤ |(m * 10 ^ k : ℚ) - v|

namespace Coarsest
variable {s : Set ℚ} {v : ℚ} {n m p : ℕ} {k j : ℤ}

/-- A power of ten between two points of the set belongs to it and is a grid point, so no zeros fit
between the power and the coarsest grid. -/
theorem eq_zero_of_le (h : Coarsest s v n k) (hs : s.OrdConnected) (hm : (m * 10 ^ j : ℚ) ∈ s)
    (hle : (m * 10 ^ j : ℚ) ≤ 10 ^ p * 10 ^ k) (hn : 10 ^ p ≤ n) :
    p = 0 ∧ (10 ^ k : ℚ) ∈ s := by
  have hle' : (10 ^ p * 10 ^ k : ℚ) ≤ n * 10 ^ k :=
    mul_le_mul_of_nonneg_right (by exact_mod_cast hn) (by positivity)
  have hpow := hs.out hm h.mem ⟨hle, hle'⟩
  have hgrid : ((1 : ℕ) * 10 ^ (p + k) : ℚ) ∈ s := by
    rwa [Nat.cast_one, one_mul, zpow_add₀ (by norm_num), zpow_natCast]
  have hzero : p = 0 := by
    have hk := h.le_of_mem _ _ hgrid
    omega
  refine ⟨hzero, ?_⟩
  rwa [hzero, pow_zero, one_mul] at hpow

/-- The coarsest point has the fewest digits. -/
theorem lt_pow (h : Coarsest s v n k) (hs : s.OrdConnected) (hpos : ∀ q ∈ s, 0 < q)
    (hm : (m * 10 ^ j : ℚ) ∈ s) (hlt : m < 10 ^ p) : n < 10 ^ p := by
  by_contra hn
  rw [not_lt] at hn
  have hle : (m * 10 ^ j : ℚ) ≤ 10 ^ p * 10 ^ k := by
    apply mul_le_mul (by exact_mod_cast hlt.le) _ (by positivity) (by positivity)
    exact zpow_le_zpow_right₀ (by norm_num) (h.le_of_mem m j hm)
  obtain ⟨rfl, -⟩ := h.eq_zero_of_le hs hm hle hn
  obtain rfl : m = 0 := Nat.lt_one_iff.mp hlt
  have hzero := hpos _ hm
  rw [Nat.cast_zero, zero_mul] at hzero
  exact lt_irrefl 0 hzero

/-- A point of a finer grid with as few digits is not nearer. A power of ten separates it from the
coarsest point, which therefore has one digit, and the power is not much more than `v`. -/
theorem abs_sub_le (h : Coarsest s v n k) (hs : s.OrdConnected)
    (hclose : (10 ^ k : ℚ) ∈ s → v < 10 ^ k → (95 * 10 ^ k : ℚ) ≤ 100 * v)
    (hm : (m * 10 ^ j : ℚ) ∈ s) (hlt : m < 10 ^ (p + 1)) (hn : 10 ^ p ≤ n) :
    |(n * 10 ^ k : ℚ) - v| ≤ |(m * 10 ^ j : ℚ) - v| := by
  rcases (h.le_of_mem m j hm).lt_or_eq with hjk | rfl
  · have hstep : (10 * 10 ^ j : ℚ) ≤ 10 ^ k := by
      rw [← zpow_one_add₀ (by norm_num)]
      exact zpow_le_zpow_right₀ (by norm_num) (by omega)
    have hj : (0 : ℚ) < 10 ^ j := by positivity
    have hle : (m * 10 ^ j : ℚ) ≤ 10 ^ p * 10 ^ k := by
      calc (m * 10 ^ j : ℚ) ≤ 10 ^ (p + 1) * 10 ^ j :=
            mul_le_mul_of_nonneg_right (by exact_mod_cast hlt.le) hj.le
        _ = 10 ^ p * (10 * 10 ^ j) := by ring
        _ ≤ 10 ^ p * 10 ^ k := mul_le_mul_of_nonneg_left hstep (by positivity)
    obtain ⟨rfl, hpow⟩ := h.eq_zero_of_le hs hm hle hn
    have hnear := h.nearest 1 (by rwa [Nat.cast_one, one_mul])
    have hnine : (m : ℚ) ≤ 9 := by exact_mod_cast Nat.le_of_lt_succ hlt
    have hpoint : (m * 10 ^ j : ℚ) ≤ 9 * 10 ^ j := mul_le_mul_of_nonneg_right hnine hj.le
    rw [Nat.cast_one, one_mul] at hnear
    -- the coarsest point is as near as the power, and the power is as near as the finer point
    apply hnear.trans
    by_cases hv : v < 10 ^ k
    · have hv' := hclose hpow hv
      rw [abs_of_nonneg (by linarith), abs_of_nonpos (by linarith)]
      linarith
    · rw [not_lt] at hv
      rw [abs_of_nonpos (by linarith), abs_of_nonpos (by linarith)]
      linarith
  · exact h.nearest m hm

end Coarsest

/-! ## The search -/

theorem readsBack_iff : readsBack f code k n ↔ f.nearestCode (n * 10 ^ k) (5 ^ f.scale) = code := by
  rw [readsBack, decide_eq_true_eq]

theorem readsBack_of_between {a b : ℕ} (ha : f.nearestCode a (5 ^ f.scale) = code)
    (hb : f.nearestCode b (5 ^ f.scale) = code) (han : a ≤ n * 10 ^ k) (hnb : n * 10 ^ k ≤ b) :
    readsBack f code k n := by
  have hpos : 0 < 5 ^ f.scale := Nat.pow_pos (by decide)
  rw [readsBack_iff]
  apply le_antisymm
  · rw [← hb]
    exact f.nearestCode_mono hpos hpos (Nat.mul_le_mul_right _ hnb)
  · rw [← ha]
    exact f.nearestCode_mono hpos hpos (Nat.mul_le_mul_right _ han)

/-- If a point of a grid reads back, then so does a neighbour of the number, and the one that is
found is not farther than the point. -/
theorem exists_find?_neighbours (hw : f.nearestCode w (5 ^ f.scale) = code)
    (hm : readsBack f code k m) : ∃ n, (neighbours w k).find? (readsBack f code k) = some n ∧
      ((n * 10 ^ k : ℕ) - w : ℤ).natAbs ≤ ((m * 10 ^ k : ℕ) - w : ℤ).natAbs := by
  have hdiv := Nat.div_add_mod' w (10 ^ k)
  have hmod := Nat.mod_lt w (show 0 < 10 ^ k from Nat.pow_pos (by decide))
  have hsucc : (w / 10 ^ k + 1) * 10 ^ k = w / 10 ^ k * 10 ^ k + 10 ^ k := Nat.succ_mul _ _
  have hside : m * 10 ^ k ≤ w / 10 ^ k * 10 ^ k ∨ (w / 10 ^ k + 1) * 10 ^ k ≤ m * 10 ^ k := by
    rcases Nat.lt_or_ge (w / 10 ^ k) m with h | h
    · exact .inr (Nat.mul_le_mul_right _ h)
    · exact .inl (Nat.mul_le_mul_right _ h)
  have hlower (h : m * 10 ^ k ≤ w / 10 ^ k * 10 ^ k) : readsBack f code k (w / 10 ^ k) :=
    readsBack_of_between (readsBack_iff.mp hm) hw h (by omega)
  have hupper (h : (w / 10 ^ k + 1) * 10 ^ k ≤ m * 10 ^ k) : readsBack f code k (w / 10 ^ k + 1) :=
    readsBack_of_between hw (readsBack_iff.mp hm) (by omega) h
  rw [neighbours]
  generalize w / 10 ^ k = below at *
  by_cases hnear : 2 * (w % 10 ^ k) < 10 ^ k
  · rw [if_pos hnear]
    by_cases hbelow : readsBack f code k below
    · refine ⟨below, List.find?_cons_of_pos hbelow, ?_⟩
      omega
    · have hle := hside.resolve_left fun h => hbelow (hlower h)
      refine ⟨below + 1, ?_, ?_⟩
      · rw [List.find?_cons_of_neg hbelow, List.find?_cons_of_pos (hupper hle)]
      · omega
  · rw [if_neg hnear]
    by_cases habove : readsBack f code k (below + 1)
    · refine ⟨below + 1, List.find?_cons_of_pos habove, ?_⟩
      omega
    · have hle := hside.resolve_right fun h => habove (hupper h)
      refine ⟨below, ?_, ?_⟩
      · rw [List.find?_cons_of_neg habove, List.find?_cons_of_pos (hlower hle)]
      · omega

/-- A point of the coarsest grid up to the `k`th on which one reads back, and there the nearest. -/
structure IsShortened (f : Format) (code w k : ℕ) (r : ℕ × ℕ) : Prop where
  le : r.2 ≤ k
  not_readsBack : ∀ j m, r.2 < j → j ≤ k → ¬readsBack f code j m
  nearest : ∀ m, readsBack f code r.2 m →
    ((r.1 * 10 ^ r.2 : ℕ) - w : ℤ).natAbs ≤ ((m * 10 ^ r.2 : ℕ) - w : ℤ).natAbs

theorem isShortened_shorten (hw : f.nearestCode w (5 ^ f.scale) = code) (k : ℕ) :
    IsShortened f code w k (shorten f code w k) := by
  induction k with
  | zero =>
    refine ⟨le_rfl, fun j m hj hj' => absurd hj (not_lt_of_ge hj'), fun m _ => ?_⟩
    rw [shorten, pow_zero, mul_one, sub_self]
    exact Nat.zero_le _
  | succ k ih =>
    rw [shorten]
    split
    · next n hn =>
      refine ⟨le_rfl, fun j m hj hj' => absurd hj (not_lt_of_ge hj'), fun m hm => ?_⟩
      obtain ⟨n', hn', hle⟩ := exists_find?_neighbours hw hm
      rw [hn] at hn'
      obtain rfl := Option.some.inj hn'
      exact hle
    · next hnone =>
      refine ⟨ih.le.trans (Nat.le_succ k), fun j m hj hj' hm => ?_, ih.nearest⟩
      rcases Nat.lt_or_eq_of_le hj' with hlt | rfl
      · exact ih.not_readsBack j m hj (Nat.le_of_lt_succ hlt) hm
      · obtain ⟨n, hn, -⟩ := exists_find?_neighbours hw hm
        rw [hnone] at hn
        cases hn

/-- The first grid is coarse enough. -/
theorem not_readsBack_of_length_lt (hcode : code < f.infinity) (hpos : 0 < code)
    (h : (Nat.toDigits 10 (f.units code * 5 ^ f.scale)).length < k) :
    ¬readsBack f code k m := by
  intro hm
  have hden : 0 < 5 ^ f.scale := Nat.pow_pos (by decide)
  rw [readsBack_iff, f.nearestCode_eq_iff _ hden, Format.isNearest_iff_cell hden hcode] at hm
  have hlength := List.length_pos_iff.mpr
    (Nat.toDigits_ne_nil (b := 10) (n := f.units code * 5 ^ f.scale))
  have hlt : f.units code * 5 ^ f.scale < 10 ^ (k - 1) :=
    (Nat.length_toDigits_le_iff (by decide) (by omega)).mp (by omega)
  have hpow : 10 ^ k = 10 * 10 ^ (k - 1) := by
    rw [← pow_succ', Nat.sub_add_cancel (by omega)]
  have hmpos : 0 < m := by
    by_contra hzero
    have hq := hm.pos hpos
    rw [Nat.eq_zero_of_not_pos hzero, zero_mul, Nat.cast_zero, zero_div] at hq
    exact lt_irrefl 0 hq
  have hle : 2 * (m * 10 ^ k) ≤ 3 * (f.units code * 5 ^ f.scale) := by
    have hle := hm.le_units hpos
    rw [mul_div_assoc', div_le_iff₀ (by positivity)] at hle
    rw [← mul_assoc 3]
    exact_mod_cast hle
  have hge := Nat.le_mul_of_pos_left (10 ^ k) hmpos
  omega

/-! ## The decimal of a number -/

theorem toBinary_eq_iff_readsBack :
    toBinary f ⟨x.negative, n, k - f.scale⟩ = x ↔ readsBack f x.code k n := by
  rw [toBinary_sub_scale, readsBack_iff]
  obtain ⟨s, c, hc⟩ := x
  rw [nearestUnits, Binary.mk.injEq, Fin.mk.injEq]
  exact and_iff_right rfl

theorem mem_cell_iff_readsBack (hx : x.isFinite) :
    (n * 10 ^ (k - f.scale : ℤ) : ℚ) ∈ x.cell ↔ readsBack f x.code k n := by
  rw [← toBinary_eq_iff_readsBack, toBinary_eq_iff_mem_cell hx]
  exact (and_iff_right rfl).symm

/-- Distances to the number in steps of the finest grid. -/
theorem abs_sub_magnitude (x : Binary f) (n k : ℕ) :
    |(n * 10 ^ (k - f.scale : ℤ) : ℚ) - x.magnitude| =
      ((n * 10 ^ k : ℕ) - (x.units * 5 ^ f.scale : ℕ) : ℤ).natAbs / 10 ^ f.scale := by
  have hten : (0 : ℚ) < 10 ^ f.scale := by positivity
  have hpow : (10 : ℚ) ^ f.scale = 2 ^ f.scale * 5 ^ f.scale := by
    rw [← mul_pow]
    norm_num
  rw [Nat.cast_natAbs, Int.cast_abs, ← abs_of_pos hten, ← abs_div]
  congr 1
  push_cast
  rw [Binary.magnitude, zpow_sub₀ (by norm_num), zpow_natCast, zpow_natCast, sub_div,
    mul_div_assoc', hpow, mul_div_mul_right _ _ (by positivity)]

theorem ofBinary_eq (hzero : x.isZero = false) :
    let r := shorten f x.code (x.units * 5 ^ f.scale)
      (Nat.toDigits 10 (x.units * 5 ^ f.scale)).length
    ofBinary x = ⟨x.negative, r.1, r.2 - f.scale⟩ := by
  rw [ofBinary, hzero]
  rfl

theorem coarsest_ofBinary (hx : x.isFinite) (hzero : x.isZero = false) :
    Coarsest x.cell x.magnitude (ofBinary x).digits (ofBinary x).exponent := by
  have hcode := Binary.isFinite_iff.mp hx
  have hw : f.nearestCode (x.units * 5 ^ f.scale) (5 ^ f.scale) = x.code :=
    f.nearestCode_units (Nat.pow_pos (by decide)) hcode.le
  have h := isShortened_shorten hw (Nat.toDigits 10 (x.units * 5 ^ f.scale)).length
  have hmem := ((toBinary_eq_iff_mem_cell hx).mp (toBinary_ofBinary hx)).2
  have heq := ofBinary_eq hzero
  rw [heq] at hmem ⊢
  refine ⟨hmem, fun m j hm => ?_, fun m hm => ?_⟩
  · by_contra hlt
    rw [not_le] at hlt
    dsimp only at hlt
    obtain ⟨l, rfl⟩ : ∃ l : ℕ, j = l - f.scale := ⟨(j + f.scale).toNat, by omega⟩
    rw [mem_cell_iff_readsBack hx] at hm
    rcases Nat.lt_or_ge (Nat.toDigits 10 (x.units * 5 ^ f.scale)).length l with hlength | hlength
    · exact not_readsBack_of_length_lt hcode (Binary.code_pos hzero) hlength hm
    · exact h.not_readsBack l m (by omega) hlength hm
  · rw [mem_cell_iff_readsBack hx] at hm
    rw [abs_sub_magnitude, abs_sub_magnitude]
    apply div_le_div_of_nonneg_right _ (by positivity)
    exact_mod_cast h.nearest m hm

end Decimal

end PointSymbol
