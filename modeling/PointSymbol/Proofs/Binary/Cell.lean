import PointSymbol.Proofs.Binary.Value

/-!
# Cells of binary numbers

The cell of a code holds the magnitudes, in multiples of the least positive one, that round to it.
It reaches to the midpoints of the neighbours, which belong to it if the code is even. Cells are
convex (`Cell.between`), and `cell_of_abs_sub_lt` and `Cell.mul_le` say how wide they are.
-/

namespace PointSymbol.Binary

namespace Format

structure Cell (f : Format) (code : ℕ) (q : ℚ) : Prop where
  lower_le : (f.units (code - 1) + f.units code : ℚ) ≤ 2 * q
  even_of_lower_eq : (f.units (code - 1) + f.units code : ℚ) = 2 * q → code % 2 = 0
  le_upper : 2 * q ≤ f.units code + f.units (code + 1)
  even_of_eq_upper : 2 * q = f.units code + f.units (code + 1) → code % 2 = 0

variable {f : Format} {code num den : ℕ} {k : ℤ} {c p q r : ℚ}

theorem isNearest_iff_cell (hden : 0 < den) (hcode : code < f.infinity) :
    f.IsNearest num den code ↔ f.Cell code (num / den) := by
  have hlower : (f.units (code - 1) + f.units code) * den ≤ 2 * num ↔ _ :=
    units_add_mul_le_iff hden
  have hlower' : 2 * num ≤ (f.units (code - 1) + f.units code) * den ↔ _ :=
    two_mul_le_units_add_iff hden
  have hupper : 2 * num ≤ (f.units code + f.units (code + 1)) * den ↔ _ :=
    two_mul_le_units_add_iff hden
  have hupper' : (f.units code + f.units (code + 1)) * den ≤ 2 * num ↔ _ :=
    units_add_mul_le_iff hden
  constructor
  · intro h
    refine ⟨?_, fun heq => ?_, hupper.mp (h.le_upper hcode), fun heq => ?_⟩
    · cases code with
      | zero =>
        rw [f.units_zero, Nat.cast_zero, add_zero]
        positivity
      | succ code => exact hlower.mp (h.lower_le code.succ_pos)
    · cases code with
      | zero => rfl
      | succ code =>
        exact h.even_of_lower_eq code.succ_pos
          (le_antisymm (hlower.mpr heq.le) (hlower'.mpr heq.ge))
    · exact h.even_of_eq_upper hcode (le_antisymm (hupper.mpr heq.le) (hupper'.mpr heq.ge))
  · intro h
    refine ⟨hcode.le, fun _ => hlower.mpr h.lower_le, fun _ heq => ?_,
      fun _ => hupper.mpr h.le_upper, fun _ heq => ?_⟩
    · exact h.even_of_lower_eq (le_antisymm (hlower.mp heq.le) (hlower'.mp heq.ge))
    · exact h.even_of_eq_upper (le_antisymm (hupper.mp heq.le) (hupper'.mp heq.ge))

theorem Cell.between (hp : f.Cell code p) (hr : f.Cell code r) (hpq : p ≤ q) (hqr : q ≤ r) :
    f.Cell code q := by
  have hlower := hp.lower_le
  have hupper := hr.le_upper
  refine ⟨by linarith, fun heq => ?_, by linarith, fun heq => ?_⟩
  · apply hp.even_of_lower_eq
    linarith
  · apply hr.even_of_eq_upper
    linarith

/-- A point that is strictly between the midpoints. -/
theorem cell_of_lt (hlower : (f.units (code - 1) + f.units code : ℚ) < 2 * q)
    (hupper : 2 * q < f.units code + f.units (code + 1)) : f.Cell code q :=
  ⟨hlower.le, fun heq => absurd heq hlower.ne, hupper.le, fun heq => absurd heq hupper.ne⟩

/-! ## Widths -/

theorem cast_units_succ (f : Format) (code : ℕ) :
    (f.units (code + 1) : ℚ) = f.units code + f.gap code := by
  rw [f.units_succ, Nat.cast_add]

/-- A step of a binade is small, save among the subnormal magnitudes, where it is one. -/
theorem two_pow_mul_gap_le (h : 2 ^ f.fraction ≤ code) :
    2 ^ f.fraction * f.gap code ≤ f.units code := by
  rw [f.units_of_le h, gap]
  exact Nat.mul_le_mul_right _ (Nat.le_add_right _ _)

theorem gap_le_units (h : 0 < code) : f.gap code ≤ f.units code := by
  by_cases hcode : code < 2 ^ f.fraction
  · rw [f.gap_of_lt hcode, f.units_of_lt hcode]
    exact h
  · exact (Nat.le_mul_of_pos_left _ (Nat.two_pow_pos _)).trans
      (two_pow_mul_gap_le (Nat.le_of_not_lt hcode))

/-- A step is not much smaller than its end. -/
theorem units_succ_le (f : Format) (code : ℕ) :
    f.units (code + 1) ≤ 2 * 2 ^ f.fraction * f.gap code := by
  rw [f.units_succ]
  by_cases hcode : code < 2 ^ f.fraction
  · rw [f.gap_of_lt hcode, f.units_of_lt hcode]
    omega
  · rw [f.units_of_le (Nat.le_of_not_lt hcode), gap, ← Nat.succ_mul]
    have hmod := Nat.mod_lt code (Nat.two_pow_pos f.fraction)
    exact Nat.mul_le_mul_right _ (by omega)

theorem gap_le_gap_succ (f : Format) (code : ℕ) : f.gap code ≤ f.gap (code + 1) :=
  Nat.pow_le_pow_right Nat.two_pos
    (Nat.sub_le_sub_right (Nat.div_le_div_right (Nat.le_succ code)) 1)

theorem cell_of_abs_sub_lt (h : |q - f.units code| * 2 ^ (f.fraction + 2) < f.units code) :
    f.Cell code q := by
  have hfraction : (0 : ℚ) < 2 ^ f.fraction := by positivity
  cases code with
  | zero =>
    rw [f.units_zero, Nat.cast_zero] at h
    exact absurd h (not_lt_of_ge (by positivity))
  | succ code =>
    have hsize : (f.units (code + 1) : ℚ) ≤ 2 * 2 ^ f.fraction * f.gap code := by
      exact_mod_cast f.units_succ_le code
    have hgap : (f.gap code : ℚ) ≤ f.gap (code + 1) := by exact_mod_cast f.gap_le_gap_succ code
    have hclose : 2 * |q - f.units (code + 1)| < f.gap code := by
      rw [pow_add] at h
      nlinarith
    obtain ⟨hlow, hhigh⟩ := abs_lt.mp (show |q - f.units (code + 1)| < f.gap code / 2 by linarith)
    apply cell_of_lt
    · rw [Nat.add_sub_cancel]
      have hstep := f.cast_units_succ code
      linarith
    · have hstep := f.cast_units_succ (code + 1)
      linarith

theorem Cell.units_le (h : f.Cell code q) : (f.units code : ℚ) ≤ 2 * q := by
  have hlower := h.lower_le
  have hpos : (0 : ℚ) ≤ f.units (code - 1) := Nat.cast_nonneg _
  linarith

theorem Cell.le_units (h : f.Cell code q) (hcode : 0 < code) : 2 * q ≤ 3 * f.units code := by
  have hupper := h.le_upper
  have hstep := f.cast_units_succ code
  have hgap : (f.gap code : ℚ) ≤ f.units code := by exact_mod_cast gap_le_units hcode
  linarith

theorem Cell.pos (h : f.Cell code q) (hcode : 0 < code) : 0 < q := by
  have hle := h.units_le
  have hpos : (0 : ℚ) < f.units code := by
    rw [← Nat.cast_zero, ← f.units_zero]
    exact_mod_cast f.units_lt_units hcode
  linarith

/-- Away from the least magnitudes a cell is narrow. -/
theorem Cell.mul_le (h : f.Cell code q) (hq : 10 ≤ q) (hfraction : 10 ≤ 2 ^ f.fraction) :
    95 * q ≤ 100 * f.units code := by
  have hupper := h.le_upper
  have hstep := f.cast_units_succ code
  by_cases hcode : code < 2 ^ f.fraction
  · rw [f.gap_of_lt hcode, Nat.cast_one] at hstep
    linarith
  · have hsize := two_pow_mul_gap_le (Nat.le_of_not_lt hcode)
    have hgap : (10 * f.gap code : ℚ) ≤ f.units code := by
      exact_mod_cast (Nat.mul_le_mul_right _ hfraction).trans hsize
    linarith

/-- A power of ten above a magnitude that rounds to it is not much larger, if the powers of ten run
past a little more than two units. -/
theorem Cell.mul_zpow_le (h : f.Cell code (10 ^ k * c)) (hcode : 0 < code)
    (hlt : (f.units code : ℚ) < 10 ^ k * c) (hc : 202 / 100 < c) (hc' : c < 203 / 100)
    (hfraction : 10 ≤ 2 ^ f.fraction) : 95 * (10 ^ k * c) ≤ 100 * (f.units code : ℚ) := by
  have hle := h.units_le
  have hge := h.le_units hcode
  have hone : (1 : ℚ) ≤ f.units code := by
    exact_mod_cast (f.units_zero ▸ f.units_lt_units hcode : 0 < f.units code)
  rcases lt_trichotomy k 0 with hk | rfl | hk
  · have hpow : (10 ^ k : ℚ) ≤ 10 ^ (-1 : ℤ) := zpow_le_zpow_right₀ (by norm_num) (by omega)
    have hq := mul_le_mul_of_nonneg_right hpow (show 0 ≤ c by linarith)
    norm_num at hq
    linarith
  · rw [zpow_zero, one_mul] at *
    have htwo : f.units code = 2 := by
      have hupper : (f.units code : ℚ) < 3 := by linarith
      have hlower : (1 : ℚ) < f.units code := by linarith
      norm_cast at hupper hlower
      omega
    rw [htwo, Nat.cast_two]
    linarith
  · have hpow : (10 ^ (1 : ℤ) : ℚ) ≤ 10 ^ k := zpow_le_zpow_right₀ (by norm_num) hk
    have hq := mul_le_mul_of_nonneg_right hpow (show 0 ≤ c by linarith)
    rw [zpow_one] at hq
    exact h.mul_le (by linarith) hfraction

end Format

end PointSymbol.Binary
