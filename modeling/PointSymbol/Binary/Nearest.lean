import PointSymbol.Binary.Order
import PointSymbol.Binary.Rounding

/-!
# Laws of rounding

`nearestCode_eq_iff`: rounding gives the one code whose magnitude is nearest to the quotient. Hence
it keeps the magnitudes of the format, the order of quotients, and depends on their value only.
-/

namespace PointSymbol.Binary
-- the powers of core, whether or not a monoid of naturals is in scope
attribute [local instance (2000)] instPowNat

/-! ## The nearest integer -/

theorem two_mul_le_nearestEven (num : Nat) {den : Nat} (h : 0 < den) :
    2 * num ≤ (2 * nearestEven num den + 1) * den ∧
      (2 * num = (2 * nearestEven num den + 1) * den → nearestEven num den % 2 = 0) := by
  have hd := Nat.div_add_mod num den
  have hr := Nat.mod_lt num h
  have hp : ∀ n, (2 * n + 1) * den = 2 * (den * n) + den := fun n => by
    rw [Nat.add_mul, Nat.one_mul, Nat.mul_assoc, Nat.mul_comm n]
  simp only [nearestEven, hp]
  split
  · omega
  split
  · rw [Nat.mul_add]; omega
  rcases Nat.mod_two_eq_zero_or_one (num / den) with hq | hq <;>
    simp only [hq, Nat.mul_add] <;> omega

theorem nearestEven_le_two_mul (num : Nat) {den : Nat} (h : 0 < den) :
    2 * nearestEven num den * den ≤ 2 * num + den ∧
      (2 * nearestEven num den * den = 2 * num + den → nearestEven num den % 2 = 0) := by
  have hd := Nat.div_add_mod num den
  have hr := Nat.mod_lt num h
  have hp : ∀ n, 2 * n * den = 2 * (den * n) := fun n => by rw [Nat.mul_assoc, Nat.mul_comm n]
  simp only [nearestEven, hp]
  split
  · omega
  split
  · rw [Nat.mul_add]; omega
  rcases Nat.mod_two_eq_zero_or_one (num / den) with hq | hq <;>
    simp only [hq, Nat.mul_add] <;> omega

/-! ## The nearest code -/

namespace Format
variable (f : Format)

/-- A code whose magnitude is nearest to `num / den` units: the quotient is between the midpoints to
the neighbours, and on a midpoint the code is even. Infinity has no upper neighbour. -/
structure IsNearest (num den code : Nat) : Prop where
  le_infinity : code ≤ f.infinity
  lower_le : 0 < code → (f.units (code - 1) + f.units code) * den ≤ 2 * num
  even_of_lower_eq : 0 < code → (f.units (code - 1) + f.units code) * den = 2 * num → code % 2 = 0
  le_upper : code < f.infinity → 2 * num ≤ (f.units code + f.units (code + 1)) * den
  even_of_eq_upper :
    code < f.infinity → 2 * num = (f.units code + f.units (code + 1)) * den → code % 2 = 0

variable {f} {num den : Nat}

theorem IsNearest.not_lt {c d : Nat} (hden : 0 < den) (hc : f.IsNearest num den c)
    (hd : f.IsNearest num den d) : ¬ c < d := by
  intro h
  have hlt : c < f.infinity := Nat.lt_of_lt_of_le h hd.le_infinity
  have h0 : 0 < d := Nat.zero_lt_of_lt h
  have hl : f.units c ≤ f.units (d - 1) := f.units_le_units.mpr (by omega)
  have hu : f.units (c + 1) ≤ f.units d := f.units_le_units.mpr h
  have hm := Nat.mul_le_mul_right den (Nat.add_le_add hl hu)
  have h1 := hc.le_upper hlt
  have h2 := hd.lower_le h0
  have heq : f.units c + f.units (c + 1) = f.units (d - 1) + f.units d :=
    Nat.eq_of_mul_eq_mul_right hden (by omega)
  have hcd : d ≤ c + 1 := f.units_le_units.mp (by omega)
  have hce := hc.even_of_eq_upper hlt (by omega)
  have hde := hd.even_of_lower_eq h0 (by omega)
  omega

theorem IsNearest.unique {c d : Nat} (hden : 0 < den) (hc : f.IsNearest num den c)
    (hd : f.IsNearest num den d) : c = d :=
  Nat.le_antisymm (Nat.not_lt.mp (hd.not_lt hden hc)) (Nat.not_lt.mp (hc.not_lt hden hd))

theorem two_dvd_two_pow_fraction (f : Format) : 2 ∣ 2 ^ f.fraction :=
  Nat.pow_dvd_pow 2 f.fraction_pos

theorem infinity_mod_two (f : Format) : f.infinity % 2 = 0 :=
  Nat.mod_eq_zero_of_dvd (Nat.dvd_trans f.two_dvd_two_pow_fraction (Nat.dvd_mul_left _ _))

variable (f num)

theorem num_lt (hden : 0 < den) : num < 2 * 2 ^ f.fraction * (den * 2 ^ f.binade num den) := by
  have h : num / den < 2 * 2 ^ f.fraction * 2 ^ f.binade num den := by
    rw [← Nat.pow_succ', ← Nat.pow_add]
    exact Nat.lt_of_lt_of_le Nat.lt_log2_self (Nat.pow_le_pow_right Nat.two_pos
      (by rw [binade]; omega))
  rw [Nat.mul_left_comm, Nat.mul_comm den]
  exact (Nat.div_lt_iff_lt_mul hden).mp h

theorem le_num (hden : 0 < den) (h : 0 < f.binade num den) :
    2 ^ f.fraction * (den * 2 ^ f.binade num den) ≤ num := by
  have hlog : (num / den).log2 = f.fraction + f.binade num den := by rw [binade] at h ⊢; omega
  have hq : num / den ≠ 0 := by rintro hq; simp [hq] at hlog; omega
  have hpow := Nat.log2_self_le hq
  rw [hlog, Nat.pow_add] at hpow
  rw [Nat.mul_left_comm, Nat.mul_comm den]
  exact (Nat.le_div_iff_mul_le hden).mp hpow

theorem steps_le (hden : 0 < den) : f.steps num den ≤ 2 * 2 ^ f.fraction := by
  have hD : 0 < den * 2 ^ f.binade num den := Nat.mul_pos hden (Nat.two_pow_pos _)
  have h := (nearestEven_le_two_mul num hD).1
  have hlt := f.num_lt num hden
  rw [← steps] at h
  generalize den * 2 ^ f.binade num den = D at *
  generalize 2 * 2 ^ f.fraction = P at *
  have : (2 * f.steps num den) * D < (2 * P + 1) * D := by
    rw [Nat.add_mul, Nat.mul_assoc 2 P]; omega
  have := Nat.lt_of_mul_lt_mul_right this
  omega

theorem le_steps (hden : 0 < den) (h : 0 < f.binade num den) :
    2 ^ f.fraction ≤ f.steps num den := by
  have hD : 0 < den * 2 ^ f.binade num den := Nat.mul_pos hden (Nat.two_pow_pos _)
  have hle := (two_mul_le_nearestEven num hD).1
  have hnum := f.le_num num hden h
  rw [← steps] at hle
  generalize den * 2 ^ f.binade num den = D at *
  generalize 2 ^ f.fraction = P at *
  have := Nat.le_of_mul_le_mul_right (show 2 * P * D ≤ (2 * f.steps num den + 1) * D by
    rw [Nat.mul_assoc]; omega) hD
  omega

theorem units_unboundedCode (hden : 0 < den) :
    f.units (f.unboundedCode num den) = f.steps num den * 2 ^ f.binade num den := by
  rw [unboundedCode]
  by_cases h : 2 ^ f.fraction ≤ f.steps num den
  · exact f.units_add h (f.steps_le num hden)
  · have hk : f.binade num den = 0 :=
      Nat.eq_zero_of_not_pos fun hk => h (f.le_steps num hden hk)
    rw [hk, Nat.zero_mul, Nat.zero_add, Nat.pow_zero, Nat.mul_one]
    exact f.units_of_lt (Nat.not_le.mp h)

theorem le_gap_unboundedCode (hden : 0 < den) :
    2 ^ f.binade num den ≤ f.gap (f.unboundedCode num den) := by
  rw [unboundedCode]
  by_cases h : 2 ^ f.fraction ≤ f.steps num den
  · rcases Nat.lt_or_eq_of_le (f.steps_le num hden) with hlt | heq
    · exact Nat.le_of_eq (f.gap_add h hlt).symm
    · rw [heq, Nat.two_mul, ← Nat.add_assoc, ← Nat.succ_mul,
        f.gap_add (Nat.le_refl _) (by have := Nat.two_pow_pos f.fraction; omega)]
      exact Nat.pow_le_pow_right Nat.two_pos (Nat.le_succ _)
  · have hk : f.binade num den = 0 :=
      Nat.eq_zero_of_not_pos fun hk => h (f.le_steps num hden hk)
    rw [hk, Nat.zero_mul, Nat.zero_add, Nat.pow_zero]
    exact Nat.two_pow_pos _

/-- Below the nearest code the step is that of its binade, except at the start of a binade. -/
theorem gap_pred_unboundedCode (hden : 0 < den) (h0 : 0 < f.unboundedCode num den) :
    f.gap (f.unboundedCode num den - 1) = 2 ^ f.binade num den ∨
      2 ^ f.fraction * (den * 2 ^ f.binade num den) ≤ num ∧ f.steps num den = 2 ^ f.fraction := by
  by_cases h : 2 ^ f.fraction < f.steps num den
  · left
    have := f.steps_le num hden
    rw [unboundedCode, Nat.add_sub_assoc (Nat.one_le_of_lt h)]
    exact f.gap_add (by omega) (by omega)
  by_cases hk : 0 < f.binade num den
  · exact .inr ⟨f.le_num num hden hk, Nat.le_antisymm (Nat.not_lt.mp h) (f.le_steps num hden hk)⟩
  · left
    rw [unboundedCode, Nat.eq_zero_of_not_pos hk, Nat.zero_mul, Nat.zero_add] at h0 ⊢
    rw [Nat.pow_zero]
    exact f.gap_of_lt (by omega)

theorem unboundedCode_mod_two : f.unboundedCode num den % 2 = f.steps num den % 2 := by
  rw [unboundedCode, Nat.add_mod, Nat.mod_eq_zero_of_dvd
    (Nat.dvd_trans f.two_dvd_two_pow_fraction (Nat.dvd_mul_left _ _)), Nat.zero_add, Nat.mod_mod]

theorem le_upper_unboundedCode (hden : 0 < den) :
    2 * num ≤ (f.units (f.unboundedCode num den) + f.units (f.unboundedCode num den + 1)) * den ∧
      (2 * num = (f.units (f.unboundedCode num den) + f.units (f.unboundedCode num den + 1)) * den →
        f.unboundedCode num den % 2 = 0) := by
  have hD : 0 < den * 2 ^ f.binade num den := Nat.mul_pos hden (Nat.two_pow_pos _)
  have h := two_mul_le_nearestEven num hD
  rw [← steps] at h
  have hle : (2 * f.steps num den + 1) * (den * 2 ^ f.binade num den) ≤
      (f.units (f.unboundedCode num den) + f.units (f.unboundedCode num den + 1)) * den := by
    rw [Nat.mul_left_comm, Nat.mul_comm den]
    apply Nat.mul_le_mul_right
    have := f.le_gap_unboundedCode num hden
    rw [f.units_succ, f.units_unboundedCode num hden, Nat.add_mul, Nat.one_mul, Nat.mul_assoc]
    omega
  rw [f.unboundedCode_mod_two]
  exact ⟨Nat.le_trans h.1 hle, fun heq => h.2 (by omega)⟩

theorem lower_le_unboundedCode (hden : 0 < den) (h0 : 0 < f.unboundedCode num den) :
    (f.units (f.unboundedCode num den - 1) + f.units (f.unboundedCode num den)) * den ≤ 2 * num ∧
      ((f.units (f.unboundedCode num den - 1) + f.units (f.unboundedCode num den)) * den = 2 * num →
        f.unboundedCode num den % 2 = 0) := by
  have hD : 0 < den * 2 ^ f.binade num den := Nat.mul_pos hden (Nat.two_pow_pos _)
  have h := nearestEven_le_two_mul num hD
  rw [← steps] at h
  have hu := f.units_unboundedCode num hden
  have hs := f.units_succ (f.unboundedCode num den - 1)
  rw [Nat.sub_add_cancel h0] at hs
  rw [f.unboundedCode_mod_two]
  have hmul : 2 * f.steps num den * (den * 2 ^ f.binade num den) =
      2 * f.units (f.unboundedCode num den) * den := by
    rw [hu, Nat.mul_left_comm, Nat.mul_comm den, Nat.mul_assoc 2]
  rcases f.gap_pred_unboundedCode num hden h0 with hg | ⟨hnum, hn⟩
  · rw [hg] at hs
    have heq : (f.units (f.unboundedCode num den - 1) + f.units (f.unboundedCode num den)) * den +
        den * 2 ^ f.binade num den = 2 * f.steps num den * (den * 2 ^ f.binade num den) := by
      rw [hmul, Nat.mul_comm den, ← Nat.add_mul]
      congr 1
      omega
    exact ⟨by omega, fun h' => h.2 (by omega)⟩
  · have hlt : (f.units (f.unboundedCode num den - 1) + f.units (f.unboundedCode num den)) * den <
        2 * f.units (f.unboundedCode num den) * den := by
      apply Nat.mul_lt_mul_of_pos_right _ hden
      have : 0 < f.gap (f.unboundedCode num den - 1) := Nat.two_pow_pos _
      omega
    rw [← hmul, hn, Nat.mul_assoc] at hlt
    omega

theorem isNearest_nearestCode (hden : 0 < den) : f.IsNearest num den (f.nearestCode num den) := by
  have hup := f.le_upper_unboundedCode num hden
  have hlow := f.lower_le_unboundedCode num hden
  rw [nearestCode]
  by_cases h : f.unboundedCode num den ≤ f.infinity
  · rw [Nat.min_eq_left h]
    exact ⟨h, fun h0 => (hlow h0).1, fun h0 => (hlow h0).2, fun _ => hup.1, fun _ => hup.2⟩
  · have h := Nat.not_le.mp h
    have hlt (h0 : 0 < f.infinity) :
        (f.units (f.infinity - 1) + f.units f.infinity) * den < 2 * num :=
      Nat.lt_of_lt_of_le
        (Nat.mul_lt_mul_of_pos_right
          (Nat.add_lt_add (f.units_lt_units (Nat.sub_lt_sub_right h0 h)) (f.units_lt_units h)) hden)
        (hlow (Nat.zero_lt_of_lt h)).1
    rw [Nat.min_eq_right (Nat.le_of_lt h)]
    exact ⟨Nat.le_refl _, fun h0 => Nat.le_of_lt (hlt h0), fun _ _ => f.infinity_mod_two,
      fun h => absurd h (Nat.lt_irrefl _), fun h => absurd h (Nat.lt_irrefl _)⟩

theorem nearestCode_eq_iff (hden : 0 < den) {code : Nat} :
    f.nearestCode num den = code ↔ f.IsNearest num den code := by
  constructor
  · rintro rfl
    exact f.isNearest_nearestCode num hden
  · exact (f.isNearest_nearestCode num hden).unique hden

variable {num}

theorem nearestCode_units (hden : 0 < den) {code : Nat} (h : code ≤ f.infinity) :
    f.nearestCode (f.units code * den) den = code := by
  refine (f.nearestCode_eq_iff _ hden).mpr
    ⟨h, fun h0 => ?_, fun h0 heq => ?_, fun _ => ?_, fun _ heq => ?_⟩
  all_goals
    rw [← Nat.mul_assoc] at *
  · have := f.units_lt_units (Nat.sub_lt h0 Nat.one_pos)
    exact Nat.mul_le_mul_right _ (by omega)
  · have := f.units_lt_units (Nat.sub_lt h0 Nat.one_pos)
    have := Nat.eq_of_mul_eq_mul_right hden heq
    omega
  · have := f.units_lt_units (Nat.lt_add_one code)
    exact Nat.mul_le_mul_right _ (by omega)
  · have := f.units_lt_units (Nat.lt_add_one code)
    have := Nat.eq_of_mul_eq_mul_right hden heq
    omega

theorem nearestCode_mono {num' den' : Nat} (hden : 0 < den) (hden' : 0 < den')
    (h : num * den' ≤ num' * den) : f.nearestCode num den ≤ f.nearestCode num' den' := by
  have hc := f.isNearest_nearestCode num hden
  have hd := f.isNearest_nearestCode num' hden'
  generalize f.nearestCode num den = c at *
  generalize f.nearestCode num' den' = d at *
  refine Nat.not_lt.mp fun hlt => ?_
  have hd' : d < f.infinity := Nat.lt_of_lt_of_le hlt hc.le_infinity
  have h0 : 0 < c := Nat.zero_lt_of_lt hlt
  have hl : f.units d ≤ f.units (c - 1) := f.units_le_units.mpr (by omega)
  have hu : f.units (d + 1) ≤ f.units c := f.units_le_units.mpr hlt
  have hm := Nat.mul_le_mul_right den' (Nat.mul_le_mul_right den (Nat.add_le_add hl hu))
  have h1 := Nat.mul_le_mul_right den (hd.le_upper hd')
  have h2 := Nat.mul_le_mul_right den' (hc.lower_le h0)
  rw [Nat.mul_right_comm _ den' den] at h1
  rw [Nat.mul_assoc 2] at h1 h2
  have heq : f.units d + f.units (d + 1) = f.units (c - 1) + f.units c :=
    Nat.eq_of_mul_eq_mul_right hden (Nat.eq_of_mul_eq_mul_right hden' (by omega))
  have hcd : c ≤ d + 1 := f.units_le_units.mp (by omega)
  rw [heq] at h1
  have hce := hc.even_of_lower_eq h0
    (Nat.eq_of_mul_eq_mul_right hden' (by rw [Nat.mul_assoc 2]; omega))
  have hde := hd.even_of_eq_upper hd' (Nat.eq_of_mul_eq_mul_right hden
    (by rw [heq, Nat.mul_right_comm _ den' den, Nat.mul_assoc 2]; omega))
  omega

theorem nearestCode_mul_mul {k : Nat} (hden : 0 < den) (hk : 0 < k) :
    f.nearestCode (num * k) (den * k) = f.nearestCode num den := by
  have h : num * k * den = num * (den * k) := by rw [Nat.mul_right_comm, Nat.mul_assoc]
  exact Nat.le_antisymm (f.nearestCode_mono (Nat.mul_pos hden hk) hden (Nat.le_of_eq h))
    (f.nearestCode_mono hden (Nat.mul_pos hden hk) (Nat.le_of_eq h.symm))

theorem nearestCode_eq_infinity (hden : 0 < den)
    (h : f.units f.infinity * den ≤ num) : f.nearestCode num den = f.infinity := by
  refine Nat.le_antisymm (f.nearestCode_le num den) ?_
  calc f.infinity = f.nearestCode (f.units f.infinity * den) den :=
        (f.nearestCode_units hden (Nat.le_refl _)).symm
    _ ≤ f.nearestCode num den := f.nearestCode_mono hden hden (Nat.mul_le_mul_right den h)

theorem nearestCode_eq_zero (hden : 0 < den) (h : 2 * num < den) :
    f.nearestCode num den = 0 := by
  have h1 : f.units 1 = 1 := by
    rw [f.units_succ, f.units_zero, f.gap_of_lt (Nat.two_pow_pos _)]
  refine (f.nearestCode_eq_iff num hden).mpr ⟨Nat.zero_le _, ?_, ?_, fun _ => ?_, fun _ _ => rfl⟩
  · exact fun h0 => absurd h0 (Nat.lt_irrefl 0)
  · exact fun h0 => absurd h0 (Nat.lt_irrefl 0)
  · rw [f.units_zero, Nat.zero_add, Nat.zero_add, h1, Nat.one_mul]
    exact Nat.le_of_lt h

end Format

/-! ## The nearest number -/

variable {f : Format}

theorem nearestUnits_eq_zero {negative : Bool} {num den : Nat} (hden : 0 < den)
    (h : 2 * num < den) : (nearestUnits negative num den : Binary f) = .zero negative := by
  simp only [nearestUnits, f.nearestCode_eq_zero hden h]
  rfl

theorem nearestUnits_eq_infinity {negative : Bool} {num den : Nat} (hden : 0 < den)
    (h : f.units f.infinity * den ≤ num) :
    (nearestUnits negative num den : Binary f) = .infinity negative := by
  simp only [nearestUnits, f.nearestCode_eq_infinity hden h]
  rfl

theorem nearestUnits_mul_mul (negative : Bool) {num den k : Nat} (hden : 0 < den) (hk : 0 < k) :
    (nearestUnits negative (num * k) (den * k) : Binary f) = nearestUnits negative num den := by
  simp only [nearestUnits, f.nearestCode_mul_mul hden hk]

end PointSymbol.Binary
